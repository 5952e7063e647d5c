import ModuleBundler.Text.Slashed

/-!
# Module ids

A `ModuleId` names a module by its place below the project root: the segments of an absolute path
in which no segment is empty, `.` or `..`.  Two spellings of one place give equal ids, so the id
is what modules are told apart by.

* `ModuleId.ofPath` reads any text as an absolute path; `..` takes the last segment back, and does
  nothing at the root, so no id leads out of it.
* `ModuleId.text` writes an id, and `ModuleId.relative` follows a path from the directory of a
  module.
-/

namespace ModuleBundler

open ModuleBundler.Text

/-- Whether a text can be a segment of an id. -/
def IsSegment (s : String) : Prop := s ≠ "" ∧ s ≠ "." ∧ s ≠ ".." ∧ '/' ∉ s.toList

/-! ## Following a path -/

/-- The segments after one more part of a path. -/
def followPart (segments : List String) (part : String) : List String :=
  if part = "" ∨ part = "." then segments
  else if part = ".." then segments.dropLast
  else segments ++ [part]

def followParts (segments parts : List String) : List String := parts.foldl followPart segments

theorem isSegment_followPart {segments : List String} {part : String}
    (hs : ∀ s ∈ segments, IsSegment s) (hp : '/' ∉ part.toList) :
    ∀ s ∈ followPart segments part, IsSegment s := by
  unfold followPart
  split
  · exact hs
  · split
    · exact fun s h => hs s (List.dropLast_subset _ h)
    · rename_i h1 h2
      intro s h
      rcases List.mem_append.1 h with h | h
      · exact hs s h
      · simp only [List.mem_singleton] at h
        subst h
        exact ⟨fun h => h1 (.inl h), fun h => h1 (.inr h), h2, hp⟩

theorem isSegment_followParts {segments parts : List String}
    (hs : ∀ s ∈ segments, IsSegment s) (hp : ∀ p ∈ parts, '/' ∉ p.toList) :
    ∀ s ∈ followParts segments parts, IsSegment s := by
  induction parts generalizing segments with
  | nil => exact hs
  | cons p ps ih =>
    exact ih (isSegment_followPart hs (hp p (by simp))) fun q hq => hp q (by simp [hq])

/-! ## Ids -/

/-- The place of a module below the project root. -/
structure ModuleId where
  segments : List String
  proper : ∀ s ∈ segments, IsSegment s
deriving DecidableEq

namespace ModuleId

def root : ModuleId := ⟨[], by simp⟩

instance : Inhabited ModuleId := ⟨root⟩

/-- Reads a text as an absolute path. -/
def ofPath (path : String) : ModuleId :=
  ⟨followParts [] (slashParts path),
    isSegment_followParts (by simp) (slash_not_mem_slashParts path)⟩

def render (segments : List String) : String :=
  if segments.isEmpty then "/" else String.join (segments.map ("/" ++ ·))

/-- An id as an absolute path. -/
def text (m : ModuleId) : String := render m.segments

/-- The directory that holds the module. -/
def dir (m : ModuleId) : String := render m.segments.dropLast

/-- Follows a path from the directory that holds the module. -/
def relative (m : ModuleId) (path : String) : ModuleId := ofPath (m.dir ++ "/" ++ path)

/-- The id with a text behind its path. -/
def withSuffix (m : ModuleId) (suffix : String) : ModuleId := ofPath (m.text ++ suffix)

instance : ToString ModuleId := ⟨text⟩

end ModuleId

end ModuleBundler
