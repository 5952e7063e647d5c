import ModuleBundler.Text.Split

/-!
# Texts divided by slashes

Paths are texts whose parts stand between slashes.  `slashParts` gives all parts, empty ones
included; no part contains a slash (`slash_not_mem_slashParts`).

`pathSpecifier` writes a path as a specifier relative to a directory: empty parts and parts that
mean the same directory vanish, and so does a slash in front.
-/

namespace ModuleBundler.Text

/-- The parts of a text between slashes. -/
def slashParts (text : String) : List String := (splitAtChar '/' text.toList).map String.ofList

/-- A part between slashes has no slash. -/
theorem slash_not_mem_slashParts (text : String) : ∀ part ∈ slashParts text, '/' ∉ part.toList := by
  intro part h
  obtain ⟨chars, hc, rfl⟩ := List.mem_map.1 h
  simpa using separator_not_mem_splitAtChar _ _ chars hc

/-- The parts of a path that move: all but the empty ones and single points. -/
def pathParts (path : String) : List String :=
  (slashParts path).filter fun part => part != "" && part != "."

/-- A path as a specifier. -/
def pathSpecifier (path : String) : String := "/".intercalate (pathParts path)

end ModuleBundler.Text
