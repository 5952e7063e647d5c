import ModuleBundler.Proofs.Files.Tree

/-!
# Canonical paths

What a path leads to is an entry of the file tree, so in a sound tree a canonical path is the text of a
place with proper names.  The steps of such a path are the root and its names, and a relative path that is
joined to it adds its own.

* `FileTree.entry_of_locate` — a path leads to an entry, also through symbolic links;
* `FileTree.canonicalPath_eq` — so its canonical path is the text of a place;
* `FileTree.belowPath_placeText` and `FileTree.belowPath_joinPath` — what is left of a longer path behind
  the place are the names that follow, and of a joined path its own steps.
-/

namespace ModuleBundler

open ModuleBundler.Text ModuleBundler.Files

namespace FileTree

/-! ## Where paths lead -/

section Locate

variable {t : FileTree} {p q cwd : Place} {missing : Missing}

/-- Following parts ends at an entry, if going on behind a symbolic link does. -/
theorem entry_of_walk {jump : Place → List String → Except FileFault Place} (ht : t.Sound)
    (hmissing : ∀ p, missing p ≠ .ok q)
    (hjump : ∀ p parts, parts ≠ [] → jump p parts = .ok q → (t.entry? q).isSome = true)
    {parts : List String} (hparts : (t.entry? p).isSome = true ∨ parts ≠ [])
    (h : t.walk missing jump p parts = .ok q) : (t.entry? q).isSome = true := by
  induction parts generalizing p with
  | nil =>
    cases h
    exact hparts.resolve_right fun hne => hne rfl
  | cons part rest ih =>
    rw [walk] at h
    split at h
    · rename_i hdirectory
      split at h
      · exact ih (.inl (by rw [hdirectory]; rfl)) h
      split at h
      · -- what stands above a directory is a directory, and above the root is the root
        refine ih (.inl ?_) h
        by_cases hne : p = []
        · rw [hne]
          rfl
        · rw [ht.parent _ (mem_entries_of_found hdirectory hne)]
          rfl
      split at h
      · cases h
      dsimp only at h
      split at h
      · split at h
        · exact absurd h (hmissing _)
        · cases h
      · exact hjump _ _ (List.append_ne_nil_of_left_ne_nil (slashParts_ne_nil _) _) h
      · rename_i hnext
        exact ih (.inl (by rw [hnext]; rfl)) h
    · cases h
    · cases h

theorem entry_of_follow (ht : t.Sound) (hmissing : ∀ p, missing p ≠ .ok q) {n : Nat}
    {parts : List String} (hparts : parts ≠ []) (h : t.follow missing n p parts = .ok q) :
    (t.entry? q).isSome = true := by
  induction n generalizing p parts with
  | zero => exact entry_of_walk ht hmissing (fun _ _ _ h => by cases h) (.inr hparts) h
  | succ n ih => exact entry_of_walk ht hmissing (fun _ _ => ih) (.inr hparts) h

/-- A path leads to an entry. -/
theorem entry_of_locate (ht : t.Sound) {path : String} (h : t.locate cwd path = .ok q) :
    (t.entry? q).isSome = true := by
  unfold locate locateWith at h
  split at h
  · cases h
  split at h
  · cases h
  exact entry_of_follow ht (fun _ h => by cases h) (slashParts_ne_nil path) h

/-- A canonical path is the text of a place with proper names. -/
theorem canonicalPath_eq (ht : t.Sound) {path canonical : String}
    (h : t.canonicalPath cwd path = .ok canonical) :
    ∃ p, canonical = placeText p ∧ ∀ s ∈ p, IsSegment s := by
  unfold canonicalPath at h
  cases hlocate : t.locate cwd path with
  | error fault =>
    rw [hlocate] at h
    cases h
  | ok p =>
    rw [hlocate] at h
    cases h
    obtain ⟨e, hentry⟩ := Option.isSome_iff_exists.1 (entry_of_locate ht hlocate)
    exact ⟨p, rfl, fun s hs => (ht.names hentry s hs).1⟩

end Locate

/-! ## The steps of a path -/

section Steps

variable {p names : Place} {path : String}

/-- What is joined to an absolute path is absolute. -/
theorem isAbsolute_joinPath {base : String} (h : isAbsolute base = true) (path : String) :
    isAbsolute (joinPath base path) = true := by
  unfold joinPath
  split
  · assumption
  · have hhead : base.toList.head? = some '/' := by simpa [isAbsolute] using h
    obtain ⟨rest, hrest⟩ := List.head?_eq_some_iff.1 hhead
    split <;> simp [isAbsolute, hrest]

theorem partComponent_of_isSegment {s : String} (hs : IsSegment s) :
    partComponent s = some (.name s) := by
  unfold partComponent
  rw [if_neg (by simp [hs.1, hs.2.1]), if_neg hs.2.2.1]

/-- Names that are proper are the steps that they stand for. -/
theorem filterMap_partComponent (hp : ∀ s ∈ p, IsSegment s) :
    p.filterMap partComponent = p.map .name := by
  induction p with
  | nil => rfl
  | cons s rest ih =>
    obtain ⟨hs, hrest⟩ := List.forall_mem_cons.1 hp
    rw [List.filterMap_cons_some (partComponent_of_isSegment hs), ih hrest, List.map_cons]

theorem pathComponents_of_isAbsolute (h : isAbsolute path = true) :
    pathComponents path = .root :: (slashParts path).filterMap partComponent := by
  unfold pathComponents firstComponent
  rw [if_pos h]
  rfl

theorem filterMap_slashParts_placeText (hp : ∀ s ∈ p, IsSegment s) :
    (slashParts (placeText p)).filterMap partComponent = p.map .name := by
  by_cases hne : p = []
  · rw [hne]
    rfl
  · rw [slashParts_placeText hp hne, List.filterMap_cons_none rfl, filterMap_partComponent hp]

/-- The steps to a place are the root and its names. -/
theorem pathComponents_placeText (hp : ∀ s ∈ p, IsSegment s) :
    pathComponents (placeText p) = .root :: p.map .name := by
  rw [pathComponents_of_isAbsolute (isAbsolute_placeText p), filterMap_slashParts_placeText hp]

/-- A relative path that is joined to a place adds its steps. -/
theorem pathComponents_joinPath (hp : ∀ s ∈ p, IsSegment s) (hpath : isAbsolute path = false) :
    pathComponents (joinPath (placeText p) path) =
      .root :: p.map .name ++ (slashParts path).filterMap partComponent := by
  -- the root of all paths is joined without a second slash
  have hplace : (slashParts (if p = [] then "" else placeText p)).filterMap partComponent =
      p.map .name := by
    split
    · rename_i hnil
      rw [hnil]
      rfl
    · exact filterMap_slashParts_placeText hp
  rw [pathComponents_of_isAbsolute (isAbsolute_joinPath (isAbsolute_placeText p) path),
    joinPath_relative hp hpath, slashParts_append, List.filterMap_append, hplace, List.cons_append]

/-- What is left of a path behind another one are the steps that it has more. -/
theorem belowPath_of_append {base path : String} {steps : List Component}
    (h : pathComponents path = pathComponents base ++ steps) : belowPath base path = some steps := by
  unfold belowPath
  rw [h, if_pos (List.isPrefixOf_iff_prefix.2 (List.prefix_append _ _)), List.drop_left]

/-- A place below another one is left with the names behind that. -/
theorem belowPath_placeText (hp : ∀ s ∈ p, IsSegment s) (hnames : ∀ s ∈ names, IsSegment s) :
    belowPath (placeText p) (placeText (p ++ names)) = some (names.map .name) := by
  refine belowPath_of_append ?_
  rw [pathComponents_placeText (List.forall_mem_append.2 ⟨hp, hnames⟩), pathComponents_placeText hp,
    List.map_append]
  rfl

/-- A path that was joined to a place is left with its own steps. -/
theorem belowPath_joinPath (hp : ∀ s ∈ p, IsSegment s) (hpath : isAbsolute path = false) :
    belowPath (placeText p) (joinPath (placeText p) path) =
      some ((slashParts path).filterMap partComponent) := by
  refine belowPath_of_append ?_
  rw [pathComponents_joinPath hp hpath, pathComponents_placeText hp]

end Steps

end FileTree

end ModuleBundler
