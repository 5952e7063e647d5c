import ModuleBundler.Module.Id
import ModuleBundler.Proofs.Text.Split
import ModuleBundler.Text.CharClass

/-!
# Ids are read back

The text of an id is an absolute path, and reading that path gives the id again
(`ModuleId.ofPath_text`).  So an id can be given wherever a path is asked for, and no two ids have
one text (`ModuleId.text_injective`).
-/

namespace ModuleBundler

open ModuleBundler.Text

/-! ## Reading a path -/

/-- The parts of a path that are proper segments are taken as they are. -/
theorem followParts_of_isSegment {segments parts : List String}
    (h : ∀ part ∈ parts, IsSegment part) : followParts segments parts = segments ++ parts := by
  induction parts generalizing segments with
  | nil => exact (List.append_nil segments).symm
  | cons part rest ih =>
    obtain ⟨hempty, hpoint, hpoints, -⟩ := h part List.mem_cons_self
    have hpart : followPart segments part = segments ++ [part] := by
      unfold followPart
      rw [if_neg (not_or.2 ⟨hempty, hpoint⟩), if_neg hpoints]
    show followParts (followPart segments part) rest = _
    rw [ih fun p hp => h p (List.mem_cons_of_mem _ hp), hpart, List.append_assoc,
      List.singleton_append]

namespace ModuleId

/-- An id is its segments. -/
theorem eq_of_segments_eq {a b : ModuleId} (h : a.segments = b.segments) : a = b := by
  cases a
  cases b
  cases h
  rfl

/-- The characters of segments with a slash in front of each. -/
theorem toList_render {segments : List String} (hne : segments ≠ []) :
    (render segments).toList = (segments.map String.toList).flatMap ('/' :: ·) := by
  unfold render
  rw [if_neg (by simpa using hne), String.toList_join, List.flatMap_map, List.flatMap_map]
  simp only [String.toList_append]
  rfl

theorem slashParts_render {segments : List String} (hsegments : ∀ s ∈ segments, IsSegment s)
    (hne : segments ≠ []) : slashParts (render segments) = "" :: segments := by
  unfold slashParts
  rw [toList_render hne, splitAtChar_flatMap]
  · simp
  · intro piece hpiece
    obtain ⟨s, hs, rfl⟩ := List.mem_map.1 hpiece
    exact (hsegments s hs).2.2.2

/-- Reading the text of an id gives the id. -/
theorem ofPath_text (id : ModuleId) : ofPath id.text = id := by
  have hsegments : followParts [] (slashParts id.text) = id.segments := by
    by_cases hne : id.segments = []
    · unfold text
      rw [hne]
      rfl
    · unfold text
      rw [slashParts_render id.proper hne]
      exact followParts_of_isSegment id.proper
  exact eq_of_segments_eq hsegments

/-- Different ids have different texts. -/
theorem text_injective : Function.Injective text := Function.LeftInverse.injective ofPath_text

/-- The text of an id begins with a slash. -/
theorem exists_text (id : ModuleId) : ∃ rest, id.text.toList = '/' :: rest := by
  unfold text render
  split
  · exact ⟨[], rfl⟩
  · rename_i hne
    obtain ⟨s, rest, hsegments⟩ := List.exists_cons_of_ne_nil fun h => hne (List.isEmpty_iff.2 h)
    rw [hsegments, String.toList_join]
    simp

theorem not_isBlank_text (id : ModuleId) : ¬ id.text.toList.all isBlank = true := by
  obtain ⟨rest, hrest⟩ := id.exists_text
  intro hall
  exact absurd (List.all_eq_true.1 hall '/' (by rw [hrest]; exact List.mem_cons_self)) (by decide)

end ModuleId

end ModuleBundler
