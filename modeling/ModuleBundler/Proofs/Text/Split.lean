import ModuleBundler.Text.Slashed

/-!
# Divided texts put together again

`splitAtChar` gives back the pieces that a text was made of, as long as none of them contains the
separator.

* `splitAtChar_append` and `splitAtChar_separator` — what stands in front of a text goes to its first
  piece, and a separator between two texts keeps their pieces apart;
* `splitAtChar_flatMap` and `splitAtChar_flatMap_concat` — pieces with a separator in front of each, or
  behind each;
* `slashParts_append`, `slashParts_intercalate` and `append_slash_inj` — the same of paths.
-/

namespace ModuleBundler.Text

variable {separator : Char} {piece : List Char} {pieces : List (List Char)}

/-- Characters in front of a text that are no separators belong to its first piece. -/
theorem splitAtChar_append {text first : List Char} (hpiece : separator ∉ piece)
    (h : splitAtChar separator text = first :: pieces) :
    splitAtChar separator (piece ++ text) = (piece ++ first) :: pieces := by
  induction piece with
  | nil => exact h
  | cons c rest ih =>
    rw [List.mem_cons, not_or] at hpiece
    rw [List.cons_append]
    unfold splitAtChar
    rw [if_neg fun heq => hpiece.1 heq.symm, ih hpiece.2]
    rfl

/-- A text without separators is one piece. -/
theorem splitAtChar_of_not_mem (hpiece : separator ∉ piece) :
    splitAtChar separator piece = [piece] := by
  have hsplit := splitAtChar_append hpiece (show splitAtChar separator [] = [[]] from rfl)
  rwa [List.append_nil] at hsplit

/-- Pieces with a separator in front of each are found again, behind an empty one. -/
theorem splitAtChar_flatMap (h : ∀ piece ∈ pieces, separator ∉ piece) :
    splitAtChar separator (pieces.flatMap (separator :: ·)) = [] :: pieces := by
  induction pieces with
  | nil => rfl
  | cons piece rest ih =>
    have hrest := ih fun p hp => h p (List.mem_cons_of_mem _ hp)
    rw [List.flatMap_cons, List.cons_append]
    unfold splitAtChar
    rw [if_pos rfl, splitAtChar_append (h piece List.mem_cons_self) hrest, List.append_nil]

theorem splitAtChar_ne_nil (separator : Char) (text : List Char) :
    splitAtChar separator text ≠ [] := by
  cases text with
  | nil => exact List.cons_ne_nil _ _
  | cons c rest =>
    unfold splitAtChar
    split
    · exact List.cons_ne_nil _ _
    · split <;> exact List.cons_ne_nil _ _

/-- The pieces of two texts with a separator between them. -/
theorem splitAtChar_separator (separator : Char) (before after : List Char) :
    splitAtChar separator (before ++ separator :: after) =
      splitAtChar separator before ++ splitAtChar separator after := by
  induction before with
  | nil =>
    show splitAtChar separator (separator :: after) = [] :: splitAtChar separator after
    rw [splitAtChar, if_pos rfl]
  | cons c rest ih =>
    rw [List.cons_append, splitAtChar, splitAtChar, ih]
    by_cases hc : c = separator
    · rw [if_pos hc, if_pos hc, List.cons_append]
    · rw [if_neg hc, if_neg hc]
      obtain ⟨piece, pieces, hpieces⟩ :=
        List.exists_cons_of_ne_nil (splitAtChar_ne_nil separator rest)
      rw [hpieces]
      rfl

/-- Pieces with a separator behind each are found again, in front of those of the rest. -/
theorem splitAtChar_flatMap_concat (h : ∀ piece ∈ pieces, separator ∉ piece) (rest : List Char) :
    splitAtChar separator (pieces.flatMap (· ++ [separator]) ++ rest) =
      pieces ++ splitAtChar separator rest := by
  induction pieces with
  | nil => rfl
  | cons piece later ih =>
    have hlater := ih fun p hp => h p (List.mem_cons_of_mem _ hp)
    rw [List.flatMap_cons, List.append_assoc, List.append_assoc, List.singleton_append,
      splitAtChar_separator, hlater, splitAtChar_of_not_mem (h piece List.mem_cons_self),
      List.singleton_append, List.cons_append]

/-! ## Paths -/

/-- A text is divided at its last slash in one way. -/
theorem append_slash_inj {before before' name name' : List Char}
    (h : before ++ '/' :: name = before' ++ '/' :: name') (hname : '/' ∉ name)
    (hname' : '/' ∉ name') : before = before' ∧ name = name' := by
  have hpieces := congrArg (splitAtChar '/') h
  rw [splitAtChar_separator, splitAtChar_separator, splitAtChar_of_not_mem hname,
    splitAtChar_of_not_mem hname'] at hpieces
  obtain rfl : name = name' := List.singleton_inj.1 (List.append_inj_right' hpieces rfl)
  exact ⟨List.append_cancel_right h, rfl⟩

theorem slashParts_ne_nil (path : String) : slashParts path ≠ [] :=
  mt List.map_eq_nil_iff.1 (splitAtChar_ne_nil '/' path.toList)

/-- The parts of two paths with a slash between them. -/
theorem slashParts_append (p q : String) :
    slashParts (p ++ "/" ++ q) = slashParts p ++ slashParts q := by
  have htext : (p ++ "/" ++ q).toList = p.toList ++ '/' :: q.toList := by
    simp only [String.toList_append, List.append_assoc]
    rfl
  unfold slashParts
  rw [htext, splitAtChar_separator, List.map_append]

theorem slashParts_of_not_mem {part : String} (hpart : '/' ∉ part.toList) :
    slashParts part = [part] := by
  unfold slashParts
  rw [splitAtChar_of_not_mem hpart, List.map_singleton, String.ofList_toList]

/-- Parts with slashes between them are divided again. -/
theorem slashParts_intercalate {parts : List String} (hparts : ∀ part ∈ parts, '/' ∉ part.toList)
    (hne : parts ≠ []) : slashParts ("/".intercalate parts) = parts := by
  induction parts with
  | nil => exact absurd rfl hne
  | cons part rest ih =>
    obtain ⟨hpart, hrest⟩ := List.forall_mem_cons.1 hparts
    by_cases hlast : rest = []
    · rw [hlast, String.intercalate_singleton, slashParts_of_not_mem hpart]
    · rw [String.intercalate_cons_of_ne_nil hlast, slashParts_append, ih hrest hlast,
        slashParts_of_not_mem hpart, List.singleton_append]

end ModuleBundler.Text
