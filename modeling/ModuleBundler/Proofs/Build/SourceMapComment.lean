import Mathlib.Data.List.Infix
import ModuleBundler.Build.SourceMapComment

/-!
# Text that no source map comment reaches

Dropping the comment that names a source map changes the end of a text.  What stands in front is
kept if no part of it, together with all that follows, could be such a comment.

* `isSourceMapTail_of_barred` — a text that has a double quote in it, or a closing brace behind a
  space, is no comment that names a source map;
* **`dropSourceMapComment_append`** — a text in front is kept when it is closed off from the comment
  (`ClosedOff`), and so is the line feed behind it.
-/

namespace ModuleBundler

open ModuleBundler.Text

/-! ## Text that is no comment -/

/-- A text has a double quote in it, or a closing brace behind a space. -/
def Barred (text : List Char) : Prop := '"' ∈ text ∨ [' ', '\x7d'] <:+: text

namespace Barred

variable {c : Char} {text : List Char} {p : Char → Bool}

theorem append_left (before : List Char) (h : Barred text) : Barred (before ++ text) :=
  h.imp (List.mem_append_right before) fun hinfix =>
    hinfix.trans (List.suffix_append before text).isInfix

theorem append_right (behind : List Char) (h : Barred text) : Barred (text ++ behind) :=
  h.imp (List.mem_append_left behind) fun hinfix =>
    hinfix.trans (List.prefix_append text behind).isInfix

theorem ne_nil (h : Barred text) : text ≠ [] := by
  rintro rfl
  rcases h with h | h
  · cases h
  · cases List.infix_nil.1 h

/-- What bars a text stands at its beginning or behind the first character. -/
theorem of_cons (h : Barred (c :: text)) :
    c = '"' ∨ (c = ' ' ∧ text.head? = some '\x7d') ∨ Barred text := by
  rcases h with hquote | hbrace
  · rcases List.mem_cons.1 hquote with rfl | hquote
    · exact Or.inl rfl
    · exact Or.inr (Or.inr (Or.inl hquote))
  · rcases List.infix_cons_iff.1 hbrace with hprefix | hinfix
    · obtain ⟨rest, hrest⟩ := hprefix
      obtain ⟨rfl, rfl⟩ := List.cons.inj hrest
      exact Or.inr (Or.inl ⟨rfl, rfl⟩)
    · exact Or.inr (Or.inr (Or.inr hinfix))

/-- A character that is neither a quote nor a space does not bar a text. -/
theorem tail (h : Barred (c :: text)) (hquote : c ≠ '"') (hspace : c ≠ ' ') : Barred text :=
  (h.of_cons.resolve_left hquote).resolve_left fun hbrace => hspace hbrace.1

theorem of_append {before : List Char} (hquote : '"' ∉ before) (hspace : ' ' ∉ before)
    (h : Barred (before ++ text)) : Barred text := by
  induction before with
  | nil => exact h
  | cons c before ih =>
    rw [List.mem_cons, not_or] at hquote hspace
    exact ih hquote.2 hspace.2 (h.tail (Ne.symm hquote.1) (Ne.symm hspace.1))

/-- Passing characters that are neither quotes nor spaces leaves a text barred. -/
theorem dropWhile_solid (hquote : p '"' = false) (hspace : p ' ' = false) (h : Barred text) :
    Barred (text.dropWhile p) := by
  induction text with
  | nil => exact h
  | cons c text ih =>
    rw [List.dropWhile_cons]
    split
    · rename_i hc
      refine ih (h.tail ?_ ?_)
      · rintro rfl
        rw [hquote] at hc
        cases hc
      · rintro rfl
        rw [hspace] at hc
        cases hc
    · exact h

/-- Passing blanks leaves a text barred, or leads to the brace. -/
theorem dropWhile_blank (hquote : p '"' = false) (hbrace : p '\x7d' = false) (h : Barred text) :
    Barred (text.dropWhile p) ∨ (text.dropWhile p).head? = some '\x7d' := by
  induction text with
  | nil => exact Or.inl h
  | cons c text ih =>
    rw [List.dropWhile_cons]
    split
    · rename_i hc
      rcases h.of_cons with rfl | ⟨-, hhead⟩ | hrest
      · rw [hquote] at hc
        cases hc
      · right
        cases text with
        | nil => cases hhead
        | cons d text =>
          cases hhead
          rw [List.dropWhile_cons_of_neg (by rw [hbrace]; exact Bool.false_ne_true)]
          rfl
      · exact ih hrest
    · exact Or.inl h

theorem dropLineEnd (h : Barred text) : Barred (dropLineEnd text) := by
  unfold ModuleBundler.dropLineEnd
  split
  · exact (h.tail (by decide) (by decide)).tail (by decide) (by decide)
  · exact h.tail (by decide) (by decide)
  · exact h

end Barred

/-- What follows some characters of a text is the rest of it. -/
theorem eq_of_afterText {beginning text rest : List Char}
    (h : afterText beginning text = some rest) : text = beginning ++ rest := by
  unfold afterText at h
  split at h
  · rename_i hprefix
    obtain ⟨behind, rfl⟩ := List.isPrefixOf_iff_prefix.1 hprefix
    rw [List.drop_left, Option.some.injEq] at h
    rw [h]
  · cases h

/-- Behind blanks, the words that name a source map leave a text barred. -/
theorem Barred.afterWords {text address : List Char} (h : Barred text)
    (haddress : afterText sourceMapWords (text.dropWhile isLineBlank) = some address) :
    Barred address := by
  have hwords := h.dropWhile_blank (p := isLineBlank) (by decide) (by decide)
  rw [eq_of_afterText haddress] at hwords
  rcases hwords with hbarred | hhead
  · exact hbarred.of_append (by decide) (by decide)
  · cases hhead

/-- A barred text is not an address with blanks behind it. -/
theorem Barred.address_ne_nil {text : List Char} (h : Barred text) :
    (text.dropWhile isAddressChar).dropWhile isBlank ≠ [] := by
  have haddress := h.dropWhile_solid (p := isAddressChar) (by decide) (by decide)
  rcases haddress.dropWhile_blank (p := isBlank) (by decide) (by decide) with hbarred | hhead
  · exact hbarred.ne_nil
  · intro hnil
    rw [hnil] at hhead
    cases hhead

/-- A text with a double quote, or with a closing brace behind a space, is no comment that names a
source map. -/
theorem isSourceMapTail_of_barred {text : List Char} (h : Barred text) :
    isSourceMapTail text = false := by
  unfold isSourceMapTail
  have hopened := h.dropLineEnd.dropWhile_blank (p := isLineBlank) (by decide) (by decide)
  split
  · rename_i mark rest heq
    rw [heq] at hopened
    have hmark : Barred (mark :: rest) := by
      rcases hopened with hbarred | hhead
      · exact (hbarred.tail (by decide) (by decide)).tail (by decide) (by decide)
      · cases hhead
    rw [Bool.and_eq_false_iff, or_iff_not_imp_left, Bool.not_eq_false]
    intro hmarked
    have hrest : Barred rest := by
      simp only [Bool.or_eq_true, beq_iff_eq] at hmarked
      rcases hmarked with rfl | rfl <;> exact hmark.tail (by decide) (by decide)
    split
    · rename_i address haddress
      rw [List.isEmpty_eq_false_iff]
      exact (hrest.afterWords haddress).address_ne_nil
    · rfl
  · rfl

/-! ## Text in front of a comment -/

/-- No part of a text, together with what follows, is a comment that names a source map. -/
def ClosedOff (text : List Char) : Prop :=
  ∀ part, part ≠ [] → part <:+ text → ∀ more, isSourceMapTail (part ++ more) = false

/-- A text that begins with none of these characters is no comment that names a source map. -/
theorem isSourceMapTail_of_head {c : Char} (h : c ∉ ['\r', '\n', ' ', '\t', '/'])
    (rest : List Char) : isSourceMapTail (c :: rest) = false := by
  simp only [List.mem_cons, List.not_mem_nil, or_false, not_or] at h
  obtain ⟨hreturn, hfeed, hspace, htab, hslash⟩ := h
  have hline : dropLineEnd (c :: rest) = c :: rest := by
    unfold dropLineEnd
    split
    · rename_i heq
      exact absurd (List.cons.inj heq).1 hreturn
    · rename_i heq
      exact absurd (List.cons.inj heq).1 hfeed
    · rfl
  have hblank : ¬ isLineBlank c = true := by
    unfold isLineBlank
    simp only [Bool.or_eq_true, beq_iff_eq, not_or]
    exact ⟨hspace, htab⟩
  unfold isSourceMapTail
  rw [hline, List.dropWhile_cons_of_neg hblank]
  split
  · rename_i heq
    exact absurd (List.cons.inj heq).1 hslash
  · rfl

/-- A text is closed off, and shields what is in front of it as well. -/
structure Shields (text : List Char) : Prop where
  closedOff : ClosedOff text
  barred : Barred text

/-- Text in front of a shield is shielded with it. -/
theorem Shields.append_left {text : List Char} (h : Shields text) (before : List Char) :
    Shields (before ++ text) := by
  refine ⟨?_, h.barred.append_left before⟩
  intro part hne hpart more
  rcases List.suffix_or_suffix_of_suffix hpart (List.suffix_append before text) with
    hshort | ⟨front, rfl⟩
  · exact h.closedOff part hne hshort more
  · exact isSourceMapTail_of_barred ((h.barred.append_left front).append_right more)

/-- An end in which no comment begins is a shield together with what bars a comment in front of
it. -/
theorem shields_cons {c : Char} {stop : List Char} (hbarred : Barred (c :: stop))
    (hstop : ∀ d ∈ stop, d ∉ ['\r', '\n', ' ', '\t', '/']) : Shields (c :: stop) := by
  refine ⟨?_, hbarred⟩
  intro part hne hpart more
  rcases List.suffix_cons_iff.1 hpart with rfl | hstops
  · exact isSourceMapTail_of_barred (hbarred.append_right more)
  · cases part with
    | nil => exact absurd rfl hne
    | cons d part => exact isSourceMapTail_of_head (hstop d (hstops.subset List.mem_cons_self)) _

/-- A text that is closed off is kept, and so is the line feed behind it. -/
theorem dropSourceMapComment_append {text : List Char} (h : ClosedOff text) (more : List Char) :
    ∃ kept, dropSourceMapComment (text ++ '\n' :: more) = text ++ '\n' :: kept := by
  induction text with
  | nil =>
    rw [List.nil_append]
    unfold dropSourceMapComment
    split
    · exact ⟨[], rfl⟩
    · exact ⟨_, rfl⟩
  | cons c text ih =>
    obtain ⟨kept, hkept⟩ := ih fun part hne hsuffix =>
      h part hne (hsuffix.trans (List.suffix_cons c text))
    refine ⟨kept, ?_⟩
    have hwhole := h (c :: text) (List.cons_ne_nil c text) (List.suffix_refl _) ('\n' :: more)
    rw [List.cons_append] at hwhole ⊢
    unfold dropSourceMapComment
    rw [hwhole, hkept]
    rfl

end ModuleBundler
