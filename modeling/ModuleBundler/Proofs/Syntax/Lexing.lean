import ModuleBundler.Proofs.Syntax.Reading

/-!
# Where tokens are

Every reader leaves the cursor at the place where it found it or further on in the same text
(`Cursor.Reaches`).  So a token stands between two cursors (`Token.Between`), and tokens follow each
other.

* `reaches_readKind` — what is read at a character passes it;
* **`between_read`**, `between_readRegex`, `between_readTemplateTail` — a token that is read, or read
  again, stands behind the cursor;
* `namesTo_readName` — what is passed for a name are characters that can stand in one (`Cursor.NamesTo`).
-/

namespace ModuleBundler.Syntax

open Text

/-! ## Cursors -/

/-- A cursor is reached from another one by passing characters. -/
structure Cursor.Reaches (c d : Cursor) : Prop where
  offset_le : c.offset ≤ d.offset
  /-- Both cursors are in the same text. -/
  total_eq : d.offset + d.rest.length = c.offset + c.rest.length
  rest_eq : d.rest = c.rest.drop (d.offset - c.offset)

namespace Cursor.Reaches

variable {c d e : Cursor}

theorem refl (c : Cursor) : Reaches c c := ⟨Nat.le_refl _, rfl, by rw [Nat.sub_self, List.drop_zero]⟩

theorem trans (h : Reaches c d) (h' : Reaches d e) : Reaches c e := by
  refine ⟨Nat.le_trans h.offset_le h'.offset_le, h'.total_eq.trans h.total_eq, ?_⟩
  have hle := h.offset_le
  have hle' := h'.offset_le
  rw [h'.rest_eq, h.rest_eq, List.drop_drop]
  congr 1
  omega

theorem skip {n : Nat} (h : n ≤ c.rest.length) : Reaches c (c.skip n) := by
  refine ⟨Nat.le_add_right _ _, ?_, ?_⟩
  · show c.offset + n + (c.rest.drop n).length = c.offset + c.rest.length
    rw [List.length_drop]
    omega
  · show c.rest.drop n = c.rest.drop (c.offset + n - c.offset)
    rw [Nat.add_sub_cancel_left]

theorem skip_one {x : Char} {rest : List Char} (h : c.rest = x :: rest) : Reaches c (c.skip 1) :=
  skip (by rw [h, List.length_cons]; exact Nat.le_add_left _ _)

/-- One character is passed. -/
theorem cons (x : Char) (rest : List Char) (n : Nat) : Reaches ⟨x :: rest, n⟩ ⟨rest, n + 1⟩ :=
  skip_one rfl

theorem cons_cons (x y : Char) (rest : List Char) (n : Nat) :
    Reaches ⟨x :: y :: rest, n⟩ ⟨rest, n + 2⟩ := (cons x (y :: rest) n).trans (cons y rest (n + 1))

theorem of_head {x : Char} (h : (c.rest.head? == some x) = true) : Reaches c (c.skip 1) := by
  cases hrest : c.rest with
  | nil =>
    rw [hrest] at h
    cases h
  | cons y rest => exact skip_one hrest

theorem of_startsWith {text : List Char} (h : c.startsWith text = true) :
    Reaches c (c.skip text.length) :=
  skip (List.isPrefixOf_iff_prefix.1 h).length_le

theorem skipWhile (p : Char → Bool) (c : Cursor) : Reaches c (c.skipWhile p) := by
  have hgo : ∀ rest n, Reaches ⟨rest, n⟩ (Cursor.skipWhile.go p rest n) := by
    intro rest n
    induction rest generalizing n with
    | nil => exact refl _
    | cons x rest ih =>
      unfold Cursor.skipWhile.go
      split
      · exact (cons x rest n).trans (ih (n + 1))
      · exact refl _
  exact hgo c.rest c.offset

/-- A character that satisfies `p` is passed. -/
theorem skip_one_skipWhile {p : Char → Bool} {x : Char} {rest : List Char} (hrest : c.rest = x :: rest)
    (hx : p x = true) : Reaches (c.skip 1) (c.skipWhile p) := by
  obtain ⟨text, n⟩ := c
  cases hrest
  unfold Cursor.skipWhile Cursor.skipWhile.go
  rw [if_pos hx]
  exact skipWhile p ⟨rest, n + 1⟩

theorem ite_snd {α : Type} {p : Prop} [Decidable p] {x y : α × Cursor} (hx : p → Reaches c x.2)
    (hy : ¬ p → Reaches c y.2) : Reaches c (if p then x else y).2 := by
  split
  · exact hx ‹p›
  · exact hy ‹¬ p›

end Cursor.Reaches

/-- A character that names are written with; an escape has a backslash, and can have braces. -/
def isNamePart (c : Char) : Bool :=
  continuesIdentifier c || c == '\\' || c == '\x7b' || c == '\x7d'

/-- A cursor is reached by passing characters of names. -/
structure Cursor.NamesTo (c d : Cursor) : Prop extends c.Reaches d where
  passed : ∀ x ∈ c.rest.take (d.offset - c.offset), isNamePart x = true

namespace Cursor.NamesTo

variable {c d e : Cursor}

theorem refl (c : Cursor) : NamesTo c c := by
  refine ⟨.refl c, fun x hx => ?_⟩
  rw [Nat.sub_self, List.take_zero] at hx
  cases hx

theorem trans (h : NamesTo c d) (h' : NamesTo d e) : NamesTo c e := by
  refine ⟨h.toReaches.trans h'.toReaches, fun x hx => ?_⟩
  have hsum : e.offset - c.offset = (d.offset - c.offset) + (e.offset - d.offset) := by
    have hle := h.offset_le
    have hle' := h'.offset_le
    omega
  rw [hsum, List.take_add, ← h.rest_eq] at hx
  exact (List.mem_append.1 hx).elim (h.passed x) (h'.passed x)

theorem skip_one {x : Char} {rest : List Char} (h : c.rest = x :: rest) (hx : isNamePart x = true) :
    NamesTo c (c.skip 1) := by
  refine ⟨.skip_one h, fun y hy => ?_⟩
  have hone : (c.skip 1).offset - c.offset = 1 := Nat.add_sub_cancel_left c.offset 1
  rw [hone, h, List.take_succ_cons, List.take_zero] at hy
  rw [List.mem_singleton.1 hy]
  exact hx

theorem of_head {x : Char} (h : (c.rest.head? == some x) = true) (hx : isNamePart x = true) :
    NamesTo c (c.skip 1) := by
  cases hrest : c.rest with
  | nil =>
    rw [hrest] at h
    cases h
  | cons y rest =>
    rw [hrest, List.head?_cons, beq_iff_eq] at h
    obtain rfl := Option.some.inj h
    exact skip_one hrest hx

/-- Every character that is passed is one of a name. -/
theorem getElem? (h : NamesTo c d) {k : Nat} (hlo : c.offset ≤ k) (hhi : k < d.offset) :
    ∃ x, c.rest[k - c.offset]? = some x ∧ isNamePart x = true := by
  have hlt : k - c.offset < c.rest.length := by
    have htotal := h.total_eq
    omega
  refine ⟨_, List.getElem?_eq_getElem hlt, h.passed _ ?_⟩
  refine List.mem_take_iff_getElem.2 ⟨k - c.offset, ?_, rfl⟩
  omega

end Cursor.NamesTo

open Cursor

/-! ## White space and comments -/

theorem skipTrivia_reaches (mode : TriviaMode) (newline : Bool) (opened : Option Nat)
    (comment : Option Span) (text : List Char) (n : Nat) :
    Reaches ⟨text, n⟩ (skipTrivia mode newline opened comment text n).cursor := by
  fun_induction skipTrivia mode newline opened comment text n
  all_goals first
    | exact .refl _
    | exact (Reaches.cons_cons _ _ _ _).trans ‹_›
    | exact (Reaches.cons _ _ _).trans ‹_›

/-! ## Escapes -/

theorem continuesIdentifier_of_hexValue {x : Char} {v : Nat} (h : hexValue? x = some v) :
    continuesIdentifier x = true := by
  have hform : (isLatinLetter x = true ∨ isDigit x = true) ∧ x.toNat < 0x80 := by
    show _ ∧ x.val.toNat < 0x80
    unfold hexValue? at h
    unfold isLatinLetter
    unfold isDigit at h ⊢
    simp only [Bool.and_eq_true, Bool.or_eq_true, decide_eq_true_eq, Char.le_def,
      UInt32.le_iff_toNat_le, Char.reduceVal, UInt32.reduceToNat] at h ⊢
    split_ifs at h <;> omega
  unfold continuesIdentifier
  rw [if_pos hform.2]
  rcases hform.1 with hletter | hdigit
  · rw [hletter, Bool.true_or, Bool.true_or, Bool.true_or]
  · rw [hdigit, Bool.or_true, Bool.true_or, Bool.true_or]

/-- A digit of an escape is written in names. -/
theorem isNamePart_of_hexValue {x : Char} {v : Nat} (h : hexValue? x = some v) :
    isNamePart x = true := by
  unfold isNamePart
  rw [continuesIdentifier_of_hexValue h, Bool.true_or, Bool.true_or, Bool.true_or]

theorem readHexDigits_namesTo (n value : Nat) (c : Cursor) :
    c.NamesTo (readHexDigits n value c).2 := by
  induction n generalizing value c with
  | zero => exact .refl c
  | succ n ih =>
    unfold readHexDigits
    split
    · rename_i hdigit
      cases hrest : c.rest with
      | nil =>
        rw [hrest] at hdigit
        cases hdigit
      | cons x rest =>
        rw [hrest] at hdigit
        exact (NamesTo.skip_one hrest (isNamePart_of_hexValue hdigit)).trans (ih _ _)
    · exact .refl c

theorem readCodePointDigits_namesTo (value : Nat) (text : List Char) (n : Nat) :
    NamesTo ⟨text, n⟩ (readCodePointDigits value text n).2 := by
  induction text generalizing value n with
  | nil => exact .refl _
  | cons x rest ih =>
    have hone {v : Nat} (h : hexValue? x = some v) : NamesTo ⟨x :: rest, n⟩ ⟨rest, n + 1⟩ :=
      .skip_one rfl (isNamePart_of_hexValue h)
    unfold readCodePointDigits
    split
    · rename_i hdigit
      split
      · exact hone hdigit
      · exact (hone hdigit).trans (ih _ _)
    · exact .refl _

theorem readBracedCodePoint_namesTo {c : Cursor} (h : (c.rest.head? == some '\x7b') = true) :
    c.NamesTo (readBracedCodePoint c).2 := by
  have hopen := NamesTo.of_head h rfl
  unfold readBracedCodePoint
  dsimp only
  split
  · exact hopen
  · have hdigits := readCodePointDigits_namesTo 0 (c.skip 1).rest (c.skip 1).offset
    split
    · rename_i hread
      rw [hread] at hdigits
      exact hopen.trans hdigits
    · rename_i hread
      rw [hread] at hdigits
      split
      · rename_i hclose
        exact (hopen.trans hdigits).trans (.of_head hclose rfl)
      · exact hopen.trans hdigits

/-- A backslash and the letter behind it are passed. -/
theorem namesTo_of_startsWith {c : Cursor} (h : c.startsWith ['\\', 'u'] = true) :
    c.NamesTo (c.skip 2) := by
  obtain ⟨rest, hrest⟩ := List.isPrefixOf_iff_prefix.1 h
  refine ⟨.of_startsWith h, fun x hx => ?_⟩
  have htwo : (c.skip 2).offset - c.offset = 2 := Nat.add_sub_cancel_left c.offset 2
  rw [htwo, ← hrest] at hx
  have hparts : ['\\', 'u'].all isNamePart = true := rfl
  exact List.all_eq_true.1 hparts x hx

theorem readUnicodeEscape_namesTo (pairs : Bool) (c : Cursor) :
    c.NamesTo (readUnicodeEscape pairs c).2 := by
  unfold readUnicodeEscape
  split
  · rename_i hopen
    exact readBracedCodePoint_namesTo hopen
  · have hfirst := readHexDigits_namesTo 4 0 c
    split
    · rename_i hread
      rw [hread] at hfirst
      exact hfirst
    · rename_i after hread
      rw [hread] at hfirst
      split
      · rename_i hpair
        have hletters : after.NamesTo (after.skip 2) :=
          namesTo_of_startsWith (Bool.and_eq_true_iff.1 hpair).2
        have hsecond := readHexDigits_namesTo 4 0 (after.skip 2)
        split
        · rename_i hread
          rw [hread] at hsecond
          exact (hfirst.trans hletters).trans hsecond
        · rename_i hread
          rw [hread] at hsecond
          split
          · exact (hfirst.trans hletters).trans hsecond
          · exact hfirst
      · exact hfirst

/-! ## Names -/

/-- A backslash and a character of a name are passed. -/
theorem namesTo_readName_succ {fuel : Nat} {start escaped : Bool} {chars : List Char}
    {faults : List Fault} {c : Cursor} {d : Char} {rest : List Char}
    (hfuel : ∀ start escaped chars faults c,
      NamesTo c (readName fuel start escaped chars faults c).next)
    (hrest : c.rest = d :: rest) (h : d = '\\' ∨ continuesIdentifier d = true) :
    (c.skip 1).NamesTo (readName (fuel + 1) start escaped chars faults c).next := by
  unfold readName
  split
  · dsimp only
    split
    · rename_i hletter
      have hescape := (NamesTo.of_head hletter rfl).trans
        (readUnicodeEscape_namesTo false ((c.skip 1).skip 1))
      split
      · rename_i hread
        rw [hread] at hescape
        exact hescape.trans (hfuel _ _ _ _ _)
      · rename_i hread
        rw [hread] at hescape
        split
        · exact hescape.trans (hfuel _ _ _ _ _)
        · split <;> split <;> exact hescape.trans (hfuel _ _ _ _ _)
    · exact hfuel _ _ _ _ _
  · rename_i hslash heq
    rw [hrest] at heq
    obtain ⟨rfl, -⟩ := List.cons.inj heq
    rcases h with rfl | h
    · exact absurd rfl hslash
    · rw [if_pos h]
      exact hfuel _ _ _ _ _
  · rename_i heq
    rw [hrest] at heq
    cases heq

/-- A backslash, and a character that continues names, are written in names. -/
theorem isNamePart_of_first {d : Char} (h : d = '\\' ∨ continuesIdentifier d = true) :
    isNamePart d = true := by
  rcases h with rfl | h
  · rfl
  · unfold isNamePart
    rw [h, Bool.true_or, Bool.true_or, Bool.true_or]

theorem readName_namesTo (fuel : Nat) (start escaped : Bool) (chars : List Char)
    (faults : List Fault) (c : Cursor) :
    c.NamesTo (readName fuel start escaped chars faults c).next := by
  induction fuel generalizing start escaped chars faults c with
  | zero => exact .refl c
  | succ fuel ih =>
    cases hrest : c.rest with
    | nil =>
      unfold readName
      rw [hrest]
      exact .refl c
    | cons d rest =>
      by_cases h : d = '\\' ∨ continuesIdentifier d = true
      · exact (NamesTo.skip_one hrest (isNamePart_of_first h)).trans
          (namesTo_readName_succ ih hrest h)
      · rw [not_or] at h
        unfold readName
        split
        · rename_i heq
          rw [hrest] at heq
          exact absurd (List.cons.inj heq).1 h.1
        · rename_i heq
          rw [hrest] at heq
          obtain ⟨rfl, -⟩ := List.cons.inj heq
          rw [if_neg h.2]
          exact .refl c
        · exact .refl c

/-- A character that begins a name, or an escape in its place. -/
theorem continues_of_begins {d : Char} (h : (startsIdentifier d || d == '\\') = true) :
    d = '\\' ∨ continuesIdentifier d = true := by
  rcases Bool.or_eq_true_iff.1 h with h | h
  · exact Or.inr (continuesIdentifier_of_startsIdentifier h)
  · exact Or.inl (beq_iff_eq.1 h)

/-- The first character of a name is passed. -/
theorem namesTo_readName {fuel : Nat} {c : Cursor} {d : Char} {rest : List Char} (hfuel : 0 < fuel)
    (hrest : c.rest = d :: rest) (h : (startsIdentifier d || d == '\\') = true) :
    (c.skip 1).NamesTo (readName fuel true false [] [] c).next := by
  obtain ⟨fuel, rfl⟩ := Nat.exists_eq_succ_of_ne_zero (Nat.ne_of_gt hfuel)
  exact namesTo_readName_succ (readName_namesTo fuel) hrest (continues_of_begins h)

/-! ## Numbers -/

theorem readMoreDigits_reaches (isDigitHere : Char → Bool) (text : List Char) (n : Nat) :
    Reaches ⟨text, n⟩ (readMoreDigits isDigitHere text n).1 := by
  fun_induction readMoreDigits isDigitHere text n
  all_goals first
    | exact .refl _
    | exact .cons _ _ _
    | exact (Reaches.cons_cons _ _ _ _).trans ‹_›
    | exact (Reaches.cons _ _ _).trans ‹_›

theorem readDigits_reaches (isDigitHere : Char → Bool) (c : Cursor) :
    c.Reaches (readDigits isDigitHere c).1 := by
  obtain ⟨text, n⟩ := c
  unfold readDigits
  split
  · rename_i x rest htext
    cases htext
    split
    · exact (Reaches.cons x rest n).trans (readMoreDigits_reaches _ _ _)
    · exact .refl _
  · exact .refl _

theorem readExponent_reaches (c : Cursor) : c.Reaches (readExponent c).2.1 := by
  have hsigned : ∀ c : Cursor, c.Reaches (readDigits isDigit
      (if c.rest.head? == some '+' || c.rest.head? == some '-' then c.skip 1 else c)).1 := by
    intro c
    split
    · rename_i hsign
      rcases Bool.or_eq_true_iff.1 hsign with hsign | hsign
      · exact (Reaches.of_head hsign).trans (readDigits_reaches _ _)
      · exact (Reaches.of_head hsign).trans (readDigits_reaches _ _)
    · exact readDigits_reaches _ _
  unfold readExponent
  split
  · rename_i hrest
    exact (Reaches.skip_one hrest).trans (hsigned _)
  · rename_i hrest
    exact (Reaches.skip_one hrest).trans (hsigned _)
  · exact .refl c

theorem endNumber_reaches (start : Cursor) (form : NumberForm) (faults : List Fault) (c : Cursor) :
    c.Reaches (endNumber start form faults c).next := by
  unfold endNumber
  split
  · rename_i hrest
    split
    · exact (Reaches.skip_one hrest).trans (.skipWhile _ _)
    · exact .refl c
  · exact .refl c

theorem readFraction_reaches (start c : Cursor) (needsDigit : Bool) :
    c.Reaches (readFraction start c needsDigit).next := by
  have hbehind : ∀ {digits : Cursor × List Fault}, c.Reaches digits.1 → c.Reaches
      (endNumber start .float (digits.2 ++ (readExponent digits.1).2.2)
        (readExponent digits.1).2.1).next := fun h =>
    (h.trans (readExponent_reaches _)).trans (endNumber_reaches _ _ _ _)
  refine hbehind ?_
  split
  · rename_i hrest
    split
    · exact readDigits_reaches _ _
    · split
      · exact .skip_one hrest
      · exact .refl c
  · split
    · exact readDigits_reaches _ _
    · exact .refl c

theorem reaches_readBased {start : Cursor} {x y : Char} {rest : List Char}
    (h : start.rest = x :: y :: rest) (form : NumberForm) (isDigitHere : Char → Bool) :
    (start.skip 1).Reaches (readBased start form isDigitHere).next := by
  have hletter : (start.skip 1).Reaches (start.skip 2) := by
    unfold Cursor.skip
    rw [h]
    exact .cons y rest (start.offset + 1)
  unfold readBased
  dsimp only
  split
  · rename_i d more hrest
    split
    · have hdigits : (start.skip 2).Reaches
          (readMoreDigits isDigitHere more ((start.skip 2).offset + 1)).1 := by
        have hfirst : (start.skip 2).Reaches ⟨more, (start.skip 2).offset + 1⟩ := by
          have hcons := Reaches.cons d more (start.skip 2).offset
          rw [← hrest] at hcons
          exact hcons
        exact hfirst.trans (readMoreDigits_reaches _ _ _)
      split
      · exact hletter.trans hdigits
      · split
        · rename_i hbig
          exact ((hletter.trans hdigits).trans (.of_head hbig)).trans (endNumber_reaches _ _ _ _)
        · exact (hletter.trans hdigits).trans (endNumber_reaches _ _ _ _)
    · exact hletter
  · exact hletter

theorem readLegacyOctal_reaches (start : Cursor) :
    (start.skipWhile isDigit).Reaches (readLegacyOctal start).next := by
  unfold readLegacyOctal
  dsimp only
  split
  · split
    · rename_i hrest
      exact (Reaches.skip_one hrest).trans (readFraction_reaches _ _ _)
    · exact (readExponent_reaches _).trans (endNumber_reaches _ _ _ _)
    · exact endNumber_reaches _ _ _ _
  · exact endNumber_reaches _ _ _ _

theorem readDecimal_reaches (start : Cursor) (integral : Cursor × List Fault) :
    integral.1.Reaches (readNumber.readDecimal start integral).next := by
  unfold readNumber.readDecimal
  dsimp only
  split
  · rename_i hrest
    exact (Reaches.skip_one hrest).trans (readFraction_reaches _ _ _)
  · rename_i hrest
    exact (Reaches.skip_one hrest).trans (endNumber_reaches _ _ _ _)
  · exact (readExponent_reaches _).trans (endNumber_reaches _ _ _ _)

/-- The first digit of a number is passed. -/
theorem reaches_readNumber {c : Cursor} {x : Char} {rest : List Char} (hrest : c.rest = x :: rest)
    (hx : isDigit x = true) : (c.skip 1).Reaches (readNumber c).next := by
  have hone : c.skip 1 = ⟨rest, c.offset + 1⟩ := by
    unfold Cursor.skip
    rw [hrest]
    rfl
  unfold readNumber
  split
  case h_7 d more _ _ _ _ _ _ heq =>
    rw [hrest] at heq
    obtain ⟨rfl, rfl⟩ := List.cons.inj heq
    split
    · exact (Reaches.skip_one_skipWhile hrest hx).trans (readLegacyOctal_reaches c)
    · rw [hone]
      exact readDecimal_reaches c (⟨d :: more, c.offset + 1⟩, [])
  case h_8 =>
    have hdigits : (c.skip 1).Reaches (readDigits isDigit c).1 := by
      unfold readDigits
      rw [hrest]
      dsimp only
      rw [if_pos hx, hone]
      exact readMoreDigits_reaches _ _ _
    exact hdigits.trans (readDecimal_reaches c _)
  all_goals
    rename_i heq
    exact reaches_readBased heq _ _

/-! ## Strings and templates -/

theorem readOctalEscape_reaches (c : Cursor) : c.Reaches (readOctalEscape c).2 := by
  unfold readOctalEscape
  exact .skip (Nat.le_trans (List.takeWhile_prefix _).length_le (List.length_take_le' _ _))

theorem readEscape_reaches (inTemplate : Bool) (c : Cursor) :
    c.Reaches (readEscape inTemplate c).2 := by
  unfold readEscape
  dsimp only
  split
  · exact .refl c
  rename_i d rest hrest
  have hone : c.Reaches (c.skip 1) := .skip_one hrest
  have hhex := hone.trans ((readHexDigits_namesTo 2 0 (c.skip 1)).toReaches)
  have hunicode := hone.trans ((readUnicodeEscape_namesTo true (c.skip 1)).toReaches)
  have hoctal := readOctalEscape_reaches c
  -- a line end can be two characters
  refine .ite_snd (fun _ => ?_) fun _ => ?_
  · split
    · rename_i hfeed
      exact hone.trans (.of_head hfeed)
    · exact hone
  iterate 7 refine .ite_snd (fun _ => hone) fun _ => ?_
  refine .ite_snd (fun _ => ?_) fun _ => .ite_snd (fun _ => ?_) fun _ => ?_
  · split <;> rename_i hread <;> rw [hread] at hhex <;> exact hhex
  · split <;> rename_i hread <;> rw [hread] at hunicode <;> exact hunicode
  iterate 2 refine .ite_snd (fun _ => hone) fun _ => ?_
  exact .ite_snd (fun _ => hoctal) fun _ => hone

theorem readString_reaches (fuel : Nat) (body : Cursor) (quote : Char) (units : List StringUnit)
    (faults : List Fault) (c : Cursor) :
    c.Reaches (readString fuel body quote units faults c).next := by
  induction fuel generalizing units faults c with
  | zero => exact .refl c
  | succ fuel ih =>
    unfold readString
    dsimp only
    split
    · exact .refl c
    rename_i hrest
    have hone : c.Reaches (c.skip 1) := .skip_one hrest
    split
    · exact hone
    split
    · exact hone
    split
    · have hescape := hone.trans (readEscape_reaches false (c.skip 1))
      split
      · rename_i hread
        rw [hread] at hescape
        exact hescape.trans (ih _ _ _)
      · rename_i hread
        rw [hread] at hescape
        exact hescape.trans (ih _ _ _)
    · exact hone.trans (ih _ _ _)

theorem readTemplate_reaches (fuel start : Nat) (body : Cursor) (closed opened : TemplatePart)
    (valid : Bool) (c : Cursor) :
    c.Reaches (readTemplate fuel start body closed opened valid c).next := by
  induction fuel generalizing valid c with
  | zero => exact .refl c
  | succ fuel ih =>
    unfold readTemplate
    split
    · exact .refl c
    · rename_i hrest
      exact .skip_one hrest
    · rename_i hrest
      exact .skip (by rw [hrest, List.length_cons, List.length_cons]; omega)
    · rename_i hrest
      exact ((Reaches.skip_one hrest).trans (readEscape_reaches true _)).trans (ih _ _)
    · rename_i hrest
      exact (Reaches.skip_one hrest).trans (ih _ _)

/-! ## Regular expressions -/

theorem endOfPattern_reaches {escaped inClass : Bool} {text : List Char} {n : Nat} {close : Cursor}
    (h : endOfPattern escaped inClass text n = some close) :
    Reaches ⟨text, n⟩ close ∧ Reaches close (close.skip 1) := by
  induction text generalizing escaped inClass n with
  | nil => cases h
  | cons x rest ih =>
    have hrest : ∀ {escaped inClass}, endOfPattern escaped inClass rest (n + 1) = some close →
        Reaches ⟨x :: rest, n⟩ close ∧ Reaches close (close.skip 1) :=
      fun h => (ih h).imp_left (Reaches.cons x rest n).trans
    unfold endOfPattern at h
    split at h
    · cases h
    split at h
    · exact hrest h
    split at h
    · cases h
      exact ⟨.refl _, .skip_one rfl⟩
    split at h
    · exact hrest h
    split at h <;> exact hrest h

theorem readRegexBody_reaches (start : Nat) (c : Cursor) :
    c.Reaches (readRegexBody start c).next := by
  unfold readRegexBody
  split
  · exact .skipWhile _ _
  · rename_i hclose
    obtain ⟨hpattern, hslash⟩ := endOfPattern_reaches hclose
    exact (hpattern.trans hslash).trans (.skipWhile _ _)

/-! ## Tokens -/

theorem reaches_punctAt? {c : Cursor} {p : Punct} (h : punctAt? c = some p) :
    (c.skip 1).Reaches (c.skip p.text.length) := by
  have hone : 1 ≤ p.text.length := by
    cases p <;> decide
  unfold punctAt? at h
  have hfound := List.find?_some h
  have hlength := (List.isPrefixOf_iff_prefix.1 (Bool.and_eq_true_iff.1 hfound).1).length_le
  rw [String.length_toList] at hlength
  refine ⟨Nat.add_le_add_left hone c.offset, ?_, ?_⟩
  · show c.offset + p.text.length + (c.rest.drop p.text.length).length =
      c.offset + 1 + (c.rest.drop 1).length
    rw [List.length_drop, List.length_drop]
    omega
  · show c.rest.drop p.text.length =
      (c.rest.drop 1).drop (c.offset + p.text.length - (c.offset + 1))
    rw [List.drop_drop]
    congr 1
    omega

/-- The first character at a cursor is passed. -/
theorem reaches_readKind {fuel : Nat} {c : Cursor} {d : Char} {rest : List Char} (hfuel : 0 < fuel)
    (hrest : c.rest = d :: rest) : (c.skip 1).Reaches (readKind fuel c).next := by
  unfold readKind
  split
  · rename_i heq
    rw [hrest] at heq
    cases heq
  rename_i heq
  rw [hrest] at heq
  obtain ⟨rfl, rfl⟩ := List.cons.inj heq
  split
  · exact readString_reaches _ _ _ _ _ _
  split
  · exact readTemplate_reaches _ _ _ _ _ _ _
  split
  · exact reaches_readNumber hrest ‹_›
  split
  · exact readFraction_reaches _ _ _
  split
  · rename_i hsign
    have hline : (!isLineTerminator d) = true := by
      rw [beq_iff_eq.1 hsign]
      rfl
    split
    · exact .skip_one_skipWhile hrest hline
    · dsimp only
      split
      · exact (readName_namesTo _ _ _ _ _ _).toReaches
      · exact .refl _
  split
  · exact (namesTo_readName hfuel hrest ‹_›).toReaches
  · split
    · exact reaches_punctAt? ‹_›
    · exact .refl _

/-- A token of this kind stands for characters that the grammar passes only once. -/
def Token.Kind.IsSolid : Token.Kind → Prop
  | .word .. | .punct _ => True
  | _ => False

/-- A token stands between two cursors in the same text. -/
structure Token.Between (c : Cursor) (t : Token) (d : Cursor) : Prop where
  offset_le : c.offset ≤ t.span.start
  le_stop : t.span.start ≤ t.span.stop
  stop_eq : t.span.stop = d.offset
  reaches : c.Reaches d
  /-- Words and punctuators have characters. -/
  lt_stop : t.kind.IsSolid → t.span.start < t.span.stop

theorem Token.Between.total_eq {c d : Cursor} {t : Token} (h : t.Between c d) :
    d.offset + d.rest.length = c.offset + c.rest.length := h.reaches.total_eq

/-- A token is read behind the cursor. -/
theorem between_read {fuel : Nat} (hfuel : 0 < fuel) (c : Cursor) :
    (Token.read fuel c).token.Between c (Token.read fuel c).next := by
  have htrivia := skipTrivia_reaches .between false none none c.rest c.offset
  unfold Token.read
  dsimp only
  split
  · exact ⟨htrivia.offset_le, Nat.le_refl _, rfl, htrivia, False.elim⟩
  · cases hrest : (skipTrivia .between false none none c.rest c.offset).cursor.rest with
    | nil =>
      have hkind : readKind fuel (skipTrivia .between false none none c.rest c.offset).cursor =
          ⟨.eof, (skipTrivia .between false none none c.rest c.offset).cursor, []⟩ := by
        unfold readKind
        rw [hrest]
      rw [hkind]
      exact ⟨htrivia.offset_le, Nat.le_refl _, rfl, htrivia, False.elim⟩
    | cons d rest =>
      have hread := reaches_readKind hfuel hrest
      exact ⟨htrivia.offset_le, Nat.le_of_succ_le hread.offset_le, rfl,
        htrivia.trans ((Reaches.skip_one hrest).trans hread), fun _ => hread.offset_le⟩

/-- The rest of a regular expression that begins with an equals sign is behind that sign. -/
theorem reaches_readRegexBody (start : Nat) (text : List Char) (n : Nat) :
    Reaches ⟨text, n + 1⟩ (readRegexBody start ⟨'=' :: text, n⟩).next := by
  have hfirst : endOfPattern false false ('=' :: text) n = endOfPattern false false text (n + 1) := rfl
  unfold readRegexBody
  dsimp only
  rw [hfirst]
  split
  · exact Reaches.skip_one_skipWhile (p := fun d => !isLineTerminator d) (c := ⟨'=' :: text, n⟩) rfl
      (by decide)
  · rename_i hclose
    obtain ⟨hpattern, hslash⟩ := endOfPattern_reaches hclose
    exact (hpattern.trans hslash).trans (.skipWhile _ _)

/-- What is left of a regular expression behind its first token is read behind that token. -/
theorem readRegex_reaches {slash : Token} {next : Cursor}
    (hpos : slash.isPunct .slashAssign = true → 0 < next.offset) :
    next.Reaches (slash.readRegex next).next := by
  unfold Token.readRegex
  dsimp only
  split
  · rename_i hassign
    obtain ⟨text, offset⟩ := next
    obtain ⟨n, rfl⟩ := Nat.exists_eq_succ_of_ne_zero (Nat.ne_of_gt (hpos hassign))
    exact reaches_readRegexBody slash.span.start text n
  · exact readRegexBody_reaches _ _

/-- A regular expression begins with the slash at which it was found. -/
theorem between_readRegex {c next : Cursor} {slash : Token} (h : slash.Between c next) :
    (slash.readRegex next).token.Between c (slash.readRegex next).next := by
  have hread : next.Reaches (slash.readRegex next).next := by
    refine readRegex_reaches fun hassign => ?_
    have hsolid : slash.kind.IsSolid := by
      rw [beq_iff_eq.1 hassign]
      trivial
    exact Nat.zero_lt_of_lt (h.stop_eq ▸ h.lt_stop hsolid)
  refine ⟨h.offset_le, Nat.le_trans h.le_stop (h.stop_eq ▸ hread.offset_le), rfl,
    h.reaches.trans hread, fun hsolid => ?_⟩
  unfold Token.readRegex readRegexBody at hsolid
  dsimp only at hsolid
  split at hsolid <;> cases hsolid

theorem between_readTemplateTail {c next : Cursor} {brace : Token} (h : brace.Between c next)
    (hbrace : brace.isPunct .rightBrace = true) (fuel : Nat) :
    (brace.readTemplateTail fuel next).token.Between c (brace.readTemplateTail fuel next).next := by
  have hread := readTemplate_reaches fuel brace.span.start next .tail .middle true next
  have hsolid : brace.kind.IsSolid := by
    rw [beq_iff_eq.1 hbrace]
    trivial
  have hlt : brace.span.start < (brace.readTemplateTail fuel next).next.offset :=
    Nat.lt_of_lt_of_le (h.stop_eq ▸ h.lt_stop hsolid) hread.offset_le
  exact ⟨h.offset_le, Nat.le_of_lt hlt, rfl, h.reaches.trans hread, fun _ => hlt⟩

end ModuleBundler.Syntax
