import ModuleBundler.Proofs.Syntax.Property

/-!
# Tokens do not depend on what is behind them

A text is cut in front of a blank, a line end or a slash, and a line feed is written for all that is
behind the cut (`Cut`).  Up to there the two texts are the same (`Cut.Alike`), and so is what is read of
them, as long as it ends in front of the cut and has no faults (`Cut.Keeps`).

* `readName_same` — a name ends at the cut at the latest, in both texts;
* `readNumber_keeps` — so does a number, since digits, points and exponents do;
* `readString_keeps`, `readTemplate_keeps`, `readRegexBody_keeps` — strings, templates and regular
  expressions can go on behind the cut, but then they are not closed in front of it;
* **`readKind_keeps`** — a token that begins in front of the cut is kept.
-/

namespace ModuleBundler.Syntax

open Text

/-! ## Cuts -/

/-- Characters that no word, number or string is continued by, and no punctuator either. -/
def breaks : List Char := ['\n', '\r', ' ', '\t', '/']

/-- What is said of some characters is checked at each of them, and not at every character there is. -/
instance decidableForallChars {P : Char → Prop} [DecidablePred P] (text : List Char) :
    Decidable (∀ x ∈ text, P x) :=
  List.decidableBAll P text

/-- A place in a text, in front of one of these characters, and what is behind it. -/
structure Cut where
  offset : Nat
  first : Char
  more : List Char
  first_mem : first ∈ breaks

theorem Cursor.skip_cons (d : Char) (rest : List Char) (n k : Nat) :
    Cursor.skip ⟨d :: rest, n⟩ (k + 1) = Cursor.skip ⟨rest, n + 1⟩ k := by
  unfold Cursor.skip
  rw [List.drop_succ_cons, Nat.add_right_comm, Nat.add_assoc]

theorem Cursor.skip_one (d : Char) (rest : List Char) (n : Nat) :
    Cursor.skip ⟨d :: rest, n⟩ 1 = ⟨rest, n + 1⟩ := rfl

/-- Two cursors at the same place in front of a cut: behind the cut there is only a line feed for the
second one. -/
inductive Cut.Alike (cut : Cut) : Cursor → Cursor → Prop
  | here : cut.Alike ⟨cut.first :: cut.more, cut.offset⟩ ⟨['\n'], cut.offset⟩
  | cons (d : Char) {rest rest' : List Char} {n : Nat} (h : cut.Alike ⟨rest, n + 1⟩ ⟨rest', n + 1⟩) :
    cut.Alike ⟨d :: rest, n⟩ ⟨d :: rest', n⟩

/-- The same value was read, and the cursors behind it are alike. -/
def Cut.Agree {α : Type} (cut : Cut) (x x' : α × Cursor) : Prop := x'.1 = x.1 ∧ cut.Alike x.2 x'.2

/-- A cursor is in front of the cut, or nothing but a line feed is behind the cut. -/
def Cut.Spares (cut : Cut) (c : Cursor) : Prop :=
  c.offset ≤ cut.offset ∨ cut.first = '\n' ∧ cut.more = []

/-- Nothing but a line feed is left. -/
def Cursor.AtFeed (c : Cursor) : Prop := c.rest = [] ∨ c.rest = ['\n']

/-- What is read without a fault is the same, and ends in front of the cut. -/
def Cut.Keeps {α : Type} (cut : Cut) (r r' : Reading α) : Prop :=
  r.faults = [] → cut.Spares r.next →
    r'.value = r.value ∧ cut.Alike r.next r'.next ∧ r'.faults = []

variable {cut : Cut}

namespace Cut.Alike

variable {c c' d d' : Cursor}

theorem of_append {front : List Char} {n : Nat} (h : n + front.length = cut.offset) :
    cut.Alike ⟨front ++ cut.first :: cut.more, n⟩ ⟨front ++ ['\n'], n⟩ := by
  induction front generalizing n with
  | nil =>
    obtain rfl : n = cut.offset := h
    exact .here
  | cons d front ih =>
    rw [List.length_cons] at h
    exact .cons d (ih (by omega))

/-- In front of a character, either the cut is there or the character is in both texts. -/
theorem inv {x : Char} {rest : List Char} {n : Nat} (h : cut.Alike ⟨x :: rest, n⟩ c') :
    x ∈ breaks ∧ c' = ⟨['\n'], n⟩ ∧ n = cut.offset ∨
      ∃ rest', c' = ⟨x :: rest', n⟩ ∧ cut.Alike ⟨rest, n + 1⟩ ⟨rest', n + 1⟩ := by
  generalize hc : Cursor.mk (x :: rest) n = c at h
  cases h with
  | here =>
    cases hc
    exact Or.inl ⟨cut.first_mem, rfl, rfl⟩
  | cons d h =>
    cases hc
    exact Or.inr ⟨_, rfl, h⟩

/-- A character that is no break is in both texts. -/
theorem inv_of_notMem {x : Char} {rest : List Char} {n : Nat} (h : cut.Alike ⟨x :: rest, n⟩ c')
    (hx : x ∉ breaks) : ∃ rest', c' = ⟨x :: rest', n⟩ ∧ cut.Alike ⟨rest, n + 1⟩ ⟨rest', n + 1⟩ :=
  h.inv.resolve_left fun hbreak => hx hbreak.1

theorem not_nil {n : Nat} (h : cut.Alike ⟨[], n⟩ c') : False := by
  cases h

theorem offset_eq (h : cut.Alike c c') : c'.offset = c.offset := by
  cases h <;> rfl

theorem offset_le (h : cut.Alike c c') : c.offset ≤ cut.offset := by
  induction h with
  | here => exact Nat.le_refl _
  | cons d _ ih => exact Nat.le_of_succ_le ih

/-- What does not tell breaks from each other gives the same answer at both cursors. -/
theorem head?_congr {β : Type} (h : cut.Alike c c') (f : Option Char → β)
    (hf : ∀ x ∈ breaks, f (some x) = f (some '\n')) : f c'.rest.head? = f c.rest.head? := by
  cases h with
  | here => exact (hf _ cut.first_mem).symm
  | cons => rfl

/-- A character that is no break is passed in both texts. -/
theorem pass (h : cut.Alike c c') {p : Char → Bool} (hp : ∀ x ∈ breaks, p x = false)
    (hc : c.rest.head?.any p = true) : cut.Alike (c.skip 1) (c'.skip 1) := by
  cases h with
  | here =>
    have hfirst : p cut.first = true := hc
    rw [hp _ cut.first_mem] at hfirst
    cases hfirst
  | cons d h => exact h

theorem pass_eq (h : cut.Alike c c') {x : Char} (hx : x ∉ breaks)
    (hc : (c.rest.head? == some x) = true) : cut.Alike (c.skip 1) (c'.skip 1) := by
  refine h.pass (p := (· == x)) (fun y hy => beq_eq_false_iff_ne.2 fun heq => hx (heq ▸ hy)) ?_
  rw [beq_iff_eq.1 hc]
  exact beq_self_eq_true x

/-- In front of the cut there is a character in both texts. -/
theorem inv_of_lt (h : cut.Alike c c') (hlt : c.offset < cut.offset) : ∃ x rest rest' n,
    c = ⟨x :: rest, n⟩ ∧ c' = ⟨x :: rest', n⟩ ∧ cut.Alike ⟨rest, n + 1⟩ ⟨rest', n + 1⟩ := by
  cases h with
  | here => exact absurd hlt (Nat.lt_irrefl _)
  | cons d h => exact ⟨d, _, _, _, rfl, rfl, h⟩

/-- What is read up to a spared place begins in front of the cut, if more than a line feed is left. -/
theorem lt_of_spares {e : Cursor} (h : cut.Alike c c') (hreaches : c.Reaches d)
    (hlt : d.offset < e.offset) (hspares : cut.Spares e) (hfeed : ¬ d.AtFeed) :
    d.offset < cut.offset := by
  rcases hspares with hle | ⟨hfirst, hmore⟩
  · exact Nat.lt_of_lt_of_le hlt hle
  by_contra hcut
  have hdrop : ∀ {c c' : Cursor}, cut.Alike c c' → c.rest.drop (cut.offset - c.offset) = ['\n'] := by
    intro c c' h
    induction h with
    | here => rw [Nat.sub_self, List.drop_zero, hfirst, hmore]
    | @cons x rest rest' n h ih =>
      have hle := h.offset_le
      dsimp only at hle ih ⊢
      rw [show cut.offset - n = cut.offset - (n + 1) + 1 by omega, List.drop_succ_cons, ih]
  have hle := h.offset_le
  have hrest := hreaches.rest_eq
  obtain ⟨k, hk⟩ : ∃ k, d.offset = cut.offset + k := Nat.exists_eq_add_of_le (Nat.le_of_not_lt hcut)
  rw [show d.offset - c.offset = cut.offset - c.offset + k by omega, ← List.drop_drop, hdrop h] at hrest
  cases k with
  | zero => exact hfeed (Or.inr hrest)
  | succ k => exact hfeed (Or.inl (by rw [hrest, List.drop_succ_cons, List.drop_nil]))

/-- The characters between two cursors in front of the cut are the same. -/
theorem take_eq (h : cut.Alike c c') {n : Nat} (hn : c.offset + n ≤ cut.offset) :
    c'.rest.take n = c.rest.take n := by
  induction h generalizing n with
  | here =>
    obtain rfl : n = 0 := by
      dsimp only at hn
      omega
    rfl
  | cons d _ ih =>
    cases n with
    | zero => rfl
    | succ n =>
      rw [List.take_succ_cons, List.take_succ_cons, ih (by dsimp only at hn ⊢; omega)]

theorem textTo_eq (h : cut.Alike c c') (h' : cut.Alike d d') : c'.textTo d' = c.textTo d := by
  unfold Cursor.textTo
  rw [h.offset_eq, h'.offset_eq]
  by_cases hle : c.offset ≤ d.offset
  · rw [h.take_eq (by have := h'.offset_le; omega)]
  · rw [Nat.sub_eq_zero_of_le (by omega), List.take_zero, List.take_zero]

/-- A text without breaks stands at both cursors or at none of them. -/
theorem startsWith_eq (h : cut.Alike c c') (text : List Char) (htext : ∀ x ∈ text, x ∉ breaks) :
    c'.startsWith text = c.startsWith text ∧
      (c.startsWith text = true → cut.Alike (c.skip text.length) (c'.skip text.length)) := by
  induction h generalizing text with
  | here =>
    cases text with
    | nil => exact ⟨rfl, fun _ => .here⟩
    | cons x text =>
      have hx := htext x List.mem_cons_self
      have hfirst : (x == cut.first) = false := beq_eq_false_iff_ne.2 fun heq =>
        hx (heq ▸ cut.first_mem)
      have hfeed : (x == '\n') = false := beq_eq_false_iff_ne.2 fun heq => hx (heq ▸ by decide)
      simp [Cursor.startsWith, List.isPrefixOf, hfirst, hfeed]
  | cons d h ih =>
    cases text with
    | nil => exact ⟨rfl, fun _ => .cons d h⟩
    | cons x text =>
      obtain ⟨heq, hskip⟩ := ih text fun y hy => htext y (List.mem_cons_of_mem x hy)
      unfold Cursor.startsWith at heq hskip ⊢
      unfold List.isPrefixOf
      rw [heq, List.length_cons, Cursor.skip_cons, Cursor.skip_cons]
      exact ⟨rfl, fun hstarts => hskip (Bool.and_eq_true_iff.1 hstarts).2⟩

end Cut.Alike

/-- Readers that decide alike are compared branch by branch. -/
theorem ite_rel {α : Type} {R : α → α → Prop} {b b' : Bool} (hb : b' = b) {x y x' y' : α}
    (hx : b = true → R x x') (hy : ¬ b = true → R y y') :
    R (if b = true then x else y) (if b' = true then x' else y') := by
  subst hb
  split
  · exact hx ‹_›
  · exact hy ‹_›

theorem Cut.Agree.exists_eq {α : Type} {x x' : α × Cursor} (h : cut.Agree x x') :
    ∃ a c c', x = (a, c) ∧ x' = (a, c') ∧ cut.Alike c c' :=
  ⟨x.1, x.2, x'.2, rfl, Prod.ext h.1 rfl, h.2⟩

/-! ## Escapes -/

section

variable {c c' : Cursor}

theorem readHexDigits_agree (n value : Nat) (h : cut.Alike c c') :
    cut.Agree (readHexDigits n value c) (readHexDigits n value c') := by
  induction n generalizing value c c' with
  | zero => exact ⟨rfl, h⟩
  | succ n ih =>
    unfold readHexDigits
    rw [h.head?_congr (·.bind hexValue?) (by decide)]
    split
    · rename_i d hdigit
      refine ih _ (h.pass (p := fun x => (hexValue? x).isSome) (by decide) ?_)
      cases hhead : c.rest.head? with
      | none =>
        rw [hhead] at hdigit
        cases hdigit
      | some x =>
        rw [hhead] at hdigit
        exact Option.isSome_iff_exists.2 ⟨d, hdigit⟩
    · exact ⟨rfl, h⟩

theorem readCodePointDigits_agree (value : Nat) (h : cut.Alike c c') :
    cut.Agree (readCodePointDigits value c.rest c.offset)
      (readCodePointDigits value c'.rest c'.offset) := by
  induction h generalizing value with
  | here =>
    have hnone : ∀ x ∈ breaks, hexValue? x = none := by decide
    simp only [readCodePointDigits, hnone _ cut.first_mem, hnone '\n' (by decide)]
    exact ⟨rfl, .here⟩
  | cons d h ih =>
    dsimp only
    unfold readCodePointDigits
    split
    · split
      · exact ⟨rfl, h⟩
      · exact ih _
    · exact ⟨rfl, .cons d h⟩

theorem readBracedCodePoint_agree (h : cut.Alike c c') (hopen : (c.rest.head? == some '\x7b') = true) :
    cut.Agree (readBracedCodePoint c) (readBracedCodePoint c') := by
  have hone := h.pass_eq (by decide) hopen
  unfold readBracedCodePoint
  dsimp only
  rw [hone.head?_congr (·.bind hexValue?) (by decide)]
  split
  · exact ⟨rfl, hone⟩
  · obtain ⟨value, after, after', hread, hread', hafter⟩ :=
      (readCodePointDigits_agree 0 hone).exists_eq
    rw [hread, hread']
    cases value with
    | none => exact ⟨rfl, hafter⟩
    | some value =>
      dsimp only
      rw [hafter.head?_congr (· == some '\x7d') (by decide)]
      split
      · exact ⟨rfl, hafter.pass_eq (x := '\x7d') (by decide) ‹_›⟩
      · exact ⟨rfl, hafter⟩

theorem readUnicodeEscape_agree (pairs : Bool) (h : cut.Alike c c') :
    cut.Agree (readUnicodeEscape pairs c) (readUnicodeEscape pairs c') := by
  unfold readUnicodeEscape
  rw [h.head?_congr (· == some '\x7b') (by decide)]
  split
  · exact readBracedCodePoint_agree h ‹_›
  obtain ⟨first, after, after', hread, hread', hafter⟩ := (readHexDigits_agree 4 0 h).exists_eq
  rw [hread, hread']
  cases first with
  | none => exact ⟨rfl, hafter⟩
  | some high =>
    dsimp only
    obtain ⟨hstarts, hskip⟩ := hafter.startsWith_eq ['\\', 'u'] (by decide)
    rw [hstarts]
    split
    · rename_i hpair
      obtain ⟨second, behind, behind', hread, hread', hbehind⟩ :=
        (readHexDigits_agree 4 0 (hskip (Bool.and_eq_true_iff.1 hpair).2)).exists_eq
      rw [List.length_cons, List.length_singleton] at hread hread'
      rw [hread, hread']
      cases second with
      | none => exact ⟨rfl, hbehind⟩
      | some low =>
        dsimp only
        split
        · exact ⟨rfl, hbehind⟩
        · exact ⟨rfl, hafter⟩
    · exact ⟨rfl, hafter⟩

/-! ## Names -/

/-- A name is read alike wherever it ends, and so are its faults. -/
structure Cut.Same {α : Type} (cut : Cut) (r r' : Reading α) : Prop where
  value_eq : r'.value = r.value
  next : cut.Alike r.next r'.next
  faults_eq : r'.faults = r.faults

theorem readName_same {fuel fuel' : Nat} (hfuel : cut.offset < c.offset + fuel)
    (hfuel' : cut.offset < c.offset + fuel') (h : cut.Alike c c') (start escaped : Bool)
    (chars : List Char) (faults : List Fault) :
    cut.Same (readName fuel start escaped chars faults c)
      (readName fuel' start escaped chars faults c') := by
  induction fuel generalizing fuel' c c' start escaped chars faults with
  | zero => exact absurd h.offset_le (Nat.not_le_of_lt hfuel)
  | succ fuel ih =>
    cases fuel' with
    | zero => exact absurd h.offset_le (Nat.not_le_of_lt hfuel')
    | succ fuel' =>
      cases h with
      | here =>
        have hslash : ∀ x ∈ breaks, x ≠ '\\' := by decide
        have hname : ∀ x ∈ breaks, continuesIdentifier x = false := by decide
        rw [readName_cons _ (hslash _ cut.first_mem), readName_cons _ (hslash '\n' (by decide)),
          hname _ cut.first_mem, hname '\n' (by decide)]
        exact ⟨rfl, .here, rfl⟩
      | @cons d rest rest' n h =>
        -- whatever is read next, it is read further on
        have hread : ∀ {after after' : Cursor}, n + 1 ≤ after.offset → cut.Alike after after' →
            ∀ start escaped chars faults, cut.Same (readName fuel start escaped chars faults after)
              (readName fuel' start escaped chars faults after') := by
          intro after after' hle hafter
          dsimp only at hfuel hfuel'
          exact ih (by omega) (by omega) hafter
        by_cases hslash : d = '\\'
        · subst hslash
          simp only [readName, Cursor.skip_one]
          refine ite_rel (h.head?_congr (· == some 'u') (by decide)) (fun hletter => ?_) fun _ => ?_
          · have hescape := h.pass_eq (x := 'u') (by decide) hletter
            have hreaches := (Cursor.Reaches.of_head hletter).trans
              (readUnicodeEscape_namesTo false (Cursor.skip ⟨rest, n + 1⟩ 1)).toReaches
            obtain ⟨value, after, after', hvalue, hvalue', hafter⟩ :=
              (readUnicodeEscape_agree false hescape).exists_eq
            rw [hvalue] at hreaches
            rw [hvalue, hvalue']
            cases value with
            | none => exact hread hreaches.offset_le hafter _ _ _ _
            | some value =>
              dsimp only
              rw [hafter.offset_eq]
              split
              · exact hread hreaches.offset_le hafter _ _ _ _
              · split <;> split <;> exact hread hreaches.offset_le hafter _ _ _ _
          · exact hread (Nat.le_refl _) h _ _ _ _
        · rw [readName_cons _ hslash, readName_cons _ hslash]
          split
          · exact hread (Nat.le_refl _) h _ _ _ _
          · exact ⟨rfl, .cons d h, rfl⟩

/-! ## Numbers -/

/-- Digits are read alike, in both texts or in none of them without a fault. -/
def Cut.AlikeDigits (cut : Cut) (x x' : Cursor × List Fault) : Prop :=
  cut.Alike x.1 x'.1 ∧ (x.2 = [] → x'.2 = [])

theorem readMoreDigits_cons (isDigitHere : Char → Bool) {d : Char} (hd : d ≠ '_') (rest : List Char)
    (n : Nat) : readMoreDigits isDigitHere (d :: rest) n =
      if isDigitHere d then readMoreDigits isDigitHere rest (n + 1) else (⟨d :: rest, n⟩, []) := by
  rw [readMoreDigits]
  · exact fun e more heq => absurd heq hd
  · exact fun heq => absurd heq hd

theorem readMoreDigits_alike {isDigitHere : Char → Bool} (hdigits : ∀ x ∈ breaks, isDigitHere x = false)
    (h : cut.Alike c c') : cut.AlikeDigits (readMoreDigits isDigitHere c.rest c.offset)
      (readMoreDigits isDigitHere c'.rest c'.offset) := by
  have hline : ∀ {d : Char} {rest : List Char}, (∀ e more, d = '_' → rest = e :: more → False) →
      (d = '_' → rest = [] → False) → d ≠ '_' := by
    intro d rest hmore hlast hd
    cases rest with
    | nil => exact hlast hd rfl
    | cons e rest => exact hmore e rest hd rfl
  obtain ⟨text, n⟩ := c
  dsimp only
  fun_induction readMoreDigits isDigitHere text n generalizing c' with
  | case1 => exact h.not_nil.elim
  | case2 d rest n hd ih =>
    obtain ⟨rest', rfl, hbehind⟩ := h.inv_of_notMem (by decide)
    obtain ⟨hbreak, -⟩ | ⟨more, hrest, hmore⟩ := hbehind.inv
    · rw [hdigits d hbreak] at hd
      cases hd
    · cases hrest
      simp only [readMoreDigits, hd, if_true]
      exact ih hmore
  | case3 d rest n hd =>
    -- a separator without a digit is a fault, also if the cut is behind it
    obtain ⟨rest', rfl, hbehind⟩ := h.inv_of_notMem (by decide)
    obtain ⟨-, hrest, -⟩ | ⟨more, hrest, -⟩ := hbehind.inv
    · cases hrest
      simp only [readMoreDigits, hdigits '\n' (by decide), Bool.false_eq_true, if_false]
      exact ⟨hbehind, fun hnone => by cases hnone⟩
    · cases hrest
      simp only [readMoreDigits, hd, Bool.false_eq_true, if_false]
      exact ⟨hbehind, fun hnone => by cases hnone⟩
  | case4 n =>
    obtain ⟨rest', rfl, hbehind⟩ := h.inv_of_notMem (by decide)
    exact hbehind.not_nil.elim
  | case5 d rest n hmore hlast hd ih =>
    obtain ⟨hbreak, -⟩ | ⟨rest', rfl, hbehind⟩ := h.inv
    · rw [hdigits d hbreak] at hd
      cases hd
    · rw [readMoreDigits_cons _ (hline hmore hlast), if_pos hd]
      exact ih hbehind
  | case6 d rest n hmore hlast hd =>
    obtain ⟨-, rfl, -⟩ | ⟨rest', rfl, hbehind⟩ := h.inv
    · rw [readMoreDigits_cons _ (by decide), hdigits '\n' (by decide), if_neg Bool.false_ne_true]
      exact ⟨h, id⟩
    · rw [readMoreDigits_cons _ (hline hmore hlast), if_neg hd]
      exact ⟨h, id⟩

theorem readDigits_alike {isDigitHere : Char → Bool} (hdigits : ∀ x ∈ breaks, isDigitHere x = false)
    (h : cut.Alike c c') :
    cut.AlikeDigits (readDigits isDigitHere c) (readDigits isDigitHere c') := by
  unfold readDigits
  cases h with
  | here =>
    dsimp only
    rw [hdigits _ cut.first_mem, hdigits '\n' (by decide), if_neg Bool.false_ne_true,
      if_neg Bool.false_ne_true]
    exact ⟨.here, fun hnone => by cases hnone⟩
  | cons d h =>
    dsimp only
    split
    · exact readMoreDigits_alike hdigits h
    · exact ⟨.cons d h, fun hnone => by cases hnone⟩

theorem readExponent_of_ne {d : Char} (hlower : d ≠ 'e') (hupper : d ≠ 'E') (rest : List Char)
    (n : Nat) : readExponent ⟨d :: rest, n⟩ = (false, ⟨d :: rest, n⟩, []) := by
  unfold readExponent
  split
  · rename_i heq
    exact absurd (List.cons.inj heq).1 hlower
  · rename_i heq
    exact absurd (List.cons.inj heq).1 hupper
  · rfl

theorem readExponent_alike (h : cut.Alike c c') : (readExponent c').1 = (readExponent c).1 ∧
    cut.AlikeDigits (readExponent c).2 (readExponent c').2 := by
  have hsigned : ∀ {c c' : Cursor}, cut.Alike c c' → cut.AlikeDigits
      (readDigits isDigit
        (if c.rest.head? == some '+' || c.rest.head? == some '-' then c.skip 1 else c))
      (readDigits isDigit
        (if c'.rest.head? == some '+' || c'.rest.head? == some '-' then c'.skip 1 else c')) := by
    intro c c' h
    refine readDigits_alike (by decide) (ite_rel
      (h.head?_congr (fun x => x == some '+' || x == some '-') (by decide)) (fun hsign => ?_)
      fun _ => h)
    rcases Bool.or_eq_true_iff.1 hsign with hsign | hsign
    · exact h.pass_eq (x := '+') (by decide) hsign
    · exact h.pass_eq (x := '-') (by decide) hsign
  cases h with
  | here =>
    have hlower : ∀ x ∈ breaks, x ≠ 'e' := by decide
    have hupper : ∀ x ∈ breaks, x ≠ 'E' := by decide
    rw [readExponent_of_ne (hlower _ cut.first_mem) (hupper _ cut.first_mem),
      readExponent_of_ne (by decide) (by decide)]
    exact ⟨rfl, .here, id⟩
  | cons d h =>
    by_cases hlower : d = 'e'
    · subst hlower
      exact ⟨rfl, hsigned h⟩
    by_cases hupper : d = 'E'
    · subst hupper
      exact ⟨rfl, hsigned h⟩
    rw [readExponent_of_ne hlower hupper, readExponent_of_ne hlower hupper]
    exact ⟨rfl, .cons d h, id⟩

variable {start start' : Cursor} {faults faults' : List Fault}

theorem endNumber_keeps (hstart : cut.Alike start start') (form : NumberForm)
    (hfaults : faults = [] → faults' = []) (h : cut.Alike c c') :
    cut.Keeps (endNumber start form faults c) (endNumber start' form faults' c') := by
  have hraw : ∀ {d d' : Cursor}, cut.Alike d d' → cut.Keeps
      ⟨Token.Kind.number form (start.textTo d), d, faults⟩
      ⟨Token.Kind.number form (start'.textTo d'), d', faults'⟩ :=
    fun h hnone _ => ⟨congrArg (Token.Kind.number form) (hstart.textTo_eq h), h, hfaults hnone⟩
  unfold endNumber
  cases h with
  | here =>
    have hends : ∀ x ∈ breaks, (isDigit x || startsIdentifier x) = false := by decide
    dsimp only
    rw [hends _ cut.first_mem, hends '\n' (by decide)]
    exact hraw .here
  | cons d h =>
    refine ite_rel rfl (fun _ hnone => ?_) fun _ => hraw (.cons d h)
    exact absurd (List.append_eq_nil_iff.1 hnone).2 (List.cons_ne_nil _ _)

/-- The exponent of a number and its end. -/
theorem endNumber_readExponent_keeps (hstart : cut.Alike start start')
    (hfaults : faults = [] → faults' = []) (h : cut.Alike c c') (form : Bool → NumberForm) :
    cut.Keeps
      (endNumber start (form (readExponent c).1) (faults ++ (readExponent c).2.2)
        (readExponent c).2.1)
      (endNumber start' (form (readExponent c').1) (faults' ++ (readExponent c').2.2)
        (readExponent c').2.1) := by
  obtain ⟨hform, hexponent, hmore⟩ := readExponent_alike h
  rw [hform]
  refine endNumber_keeps hstart _ (fun hnone => ?_) hexponent
  obtain ⟨hfirst, hsecond⟩ := List.append_eq_nil_iff.1 hnone
  rw [hfaults hfirst, hmore hsecond]
  rfl

theorem readFraction_keeps (hstart : cut.Alike start start') (needsDigit : Bool) (h : cut.Alike c c') :
    cut.Keeps (readFraction start c needsDigit) (readFraction start' c' needsDigit) := by
  have hbehind : ∀ {digits digits' : Cursor × List Fault}, cut.AlikeDigits digits digits' → cut.Keeps
      (endNumber start .float (digits.2 ++ (readExponent digits.1).2.2)
        (readExponent digits.1).2.1)
      (endNumber start' .float (digits'.2 ++ (readExponent digits'.1).2.2)
        (readExponent digits'.1).2.1) := fun hdigits =>
    endNumber_readExponent_keeps hstart hdigits.2 hdigits.1 fun _ => .float
  refine hbehind ?_
  cases h with
  | here =>
    have hline : ∀ x ∈ breaks, (x == '_') = false := by decide
    have hdigit : ∀ x ∈ breaks, isDigit x = false := by decide
    dsimp only
    rw [hdigit _ cut.first_mem, hdigit '\n' (by decide), hline _ cut.first_mem]
    exact ite_rel rfl (fun _ => readDigits_alike (by decide) .here) fun _ => ⟨.here, id⟩
  | cons d h =>
    dsimp only
    exact ite_rel rfl (fun _ => readDigits_alike (by decide) (.cons d h)) fun _ =>
      ite_rel rfl (fun _ => ⟨h, fun hnone => by cases hnone⟩) fun _ => ⟨.cons d h, id⟩

theorem readBased_keeps (hstart : cut.Alike start start')
    (htwo : cut.Alike (start.skip 2) (start'.skip 2)) (form : NumberForm) {isDigitHere : Char → Bool}
    (hdigits : ∀ x ∈ breaks, isDigitHere x = false) :
    cut.Keeps (readBased start form isDigitHere) (readBased start' form isDigitHere) := by
  have hnone : ∀ {d d' : Cursor} {f f' : Fault},
      cut.Keeps ⟨Token.Kind.unknown, d, [f]⟩ ⟨Token.Kind.unknown, d', [f']⟩ :=
    fun hnone => by cases hnone
  unfold readBased
  dsimp only
  generalize start.skip 2 = c at htwo ⊢
  generalize start'.skip 2 = c' at htwo ⊢
  cases htwo with
  | here =>
    dsimp only
    rw [hdigits _ cut.first_mem, hdigits '\n' (by decide)]
    exact hnone
  | cons d h =>
    refine ite_rel rfl (fun _ => ?_) fun _ => hnone
    obtain ⟨hmore, hfaults⟩ := readMoreDigits_alike hdigits h
    generalize readMoreDigits isDigitHere _ _ = digits at hmore hfaults ⊢
    generalize readMoreDigits isDigitHere _ _ = digits' at hmore hfaults ⊢
    obtain ⟨after, faults⟩ := digits
    obtain ⟨after', faults'⟩ := digits'
    dsimp only at hmore hfaults ⊢
    cases faults with
    | cons f faults =>
      intro hnone
      cases hnone
    | nil =>
      rw [hfaults rfl]
      refine ite_rel (hmore.head?_congr (· == some 'n') (by decide)) (fun hbig => ?_) fun _ => ?_
      · exact endNumber_keeps hstart .bigint id (hmore.pass_eq (x := 'n') (by decide) hbig)
      · exact endNumber_keeps hstart form id hmore

theorem skipWhile_alike {p : Char → Bool} (hfeed : p '\n' = false) (h : cut.Alike c c')
    (hends : (c.skipWhile p).offset ≤ cut.offset ∨ p cut.first = false) :
    cut.Alike (c.skipWhile p) (c'.skipWhile p) := by
  unfold Cursor.skipWhile at hends ⊢
  induction h with
  | here =>
    have hfirst : p cut.first = false := by
      rcases hends with hle | hfirst
      · by_contra hfirst
        dsimp only at hle
        unfold Cursor.skipWhile.go at hle
        rw [if_pos (Bool.of_not_eq_false hfirst)] at hle
        exact absurd (Cursor.Reaches.skipWhile p ⟨cut.more, cut.offset + 1⟩).offset_le
          (Nat.not_le_of_lt (Nat.lt_succ_of_le hle))
      · exact hfirst
    dsimp only
    unfold Cursor.skipWhile.go
    rw [hfirst, hfeed]
    exact .here
  | cons d h ih =>
    dsimp only at hends ⊢
    unfold Cursor.skipWhile.go at hends ⊢
    split
    · rename_i hd
      rw [if_pos hd] at hends
      exact ih hends
    · exact .cons d h

theorem readDecimal_of_ne {d : Char} (hpoint : d ≠ '.') (hbig : d ≠ 'n') (start : Cursor)
    (rest : List Char) (n : Nat) (faults : List Fault) :
    readNumber.readDecimal start (⟨d :: rest, n⟩, faults) =
      endNumber start (if (readExponent ⟨d :: rest, n⟩).1 then .exponential else .decimal)
        (faults ++ (readExponent ⟨d :: rest, n⟩).2.2) (readExponent ⟨d :: rest, n⟩).2.1 := by
  unfold readNumber.readDecimal
  dsimp only
  split
  · rename_i heq
    exact absurd (List.cons.inj heq).1 hpoint
  · rename_i heq
    exact absurd (List.cons.inj heq).1 hbig
  · rfl

theorem readDecimal_keeps (hstart : cut.Alike start start') {digits digits' : Cursor × List Fault}
    (h : cut.AlikeDigits digits digits') : cut.Keeps (readNumber.readDecimal start digits)
      (readNumber.readDecimal start' digits') := by
  obtain ⟨c, faults⟩ := digits
  obtain ⟨c', faults'⟩ := digits'
  obtain ⟨h, hfaults⟩ := h
  dsimp only at h hfaults
  have hdecimal := endNumber_readExponent_keeps hstart hfaults h
    fun exponent => if exponent then .exponential else .decimal
  cases h with
  | here =>
    have hpoint : ∀ x ∈ breaks, x ≠ '.' := by decide
    have hbig : ∀ x ∈ breaks, x ≠ 'n' := by decide
    rw [readDecimal_of_ne (hpoint _ cut.first_mem) (hbig _ cut.first_mem),
      readDecimal_of_ne (by decide) (by decide)]
    exact hdecimal
  | cons d h =>
    by_cases hpoint : d = '.'
    · subst hpoint
      intro hnone hle
      obtain ⟨hfirst, hsecond⟩ := List.append_eq_nil_iff.1 hnone
      obtain ⟨hvalue, hnext, hfraction⟩ := readFraction_keeps hstart false h hsecond hle
      refine ⟨hvalue, hnext, List.append_eq_nil_iff.2 ⟨hfaults hfirst, hfraction⟩⟩
    by_cases hbig : d = 'n'
    · subst hbig
      exact endNumber_keeps hstart .bigint hfaults h
    rw [readDecimal_of_ne hpoint hbig, readDecimal_of_ne hpoint hbig]
    exact hdecimal

theorem readLegacyOctal_of_ne {d : Char} {rest : List Char} {n : Nat}
    (h : start.skipWhile isDigit = ⟨d :: rest, n⟩) (hpoint : d ≠ '.') (hexponent : d ≠ 'e') :
    readLegacyOctal start =
      if (start.rest.take (n - start.offset)).any fun d => d == '8' || d == '9' then
        endNumber start .decimal [] ⟨d :: rest, n⟩
      else endNumber start .octal [] ⟨d :: rest, n⟩ := by
  unfold readLegacyOctal
  rw [h]
  dsimp only
  split
  · split
    · rename_i heq
      exact absurd (List.cons.inj heq).1 hpoint
    · rename_i heq
      exact absurd (List.cons.inj heq).1 hexponent
    · rfl
  · rfl

theorem readLegacyOctal_keeps (h : cut.Alike start start') :
    cut.Keeps (readLegacyOctal start) (readLegacyOctal start') := by
  have hdigit : ∀ x ∈ breaks, isDigit x = false := by decide
  have hstop := skipWhile_alike (hdigit '\n' (by decide)) h (Or.inr (hdigit _ cut.first_mem))
  have htake : (start'.rest.take ((start'.skipWhile isDigit).offset - start'.offset)) =
      start.rest.take ((start.skipWhile isDigit).offset - start.offset) := by
    have hreaches := (Cursor.Reaches.skipWhile isDigit start).offset_le
    have hle := hstop.offset_le
    rw [hstop.offset_eq, h.offset_eq]
    exact h.take_eq (by omega)
  have hany := congrArg (List.any · fun d => d == '8' || d == '9') htake
  generalize hc : start.skipWhile isDigit = c at hstop hany
  generalize hc' : start'.skipWhile isDigit = c' at hstop hany
  cases hstop with
  | here =>
    have hpoint : ∀ x ∈ breaks, x ≠ '.' := by decide
    have hexponent : ∀ x ∈ breaks, x ≠ 'e' := by decide
    rw [readLegacyOctal_of_ne hc (hpoint _ cut.first_mem) (hexponent _ cut.first_mem),
      readLegacyOctal_of_ne hc' (by decide) (by decide)]
    exact ite_rel hany (fun _ => endNumber_keeps h _ id .here) fun _ => endNumber_keeps h _ id .here
  | cons d hrest =>
    by_cases hpoint : d = '.'
    · subst hpoint
      unfold readLegacyOctal
      rw [hc, hc']
      exact ite_rel hany (fun _ => readFraction_keeps h false hrest) fun _ =>
        endNumber_keeps h _ id (.cons _ hrest)
    by_cases hexponent : d = 'e'
    · subst hexponent
      unfold readLegacyOctal
      rw [hc, hc']
      obtain ⟨-, hexponent, hfaults⟩ := readExponent_alike (Cut.Alike.cons 'e' hrest)
      exact ite_rel hany (fun _ => endNumber_keeps h .exponential hfaults hexponent) fun _ =>
        endNumber_keeps h _ id (.cons _ hrest)
    rw [readLegacyOctal_of_ne hc hpoint hexponent, readLegacyOctal_of_ne hc' hpoint hexponent]
    exact ite_rel hany (fun _ => endNumber_keeps h _ id (.cons d hrest)) fun _ =>
      endNumber_keeps h _ id (.cons d hrest)

/-- The letters that name a base. -/
def baseLetters : List Char := ['b', 'B', 'o', 'O', 'x', 'X']

theorem readNumber_zero {d : Char} (hd : d ∉ baseLetters) (rest : List Char) (n : Nat) :
    readNumber ⟨'0' :: d :: rest, n⟩ =
      if isDigit d then readLegacyOctal ⟨'0' :: d :: rest, n⟩
      else readNumber.readDecimal ⟨'0' :: d :: rest, n⟩ (⟨d :: rest, n + 1⟩, []) := by
  unfold readNumber
  split
  case h_7 heq =>
    cases heq
    rfl
  case h_8 hzero => exact absurd rfl (hzero d rest)
  all_goals
    rename_i heq
    cases heq
    exact absurd (by decide) hd

theorem readNumber_of_ne {d : Char} (hd : d ≠ '0') (rest : List Char) (n : Nat) :
    readNumber ⟨d :: rest, n⟩ =
      readNumber.readDecimal ⟨d :: rest, n⟩ (readDigits isDigit ⟨d :: rest, n⟩) := by
  unfold readNumber
  split
  case h_8 => rfl
  all_goals
    rename_i heq
    exact absurd (List.cons.inj heq).1 hd

theorem readNumber_keeps (h : cut.Alike c c') : cut.Keeps (readNumber c) (readNumber c') := by
  have hdigits : cut.AlikeDigits (readDigits isDigit c) (readDigits isDigit c') :=
    readDigits_alike (by decide) h
  have hdecimal := readDecimal_keeps h hdigits
  cases hstart : h with
  | here =>
    have hzero : ∀ x ∈ breaks, x ≠ '0' := by decide
    rw [readNumber_of_ne (hzero _ cut.first_mem), readNumber_of_ne (by decide)]
    exact hdecimal
  | @cons d rest rest' n hrest =>
    by_cases hzero : d = '0'
    · subst hzero
      cases rest with
      | nil => exact hrest.not_nil.elim
      | cons e rest =>
        have hnone : cut.AlikeDigits (⟨e :: rest, n + 1⟩, []) (⟨rest', n + 1⟩, []) := ⟨hrest, id⟩
        have hbehind := readDecimal_keeps h hnone
        obtain ⟨hbreak, heq, -⟩ | ⟨more, heq, hmore⟩ := hrest.inv
        · have hletter : ∀ x ∈ breaks, x ∉ baseLetters := by decide
          have hdigit : ∀ x ∈ breaks, isDigit x = false := by decide
          cases heq
          rw [readNumber_zero (hletter e hbreak), readNumber_zero (by decide), hdigit e hbreak]
          exact hbehind
        · cases heq
          by_cases hletter : e ∈ baseLetters
          · simp only [baseLetters, List.mem_cons, List.not_mem_nil, or_false] at hletter
            rcases hletter with rfl | rfl | rfl | rfl | rfl | rfl
            all_goals exact readBased_keeps h hmore _ (by decide)
          · rw [readNumber_zero hletter, readNumber_zero hletter]
            exact ite_rel rfl (fun _ => readLegacyOctal_keeps h) fun _ => hbehind
    · rw [readNumber_of_ne hzero, readNumber_of_ne hzero]
      exact hdecimal

/-! ## Strings and templates -/

theorem takeWhile_take_alike {p : Char → Bool} (hp : ∀ x ∈ breaks, p x = false) (h : cut.Alike c c')
    (n : Nat) : (c'.rest.take n).takeWhile p = (c.rest.take n).takeWhile p ∧
      cut.Alike (c.skip ((c.rest.take n).takeWhile p).length)
        (c'.skip ((c.rest.take n).takeWhile p).length) := by
  induction h generalizing n with
  | here =>
    cases n with
    | zero => exact ⟨rfl, .here⟩
    | succ n =>
      dsimp only
      rw [List.take_succ_cons, List.take_succ_cons, List.takeWhile_cons, List.takeWhile_cons,
        hp _ cut.first_mem, hp '\n' (by decide)]
      exact ⟨rfl, .here⟩
  | cons d h ih =>
    cases n with
    | zero => exact ⟨rfl, .cons d h⟩
    | succ n =>
      obtain ⟨heq, hskip⟩ := ih n
      dsimp only at heq hskip ⊢
      rw [List.take_succ_cons, List.take_succ_cons, List.takeWhile_cons, List.takeWhile_cons, heq]
      split
      · rw [List.length_cons, Cursor.skip_cons, Cursor.skip_cons]
        exact ⟨rfl, hskip⟩
      · exact ⟨rfl, .cons d h⟩

theorem readOctalEscape_agree (h : cut.Alike c c') :
    cut.Agree (readOctalEscape c) (readOctalEscape c') := by
  have hread : ∀ n, cut.Agree
      (((c.rest.take n).takeWhile isOctalDigit).foldl (fun value d => value * 8 + (d.toNat - 48)) 0,
        c.skip ((c.rest.take n).takeWhile isOctalDigit).length)
      (((c'.rest.take n).takeWhile isOctalDigit).foldl (fun value d => value * 8 + (d.toNat - 48)) 0,
        c'.skip ((c'.rest.take n).takeWhile isOctalDigit).length) := by
    intro n
    obtain ⟨heq, hskip⟩ := takeWhile_take_alike (p := isOctalDigit) (by decide) h n
    rw [heq]
    exact ⟨rfl, hskip⟩
  unfold readOctalEscape
  cases h with
  | here =>
    have hsmall : ∀ x ∈ breaks, x ≤ '3' := by decide
    dsimp only [List.head?_cons]
    rw [if_pos (hsmall _ cut.first_mem), if_pos (by decide)]
    exact hread 3
  | cons d h => exact hread _

/-- What was read agrees if the cut is not reached.  A line end in front of it could be the first of
two characters. -/
def Cut.AgreeBefore {α : Type} (cut : Cut) (x x' : α × Cursor) : Prop :=
  x.2.offset < cut.offset → cut.Agree x x'

theorem readEscape_agreeBefore (inTemplate : Bool) (h : cut.Alike c c') :
    cut.AgreeBefore (readEscape inTemplate c) (readEscape inTemplate c') := by
  have hreaches := (readEscape_reaches inTemplate c).offset_le
  cases hstart : h with
  | here => exact fun hlt => absurd hreaches (Nat.not_le_of_lt hlt)
  | @cons d rest rest' n hrest =>
    have hone : ∀ units : Option (List StringUnit),
        cut.AgreeBefore (units, ⟨rest, n + 1⟩) (units, ⟨rest', n + 1⟩) := fun _ _ => ⟨rfl, hrest⟩
    unfold readEscape
    dsimp only [Cursor.skip_one]
    refine ite_rel rfl (fun _ hlt => ⟨rfl, ?_⟩) fun _ => ?_
    · have hbefore : n + 1 < cut.offset := by
        dsimp only at hlt
        split at hlt
        · exact Nat.lt_of_succ_lt hlt
        · exact hlt
      obtain ⟨e, more, more', _, heq, heq', hmore⟩ := hrest.inv_of_lt hbefore
      cases heq
      cases heq'
      exact ite_rel rfl (fun _ => hmore) fun _ => .cons e hmore
    iterate 7 refine ite_rel rfl (fun _ => hone _) fun _ => ?_
    refine ite_rel rfl (fun _ => ?_) fun _ => ite_rel rfl (fun _ => ?_) fun _ => ?_
    · obtain ⟨value, after, after', hread, hread', hafter⟩ :=
        (readHexDigits_agree 2 0 hrest).exists_eq
      rw [hread, hread']
      cases value <;> exact fun _ => ⟨rfl, hafter⟩
    · obtain ⟨value, after, after', hread, hread', hafter⟩ :=
        (readUnicodeEscape_agree true hrest).exists_eq
      rw [hread, hread']
      cases value <;> exact fun _ => ⟨rfl, hafter⟩
    have hdigit := hrest.head?_congr (·.any isDigit) (by decide)
    refine ite_rel (by rw [hdigit]) (fun _ => hone _) fun _ => ite_rel rfl (fun _ => hone _) fun _ => ?_
    refine ite_rel rfl (fun _ _ => ?_) fun _ => hone _
    obtain ⟨hvalue, hafter⟩ := readOctalEscape_agree h
    exact ⟨congrArg (fun n => some [StringUnit.char (Char.ofNat n)]) hvalue, hafter⟩

/-- A string without a fault is closed by a quote, and has none in front of `c` either. -/
theorem readString_faults {fuel : Nat} {body : Cursor} {quote : Char} {units : List StringUnit}
    {faults : List Fault} {c : Cursor} (h : (readString fuel body quote units faults c).faults = []) :
    faults = [] ∧ c.offset < (readString fuel body quote units faults c).next.offset := by
  induction fuel generalizing units faults c with
  | zero => exact absurd (List.reverse_eq_nil_iff.1 h) (List.cons_ne_nil _ _)
  | succ fuel ih =>
    unfold readString at h ⊢
    dsimp only at h ⊢
    split at h
    · exact absurd (List.reverse_eq_nil_iff.1 h) (List.cons_ne_nil _ _)
    rename_i d rest hrest
    split at h
    · rename_i hquote
      rw [if_pos hquote]
      exact ⟨List.reverse_eq_nil_iff.1 h, Nat.lt_succ_self _⟩
    rename_i hquote
    rw [if_neg hquote]
    split at h
    · exact absurd (List.reverse_eq_nil_iff.1 h) (List.cons_ne_nil _ _)
    rename_i hline
    rw [if_neg hline]
    split at h
    · rename_i hslash
      have hpassed := (Cursor.Reaches.skip_one hrest).trans (readEscape_reaches false (c.skip 1))
      rw [if_pos hslash]
      rcases hescape : readEscape false (c.skip 1) with ⟨_ | more, after⟩
      · rw [hescape] at h
        exact absurd (ih h).1 (List.cons_ne_nil _ _)
      · rw [hescape] at h hpassed
        exact ⟨(ih h).1, Nat.lt_of_le_of_lt hpassed.offset_le (ih h).2⟩
    · rename_i hslash
      rw [if_neg hslash]
      exact ⟨(ih h).1, Nat.lt_of_succ_lt (ih h).2⟩

theorem readString_of_atFeed {c : Cursor} (h : c.AtFeed) (fuel : Nat) (body : Cursor) {quote : Char}
    (hquote : quote ≠ '\n') (units : List StringUnit) (faults : List Fault) :
    (readString fuel body quote units faults c).faults ≠ [] := by
  intro hnone
  cases fuel with
  | zero => exact absurd (List.reverse_eq_nil_iff.1 hnone) (List.cons_ne_nil _ _)
  | succ fuel =>
    have hclosed : ('\n' == quote) = false := beq_eq_false_iff_ne.2 hquote.symm
    rcases h with hrest | hrest
    all_goals
      simp only [readString, hrest, hclosed, Bool.false_eq_true, if_false, beq_self_eq_true,
        Bool.true_or, if_true] at hnone
      exact absurd (List.reverse_eq_nil_iff.1 hnone) (List.cons_ne_nil _ _)

theorem readString_keeps {fuel fuel' : Nat} (hfuel : cut.offset < c.offset + fuel)
    (hfuel' : cut.offset < c.offset + fuel') {body body' : Cursor} (hbody : cut.Alike body body')
    {quote : Char} (hquote : quote ≠ '\n') (units : List StringUnit) (faults : List Fault)
    (h : cut.Alike c c') : cut.Keeps (readString fuel body quote units faults c)
      (readString fuel' body' quote units faults c') := by
  induction fuel generalizing fuel' units faults c c' with
  | zero => exact absurd h.offset_le (Nat.not_le_of_lt hfuel)
  | succ fuel ih =>
    cases fuel' with
    | zero => exact absurd h.offset_le (Nat.not_le_of_lt hfuel')
    | succ fuel' =>
      cases hstart : h with
      | here =>
        exact fun hnone hspares => absurd (h.lt_of_spares (.refl _) (readString_faults hnone).2
          hspares fun hfeed => readString_of_atFeed hfeed _ _ hquote _ _ hnone) (Nat.lt_irrefl _)
      | @cons d rest rest' n hrest =>
        have hunterminated : ∀ {r r' : Reading Token.Kind} {f : Fault},
            r.faults = (f :: faults).reverse → cut.Keeps r r' := fun heq hnone _ =>
          absurd (List.reverse_eq_nil_iff.1 (heq.symm.trans hnone)) (List.cons_ne_nil _ _)
        dsimp only at hfuel hfuel'
        simp only [readString, Cursor.skip_one]
        refine ite_rel rfl (fun _ hnone _ => ⟨?_, hrest, hnone⟩) fun _ =>
          ite_rel rfl (fun _ => hunterminated rfl) fun _ => ite_rel rfl (fun _ => ?_) fun _ => ?_
        · rw [hbody.textTo_eq h]
        · rcases hescape : readEscape false ⟨rest, n + 1⟩ with ⟨_ | more, after⟩
          · exact fun hnone => absurd (readString_faults hnone).1 (List.cons_ne_nil _ _)
          · intro hnone hspares
            have hreaches := readEscape_reaches false ⟨rest, n + 1⟩
            have hagree := readEscape_agreeBefore false hrest
            rw [hescape] at hreaches hagree
            have hlt := hrest.lt_of_spares hreaches (readString_faults hnone).2 hspares fun hfeed =>
              readString_of_atFeed hfeed _ _ hquote _ _ hnone
            obtain ⟨_, _, after', heq, hescape', hafter⟩ := (hagree hlt).exists_eq
            cases heq
            rw [hescape']
            have hle := hreaches.offset_le
            dsimp only at hle
            exact ih (by omega) (by omega) _ _ hafter hnone hspares
        · exact ih (by dsimp only; omega) (by dsimp only; omega) _ _ hrest

section Template

variable {start : Nat} {body body' : Cursor} {closed opened : TemplatePart}

theorem readTemplate_plain {d : Char} {rest : List Char} (htick : d ≠ '\x60') (hslash : d ≠ '\\')
    (hopen : ¬ (d = '$' ∧ rest.head? = some '\x7b')) (fuel n : Nat) (valid : Bool) :
    readTemplate (fuel + 1) start body closed opened valid ⟨d :: rest, n⟩ =
      readTemplate fuel start body closed opened valid ⟨rest, n + 1⟩ := by
  rw [readTemplate]
  split
  · rename_i heq
    cases heq
  · rename_i heq
    exact absurd (List.cons.inj heq).1 htick
  · rename_i heq
    obtain ⟨rfl, rfl⟩ := List.cons.inj heq
    exact absurd ⟨rfl, rfl⟩ hopen
  · rename_i heq
    exact absurd (List.cons.inj heq).1 hslash
  · rfl

/-- A part of a template without a fault is closed. -/
theorem lt_readTemplate {fuel : Nat} {valid : Bool} {c : Cursor}
    (h : (readTemplate fuel start body closed opened valid c).faults = []) :
    c.offset < (readTemplate fuel start body closed opened valid c).next.offset := by
  induction fuel generalizing valid c with
  | zero => cases h
  | succ fuel ih =>
    unfold readTemplate at h ⊢
    split at h
    · cases h
    · exact Nat.lt_succ_self _
    · exact Nat.lt_add_of_pos_right Nat.zero_lt_two
    · rename_i rest hrest
      have hpassed := (Cursor.Reaches.skip_one hrest).trans (readEscape_reaches true (c.skip 1))
      exact Nat.lt_of_le_of_lt hpassed.offset_le (ih h)
    · exact Nat.lt_of_succ_lt (ih h)

theorem readTemplate_of_atFeed {c : Cursor} (h : c.AtFeed) (fuel : Nat) (valid : Bool) :
    (readTemplate fuel start body closed opened valid c).faults ≠ [] := by
  obtain ⟨text, n⟩ := c
  rcases h with hrest | hrest <;> cases hrest
  · cases fuel <;> exact List.cons_ne_nil _ _
  · cases fuel with
    | zero => exact List.cons_ne_nil _ _
    | succ fuel =>
      rw [readTemplate_plain (by decide) (by decide) (by decide)]
      cases fuel <;> exact List.cons_ne_nil _ _

theorem readTemplate_keeps {fuel fuel' : Nat} (hfuel : cut.offset < c.offset + fuel)
    (hfuel' : cut.offset < c.offset + fuel') (hbody : cut.Alike body body') (valid : Bool)
    (h : cut.Alike c c') : cut.Keeps (readTemplate fuel start body closed opened valid c)
      (readTemplate fuel' start body' closed opened valid c') := by
  induction fuel generalizing fuel' valid c c' with
  | zero => exact absurd h.offset_le (Nat.not_le_of_lt hfuel)
  | succ fuel ih =>
    cases fuel' with
    | zero => exact absurd h.offset_le (Nat.not_le_of_lt hfuel')
    | succ fuel' =>
      cases hstart : h with
      | here =>
        exact fun hnone hspares => absurd (h.lt_of_spares (.refl _) (lt_readTemplate hnone) hspares
          fun hfeed => readTemplate_of_atFeed hfeed _ _ hnone) (Nat.lt_irrefl _)
      | @cons d rest rest' n hrest =>
        dsimp only at hfuel hfuel'
        by_cases htick : d = '\x60'
        · subst htick
          exact fun _ _ => ⟨by simp only [readTemplate, hbody.textTo_eq h], hrest, rfl⟩
        by_cases hslash : d = '\\'
        · subst hslash
          simp only [readTemplate, Cursor.skip_one]
          intro hnone hspares
          have hreaches := readEscape_reaches true ⟨rest, n + 1⟩
          have hlt := hrest.lt_of_spares hreaches (lt_readTemplate hnone) hspares fun hfeed =>
            readTemplate_of_atFeed hfeed _ _ hnone
          obtain ⟨units, after, after', hescape, hescape', hafter⟩ :=
            (readEscape_agreeBefore true hrest hlt).exists_eq
          rw [hescape] at hnone hspares hreaches ⊢
          rw [hescape']
          have hle := hreaches.offset_le
          dsimp only at hnone hspares hle ⊢
          exact ih (by omega) (by omega) _ hafter hnone hspares
        have hhead := hrest.head?_congr (· == some '\x7b') (by decide)
        by_cases hopen : d = '$' ∧ rest.head? = some '\x7b'
        · obtain ⟨rfl, hbrace⟩ := hopen
          cases rest with
          | nil => cases hbrace
          | cons e more =>
            cases hbrace
            obtain ⟨more', heq, hmore⟩ := hrest.inv_of_notMem (by decide)
            cases heq
            exact fun _ _ => ⟨by simp only [readTemplate, hbody.textTo_eq h], hmore, rfl⟩
        · have hopen' : ¬ (d = '$' ∧ rest'.head? = some '\x7b') := by
            rw [← beq_iff_eq (b := some '\x7b'), hhead, beq_iff_eq]
            exact hopen
          rw [readTemplate_plain htick hslash hopen, readTemplate_plain htick hslash hopen']
          exact ih (by dsimp only; omega) (by dsimp only; omega) _ hrest

end Template

/-! ## Regular expressions -/

/-- What is found in front of the cut is found in both texts. -/
def Cut.FoundBefore (cut : Cut) (found found' : Option Cursor) : Prop :=
  ∀ close, found = some close → close.offset < cut.offset →
    ∃ close', found' = some close' ∧ cut.Alike close close'

theorem endOfPattern_foundBefore (escaped inClass : Bool) (h : cut.Alike c c') :
    cut.FoundBefore (endOfPattern escaped inClass c.rest c.offset)
      (endOfPattern escaped inClass c'.rest c'.offset) := by
  induction h generalizing escaped inClass with
  | here =>
    exact fun close hclose hlt =>
      absurd (endOfPattern_reaches hclose).1.offset_le (Nat.not_le_of_lt hlt)
  | cons d h ih =>
    unfold endOfPattern
    refine ite_rel rfl (fun _ close hclose => by cases hclose) fun _ =>
      ite_rel rfl (fun _ => ih _ _) fun _ => ite_rel rfl (fun _ close hclose _ => ?_) fun _ =>
        ite_rel rfl (fun _ => ih _ _) fun _ => ite_rel rfl (fun _ => ih _ _) fun _ => ih _ _
    cases hclose
    exact ⟨_, rfl, .cons d h⟩

theorem head?_of_endOfPattern {escaped inClass : Bool} {text : List Char} {n : Nat} {close : Cursor}
    (h : endOfPattern escaped inClass text n = some close) : close.rest.head? = some '/' := by
  induction text generalizing escaped inClass n with
  | nil => cases h
  | cons x rest ih =>
    unfold endOfPattern at h
    split at h
    · cases h
    split at h
    · exact ih h
    split at h
    · rename_i hslash
      cases h
      exact congrArg some (beq_iff_eq.1 (Bool.and_eq_true_iff.1 hslash).1)
    split at h
    · exact ih h
    split at h <;> exact ih h

theorem readRegexBody_keeps (slash : Nat) (h : cut.Alike c c') :
    cut.Keeps (readRegexBody slash c) (readRegexBody slash c') := by
  intro hnone hspares
  unfold readRegexBody at hnone hspares ⊢
  cases hclose : endOfPattern false false c.rest c.offset with
  | none =>
    rw [hclose] at hnone
    cases hnone
  | some close =>
    rw [hclose] at hnone hspares
    dsimp only at hnone hspares
    have hreaches := (Cursor.Reaches.skipWhile continuesIdentifier (close.skip 1)).offset_le
    have hslash := head?_of_endOfPattern hclose
    have hlt := h.lt_of_spares (endOfPattern_reaches hclose).1 hreaches hspares (by
      rintro (hrest | hrest) <;> rw [hrest] at hslash <;> cases hslash)
    obtain ⟨close', hclose', halike⟩ := endOfPattern_foundBefore false false h close hclose hlt
    have hflags : cut.Alike (close.skip 1) (close'.skip 1) := by
      obtain ⟨x, rest, rest', n, rfl, rfl, hrest⟩ := halike.inv_of_lt hlt
      exact hrest
    have hname : ∀ x ∈ breaks, continuesIdentifier x = false := by decide
    have hbehind := skipWhile_alike (hname '\n' (by decide)) hflags (Or.inr (hname _ cut.first_mem))
    have hle := hbehind.offset_le
    have htake := hflags.take_eq
      (n := ((close.skip 1).skipWhile continuesIdentifier).offset - (close.skip 1).offset) (by omega)
    rw [hclose']
    dsimp only
    refine ⟨?_, hbehind, ?_⟩
    · rw [h.textTo_eq halike, hflags.textTo_eq hbehind]
    · rw [hbehind.offset_eq, hflags.offset_eq, htake]
      exact hnone

/-! ## Tokens -/

/-- Only its first character can be a break. -/
theorem notMem_breaks_of_mem_tail : ∀ (p : Punct), ∀ x ∈ p.text.toList.tail, x ∉ breaks := by
  intro p
  cases p <;> decide

theorem startsWith_cons (d x : Char) (rest text : List Char) (n : Nat) :
    Cursor.startsWith ⟨d :: rest, n⟩ (x :: text) =
      (x == d && Cursor.startsWith ⟨rest, n + 1⟩ text) := rfl

/-- A punctuator in front of the cut is in both texts. -/
theorem punct_startsWith_eq {d : Char} {rest rest' : List Char} {n : Nat} (p : Punct)
    (h : cut.Alike ⟨rest, n + 1⟩ ⟨rest', n + 1⟩) :
    Cursor.startsWith ⟨d :: rest', n⟩ p.text.toList = Cursor.startsWith ⟨d :: rest, n⟩ p.text.toList ∧
      (Cursor.startsWith ⟨d :: rest, n⟩ p.text.toList = true →
        cut.Alike (Cursor.skip ⟨d :: rest, n⟩ p.text.length)
          (Cursor.skip ⟨d :: rest', n⟩ p.text.length)) := by
  have htail := notMem_breaks_of_mem_tail p
  rw [← String.length_toList]
  cases htext : p.text.toList with
  | nil => exact ⟨rfl, fun _ => .cons d h⟩
  | cons x text =>
    rw [htext, List.tail_cons] at htail
    obtain ⟨heq, hskip⟩ := h.startsWith_eq text htail
    rw [startsWith_cons, startsWith_cons, heq, List.length_cons, Cursor.skip_cons, Cursor.skip_cons]
    exact ⟨rfl, fun hstarts => hskip (Bool.and_eq_true_iff.1 hstarts).2⟩

theorem punctAt?_eq {d : Char} {rest rest' : List Char} {n : Nat}
    (h : cut.Alike ⟨rest, n + 1⟩ ⟨rest', n + 1⟩) :
    punctAt? ⟨d :: rest', n⟩ = punctAt? ⟨d :: rest, n⟩ := by
  refine congrArg (fun at? => Punct.all.find? at?) (funext fun p => ?_)
  obtain ⟨heq, hskip⟩ := punct_startsWith_eq (d := d) p h
  rw [heq]
  cases hstarts : Cursor.startsWith ⟨d :: rest, n⟩ p.text.toList with
  | false => rfl
  | true =>
    by_cases hp : p = .questionDot
    · subst hp
      exact congrArg (fun digit => true && !(true && digit))
        ((hskip hstarts).head?_congr (·.any isDigit) (by decide))
    · rw [beq_eq_false_iff_ne.2 hp]
      rfl

theorem Cut.Same.keeps {α β : Type} {r r' : Reading α} (h : cut.Same r r') (f : α → β) :
    cut.Keeps ⟨f r.value, r.next, r.faults⟩ ⟨f r'.value, r'.next, r'.faults⟩ :=
  fun hnone _ => ⟨congrArg f h.value_eq, h.next, h.faults_eq.trans hnone⟩

theorem readKind_keeps {fuel fuel' : Nat} (hfuel : cut.offset < c.offset + fuel)
    (hfuel' : cut.offset < c.offset + fuel') (h : cut.Alike c c') (hlt : c.offset < cut.offset) :
    cut.Keeps (readKind fuel c) (readKind fuel' c') := by
  obtain ⟨d, rest, rest', n, rfl, rfl, hrest⟩ := h.inv_of_lt hlt
  have hunknown : ∀ {c c' : Cursor} {f f' : Fault},
      cut.Keeps ⟨Token.Kind.unknown, c, [f]⟩ ⟨Token.Kind.unknown, c', [f']⟩ :=
    fun hnone => by cases hnone
  dsimp only at hfuel hfuel'
  unfold readKind
  dsimp only [Cursor.skip_one]
  refine ite_rel rfl (fun _ => ?_) fun _ => ite_rel rfl (fun _ => ?_) fun _ =>
    ite_rel rfl (fun _ => readNumber_keeps h) fun _ => ite_rel ?_ (fun _ => ?_) fun _ =>
      ite_rel rfl (fun _ => ?_) fun _ => ite_rel rfl (fun _ => ?_) fun _ => ?_
  · rename_i hquote
    refine readString_keeps (by dsimp only; omega) (by dsimp only; omega) hrest ?_ [] [] hrest
    rintro rfl
    revert hquote
    decide
  · exact readTemplate_keeps (by dsimp only; omega) (by dsimp only; omega) hrest true hrest
  · have hdigit := hrest.head?_congr (·.any isDigit) (by decide)
    rw [hdigit]
  · exact readFraction_keeps h true hrest
  · have hmark := hrest.head?_congr (· == some '!') (by decide)
    have hname := hrest.head?_congr (·.any fun e => startsIdentifier e || e == '\\') (by decide)
    refine ite_rel (by rw [hmark]) (fun _ _ hspares => ?_) fun _ =>
      ite_rel hname (fun _ => ?_) fun _ => hunknown
    · refine ⟨rfl, skipWhile_alike (by decide) h (hspares.imp_right fun hfeed => ?_), rfl⟩
      rw [hfeed.1]
      decide
    · have hname : cut.Same (readName fuel true false [] [] ⟨rest, n + 1⟩)
          (readName fuel' true false [] [] ⟨rest', n + 1⟩) :=
        readName_same (by dsimp only; omega) (by dsimp only; omega) hrest true false [] []
      exact hname.keeps fun name => Token.Kind.privateName name.1
  · exact (readName_same hfuel hfuel' h true false [] []).keeps fun name =>
      Token.Kind.word name.1 name.2
  · rw [punctAt?_eq hrest]
    split
    · rename_i p hp
      unfold punctAt? at hp
      have hfound := List.find?_some hp
      have hstarts := (Bool.and_eq_true_iff.1 hfound).1
      exact fun _ _ => ⟨rfl, (punct_startsWith_eq p hrest).2 hstarts, rfl⟩
    · exact hunknown

end

end ModuleBundler.Syntax
