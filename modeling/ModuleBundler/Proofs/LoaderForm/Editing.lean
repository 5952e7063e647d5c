import Mathlib.Data.List.Pairwise
import ModuleBundler.LoaderForm.Edit
import ModuleBundler.Proofs.Syntax.Hits

/-!
# Edits that are made at once

`applyInOrder` makes an edit if it does not begin inside of text that has been replaced, and passes over
it otherwise.  `madeFrom` and `passedFrom` are the edits of either kind.

* `replaced_applyInOrder` — what comes out is the text with the old characters of each edit that is made
  replaced by its new ones, and with all others as they were (`Replaced`);
* `perm_madeFrom` and `perm_passedFrom` — where some edits stand apart and each of the others lies inside
  of one of them, exactly the first are made, in whatever order the edits are listed;
* `mem_madeFrom_of_inside` — an edit is passed over only behind the one that it lies inside of;
* `exists_append_of_sorted` and `Replaced.exists_split` — edits on both sides of an offset are made on both
  sides of it.
-/

namespace ModuleBundler.LoaderForm

open ModuleBundler.Syntax

/-! ## Made and passed over -/

/-- The edits of a list that are made from a cursor on. -/
def madeFrom (cursor : Nat) : List Edit → List Edit
  | [] => []
  | e :: es => if e.span.start < cursor then madeFrom cursor es else e :: madeFrom e.span.stop es

/-- The edits of a list that are passed over from a cursor on. -/
def passedFrom (cursor : Nat) : List Edit → List Edit
  | [] => []
  | e :: es =>
    if e.span.start < cursor then e :: passedFrom cursor es else passedFrom e.span.stop es

/-- The end of the last edit that is made, or the cursor if there is none. -/
def cursorBehind (cursor : Nat) : List Edit → Nat
  | [] => cursor
  | e :: es => if e.span.start < cursor then cursorBehind cursor es else cursorBehind e.span.stop es

section Lists

variable {cursor : Nat} {es : List Edit}

theorem passedFrom_append (before after : List Edit) : passedFrom cursor (before ++ after) =
    passedFrom cursor before ++ passedFrom (cursorBehind cursor before) after := by
  induction before generalizing cursor with
  | nil => rfl
  | cons e before ih =>
    rw [List.cons_append, passedFrom, passedFrom, cursorBehind]
    split
    · rw [ih, List.cons_append]
    · exact ih

/-- Each edit is made once or passed over once. -/
theorem perm_made_passed (cursor : Nat) (es : List Edit) :
    (madeFrom cursor es ++ passedFrom cursor es).Perm es := by
  induction es generalizing cursor with
  | nil => exact .nil
  | cons e es ih =>
    rw [madeFrom, passedFrom]
    split
    · exact List.perm_middle.trans ((ih cursor).cons e)
    · exact (ih e.span.stop).cons e

end Lists

/-! ## The text that comes out -/

/-- A text, which begins at an offset, becomes another one when the old characters of some edits are
replaced by their new ones, and everything between is copied. -/
inductive Replaced : Nat → List Char → List Edit → List Char → Prop
  | done (offset : Nat) (text : List Char) : Replaced offset text [] text
  | edit {offset : Nat} {gap old rest out : List Char} {e : Edit} {es : List Edit} :
      offset + gap.length = e.span.start → e.span.start + old.length = e.span.stop →
      Replaced e.span.stop rest es out →
      Replaced offset (gap ++ (old ++ rest)) (e :: es) (gap ++ (e.text ++ out))

theorem replaced_applyInOrder {text : List Char} {es : List Edit}
    (h : ∀ e ∈ es, e.span.start ≤ e.span.stop ∧ e.span.stop ≤ text.length) (cursor : Nat) :
    Replaced cursor (text.drop cursor) (madeFrom cursor es) (applyInOrder cursor text es) := by
  induction es generalizing cursor with
  | nil => exact .done _ _
  | cons e es ih =>
    obtain ⟨⟨hle, hstop⟩, hes⟩ := List.forall_mem_cons.1 h
    rw [madeFrom, applyInOrder]
    split
    · exact ih hes cursor
    · rename_i hcursor
      have hfrom : cursor ≤ e.span.start := Nat.le_of_not_lt hcursor
      -- what is left of the text is what is copied, what is replaced, and what is behind that
      have hsplit : text.drop cursor = (text.drop cursor).take (e.span.start - cursor) ++
          ((text.drop e.span.start).take (e.span.stop - e.span.start) ++ text.drop e.span.stop) := by
        have hold := List.take_append_drop (e.span.stop - e.span.start) (text.drop e.span.start)
        have hgap := List.take_append_drop (e.span.start - cursor) (text.drop cursor)
        rw [List.drop_drop, Nat.add_sub_cancel' hle] at hold
        rw [List.drop_drop, Nat.add_sub_cancel' hfrom, ← hold] at hgap
        exact hgap.symm
      have hgap : cursor + ((text.drop cursor).take (e.span.start - cursor)).length =
          e.span.start := by
        rw [List.length_take, List.length_drop]
        omega
      have hold : e.span.start +
          ((text.drop e.span.start).take (e.span.stop - e.span.start)).length = e.span.stop := by
        rw [List.length_take, List.length_drop]
        omega
      generalize (text.drop cursor).take (e.span.start - cursor) = gap at hsplit hgap ⊢
      rw [hsplit, List.append_assoc]
      exact .edit hgap hold (ih hes e.span.stop)

theorem Replaced.eq_self {offset : Nat} {text out : List Char} (h : Replaced offset text [] out) :
    out = text := by
  cases h
  rfl

/-- One edit replaces the text between what is in front of it and what is behind it. -/
theorem Replaced.of_singleton {offset : Nat} {text out : List Char} {e : Edit}
    (h : Replaced offset text [e] out) : ∃ before old after,
      text = before ++ (old ++ after) ∧ out = before ++ (e.text ++ after) ∧
        offset + before.length = e.span.start ∧ e.span.start + old.length = e.span.stop := by
  cases h with
  | edit hgap hold hrest =>
    rw [hrest.eq_self]
    exact ⟨_, _, _, rfl, rfl, hgap, hold⟩

/-- One edit replaces some text, and behind it some more is put in. -/
theorem Replaced.of_insert {offset place : Nat} {text out : List Char} {e : Edit} {added : String}
    (h : Replaced offset text [e, .insert place added] out) : ∃ before old middle after,
      text = before ++ (old ++ (middle ++ after)) ∧
        out = before ++ (e.text ++ (middle ++ (added.toList ++ after))) ∧
        offset + before.length = e.span.start ∧ e.span.start + old.length = e.span.stop ∧
        e.span.stop + middle.length = place := by
  cases h with
  | edit hgap hold hrest =>
    obtain ⟨middle, nothing, after, rfl, rfl, hmiddle, hnothing⟩ := hrest.of_singleton
    have hlength : nothing.length = 0 := Nat.add_left_cancel hnothing
    obtain rfl := List.length_eq_zero_iff.1 hlength
    exact ⟨_, _, middle, after, rfl, rfl, hgap, hold, hmiddle⟩

/-- Where edits only take text away, nothing is added. -/
theorem Replaced.length_le {offset : Nat} {text out : List Char} {es : List Edit}
    (h : Replaced offset text es out) (hempty : ∀ e ∈ es, e.text = []) : out.length ≤ text.length := by
  induction h with
  | done => exact Nat.le_refl _
  | edit _ _ _ ih =>
    obtain ⟨he, hes⟩ := List.forall_mem_cons.1 hempty
    have hrest := ih hes
    rw [he]
    simp only [List.length_append, List.length_nil]
    omega

/-- Where edits only take text away, and one of them some, there is less of it. -/
theorem Replaced.length_lt {offset : Nat} {text out : List Char} {es : List Edit}
    (h : Replaced offset text es out) (hempty : ∀ e ∈ es, e.text = []) {e : Edit} (he : e ∈ es)
    (hlt : e.span.start < e.span.stop) : out.length < text.length := by
  induction h with
  | done => cases he
  | @edit _ _ _ _ _ d _ _ hold hrest ih =>
    obtain ⟨hd, hes⟩ := List.forall_mem_cons.1 hempty
    rw [hd]
    simp only [List.length_append, List.length_nil]
    rcases List.mem_cons.1 he with rfl | he
    · have hle := hrest.length_le hes
      omega
    · have hless := ih hes he
      omega

/-! ## Edits that stand apart -/

/-- One edit comes before another one, or could. -/
def Edit.Before (a b : Edit) : Prop :=
  a.span.start < b.span.start ∨ (a.span.start = b.span.start ∧ a.span.stop ≤ b.span.stop)

theorem Edit.le_iff (a b : Edit) : a.le b = true ↔ a.Before b := by
  unfold Edit.le Edit.Before
  simp only [Bool.or_eq_true, Bool.and_eq_true, decide_eq_true_eq, beq_iff_eq]

theorem Edit.Before.start_le {a b : Edit} (h : a.Before b) : a.span.start ≤ b.span.start := by
  rcases h with h | ⟨h, -⟩
  · exact Nat.le_of_lt h
  · exact Nat.le_of_eq h

/-- Of two edits that stand apart, one comes to its end before the other begins. -/
theorem Edit.Before.stop_le {a b : Edit} (h : a.Before b) (hapart : a.span.Apart b.span)
    (hb : b.span.start ≤ b.span.stop) : a.span.stop ≤ b.span.start := by
  rcases hapart with hab | hba
  · exact hab
  · rcases h with h | ⟨h, hstop⟩ <;> omega

theorem sorted_mergeSort (es : List Edit) : (es.mergeSort Edit.le).Pairwise Edit.Before := by
  refine List.Pairwise.imp (fun {a b} => (Edit.le_iff a b).1)
    (List.pairwise_mergeSort (fun a b c hab hbc => ?_) (fun a b => ?_) es)
  · rw [Edit.le_iff] at hab hbc ⊢
    unfold Edit.Before at hab hbc ⊢
    omega
  · rw [Bool.or_eq_true, Edit.le_iff, Edit.le_iff]
    unfold Edit.Before
    omega

/-- An edit lies inside of another one, behind its beginning. -/
def Edit.Inside (x d : Edit) : Prop :=
  d.span.start < x.span.start ∧ x.span.start < x.span.stop ∧ x.span.stop ≤ d.span.stop

section Apart

variable (nested : Edit → Bool)

/-- From a cursor on, edits stand apart or are nested in one that stands there too, or already stood
before the cursor. -/
structure Orderly (cursor : Nat) (es : List Edit) : Prop where
  sorted : es.Pairwise Edit.Before
  le : ∀ e ∈ es, e.span.start ≤ e.span.stop
  apart : es.Pairwise fun a b => nested a = false → nested b = false → a.span.Apart b.span
  behind : ∀ e ∈ es, nested e = false → cursor ≤ e.span.start
  inside : ∀ x ∈ es, nested x = true →
    x.span.start < cursor ∨ ∃ d ∈ es, nested d = false ∧ x.Inside d

variable {nested} {cursor : Nat} {e : Edit} {es : List Edit}

/-- A nested edit at the front is one that begins before the cursor. -/
theorem Orderly.lt_of_nested (h : Orderly nested cursor (e :: es)) (he : nested e = true) :
    e.span.start < cursor ∧ Orderly nested cursor es := by
  obtain ⟨hbefore, hsorted⟩ := List.pairwise_cons.1 h.sorted
  refine ⟨?_, hsorted, fun d hd => h.le d (List.mem_cons_of_mem e hd), (List.pairwise_cons.1 h.apart).2,
    fun d hd => h.behind d (List.mem_cons_of_mem e hd), fun x hx hnested => ?_⟩
  · rcases h.inside e List.mem_cons_self he with hlt | ⟨d, hd, hplain, hinside⟩
    · exact hlt
    · rcases List.mem_cons.1 hd with rfl | hd
      · exact absurd he (Bool.eq_false_iff.1 hplain)
      · exact absurd hinside.1 (Nat.not_lt.2 (hbefore d hd).start_le)
  · rcases h.inside x (List.mem_cons_of_mem e hx) hnested with hlt | ⟨d, hd, hplain, hinside⟩
    · exact .inl hlt
    · rcases List.mem_cons.1 hd with rfl | hd
      · exact absurd he (Bool.eq_false_iff.1 hplain)
      · exact .inr ⟨d, hd, hplain, hinside⟩

/-- Behind an edit that is made, the others are orderly from its end on. -/
theorem Orderly.le_of_plain (h : Orderly nested cursor (e :: es)) (he : nested e = false) :
    cursor ≤ e.span.start ∧ Orderly nested e.span.stop es := by
  obtain ⟨hbefore, hsorted⟩ := List.pairwise_cons.1 h.sorted
  obtain ⟨hapart, hes⟩ := List.pairwise_cons.1 h.apart
  have hcursor := h.behind e List.mem_cons_self he
  refine ⟨hcursor, hsorted, fun d hd => h.le d (List.mem_cons_of_mem e hd), hes,
    fun d hd hplain => ?_, fun x hx hnested => ?_⟩
  · exact (hbefore d hd).stop_le (hapart d hd he hplain) (h.le d (List.mem_cons_of_mem e hd))
  · rcases h.inside x (List.mem_cons_of_mem e hx) hnested with hlt | ⟨d, hd, hplain, hinside⟩
    · exact absurd (Nat.le_trans hcursor (hbefore x hx).start_le) (Nat.not_le.2 hlt)
    · rcases List.mem_cons.1 hd with rfl | hd
      · exact .inl (Nat.lt_of_lt_of_le hinside.2.1 hinside.2.2)
      · exact .inr ⟨d, hd, hplain, hinside⟩

/-- Exactly the edits are made that are not nested. -/
theorem Orderly.madeFrom_eq (h : Orderly nested cursor es) :
    madeFrom cursor es = es.filter (!nested ·) ∧ passedFrom cursor es = es.filter nested := by
  induction es generalizing cursor with
  | nil => exact ⟨rfl, rfl⟩
  | cons e es ih =>
    cases he : nested e with
    | true =>
      obtain ⟨hlt, hes⟩ := h.lt_of_nested he
      obtain ⟨hmade, hpassed⟩ := ih hes
      rw [madeFrom, passedFrom, if_pos hlt, if_pos hlt, hmade, hpassed]
      simp only [List.filter_cons, he, Bool.not_true, Bool.false_eq_true, if_false, if_true, and_self]
    | false =>
      obtain ⟨hle, hes⟩ := h.le_of_plain he
      obtain ⟨hmade, hpassed⟩ := ih hes
      rw [madeFrom, passedFrom, if_neg (Nat.not_lt.2 hle), if_neg (Nat.not_lt.2 hle), hmade, hpassed]
      simp only [List.filter_cons, he, Bool.not_false, Bool.false_eq_true, if_false, if_true, and_self]

end Apart

/-- An edit of a list is passed over only if it begins before the end of the last one that is made. -/
theorem mem_passedFrom_of_lt {cursor : Nat} {before after : List Edit} {e : Edit}
    (h : e.span.start < cursorBehind cursor before) :
    e ∈ passedFrom cursor (before ++ e :: after) := by
  rw [passedFrom_append, passedFrom, if_pos h]
  exact List.mem_append_right _ List.mem_cons_self

section Sorting

variable {es kept inner : List Edit} (hperm : es.Perm (kept ++ inner))
  (hle : ∀ e ∈ kept, e.span.start ≤ e.span.stop)
  (hapart : kept.Pairwise fun a b => a.span.Apart b.span)
  (hinside : ∀ x ∈ inner, ∃ d ∈ kept, x.Inside d)

section Kept

include hapart hinside

/-- No edit lies inside of one that it stands apart from. -/
theorem not_mem_inner {d : Edit} (hd : d ∈ kept) : d ∉ inner := by
  intro hmem
  obtain ⟨d', hd', hstart, hlt, hstop⟩ := hinside d hmem
  have hne : d ≠ d' := by
    rintro rfl
    exact Nat.lt_irrefl _ hstart
  have hsymm : Std.Symm fun a b : Edit => a.span.Apart b.span := ⟨fun _ _ => Span.Apart.symm⟩
  rcases hapart.forall hd hd' hne with hbefore | hbehind
  · exact absurd (Nat.lt_trans hstart hlt) (Nat.not_lt.2 hbefore)
  · exact absurd (Nat.lt_of_lt_of_le hlt hstop) (Nat.not_lt.2 hbehind)

include hperm hle

theorem orderly_mergeSort : Orderly (fun e => decide (e ∈ inner)) 0 (es.mergeSort Edit.le) := by
  have hsort : (es.mergeSort Edit.le).Perm (kept ++ inner) := (List.mergeSort_perm es _).trans hperm
  refine ⟨sorted_mergeSort es, fun e he => ?_, ?_, fun _ _ _ => Nat.zero_le _, fun x _ hx => ?_⟩
  · rcases List.mem_append.1 (hsort.mem_iff.1 he) with he | he
    · exact hle e he
    · obtain ⟨_, -, -, hlt, -⟩ := hinside e he
      exact Nat.le_of_lt hlt
  · refine (List.Perm.pairwise_iff (fun h hb ha => (h ha hb).symm) hsort).2 ?_
    refine List.pairwise_append.2 ⟨hapart.imp fun h _ _ => h, List.pairwise_of_forall_mem_list ?_, ?_⟩
    · exact fun a ha _ _ hplain => absurd ha (of_decide_eq_false hplain)
    · exact fun _ _ b hb _ hplain => absurd hb (of_decide_eq_false hplain)
  · obtain ⟨d, hd, hin⟩ := hinside x (of_decide_eq_true hx)
    exact .inr ⟨d, hsort.mem_iff.2 (List.mem_append_left _ hd),
      decide_eq_false (not_mem_inner hapart hinside hd), hin⟩

/-- Exactly the edits inside of others are passed over. -/
theorem perm_passedFrom : (passedFrom 0 (es.mergeSort Edit.le)).Perm inner := by
  have hfilter := (((List.mergeSort_perm es Edit.le).trans hperm).filter fun e => decide (e ∈ inner))
  rw [(orderly_mergeSort hperm hle hapart hinside).madeFrom_eq.2]
  refine hfilter.trans (List.Perm.of_eq ?_)
  rw [List.filter_append, List.filter_eq_nil_iff.2, List.filter_eq_self.2, List.nil_append]
  · exact fun e he => decide_eq_true he
  · exact fun e he hmem => not_mem_inner hapart hinside he (of_decide_eq_true hmem)

/-- All other edits are made. -/
theorem perm_madeFrom : (madeFrom 0 (es.mergeSort Edit.le)).Perm kept := by
  have hall := ((perm_made_passed 0 (es.mergeSort Edit.le)).trans (List.mergeSort_perm es _)).trans hperm
  exact (List.perm_append_right_iff inner).1
    (((perm_passedFrom hperm hle hapart hinside).append_left _).symm.trans hall)

/-- An edit is made before each one that lies inside of it is passed over. -/
theorem mem_madeFrom_of_inside {before after : List Edit} {x d : Edit}
    (hsplit : es.mergeSort Edit.le = before ++ x :: after) (hd : d ∈ kept) (hin : x.Inside d) :
    d ∈ madeFrom 0 before := by
  have hmem : d ∈ es.mergeSort Edit.le :=
    ((List.mergeSort_perm es _).trans hperm).mem_iff.2 (List.mem_append_left _ hd)
  have hsorted := sorted_mergeSort es
  rw [hsplit] at hmem hsorted
  rcases List.mem_append.1 hmem with hbefore | hbehind
  · refine (List.mem_append.1 ((perm_made_passed 0 before).mem_iff.2 hbefore)).resolve_right ?_
    intro hpassed
    have hall := perm_passedFrom hperm hle hapart hinside
    rw [hsplit, passedFrom_append] at hall
    exact not_mem_inner hapart hinside hd (hall.mem_iff.1 (List.mem_append_left _ hpassed))
  · refine absurd hin.1 (Nat.not_lt.2 ?_)
    rcases List.mem_cons.1 hbehind with rfl | hbehind
    · exact Nat.le_refl _
    · exact ((List.pairwise_cons.1 (List.pairwise_append.1 hsorted).2.1).1 d hbehind).start_le

end Kept

end Sorting

/-! ## Edits on both sides of an offset -/

theorem madeFrom_sublist (cursor : Nat) (es : List Edit) : (madeFrom cursor es).Sublist es := by
  induction es generalizing cursor with
  | nil => exact .slnil
  | cons e es ih =>
    rw [madeFrom]
    split
    · exact (ih cursor).cons e
    · exact (ih e.span.stop).cons_cons e

/-- A list in which no element that passes a test comes behind one that fails is those that pass and then
those that fail. -/
theorem eq_filter_append_filter {α : Type} (p : α → Bool) {l : List α}
    (h : l.Pairwise fun a b => p b = true → p a = true) :
    l = l.filter p ++ l.filter (!p ·) := by
  induction l with
  | nil => rfl
  | cons a l ih =>
    obtain ⟨ha, hl⟩ := List.pairwise_cons.1 h
    cases hp : p a with
    | true => simpa [hp] using ih hl
    | false =>
      have hnone : ∀ b ∈ l, p b = false := by
        intro b hb
        by_contra hpass
        have hback := ha b hb (by simpa using hpass)
        rw [hp] at hback
        cases hback
      have hpass : (a :: l).filter p = [] := List.filter_eq_nil_iff.2
        (List.forall_mem_cons.2 ⟨by simp [hp], fun b hb => by simp [hnone b hb]⟩)
      have hfail : (a :: l).filter (!p ·) = a :: l := List.filter_eq_self.2
        (List.forall_mem_cons.2 ⟨by simp [hp], fun b hb => by simp [hnone b hb]⟩)
      rw [hpass, hfail, List.nil_append]

/-- Two edits that begin at different offsets have one order. -/
theorem eq_pair_of_perm {es : List Edit} {a b : Edit} (hsorted : es.Pairwise Edit.Before)
    (hperm : es.Perm [a, b]) (hlt : a.span.start < b.span.start) : es = [a, b] := by
  have hpair : [a, b].Pairwise Edit.Before :=
    List.pairwise_cons.2 ⟨List.forall_mem_singleton.2 (.inl hlt), List.pairwise_singleton _ _⟩
  refine List.Perm.eq_of_pairwise (fun x y hx hy hxy hyx => ?_) hsorted hpair hperm
  have hsame := Nat.le_antisymm hxy.start_le hyx.start_le
  have hx := hperm.mem_iff.1 hx
  simp only [List.mem_cons, List.not_mem_nil, or_false] at hx hy
  rcases hx with rfl | rfl <;> rcases hy with rfl | rfl
  · rfl
  · exact absurd hsame (Nat.ne_of_lt hlt)
  · exact absurd hsame.symm (Nat.ne_of_lt hlt)
  · rfl

/-- Edits of two kinds are made one kind after the other, if the first comes before the second. -/
theorem exists_append_of_pairwise (p : Edit → Bool) {es a b : List Edit}
    (hpairs : es.Pairwise fun d e => p e = true → p d = true) (hperm : es.Perm (a ++ b))
    (ha : ∀ e ∈ a, p e = true) (hb : ∀ e ∈ b, p e = false) :
    ∃ a' b', es = a' ++ b' ∧ a'.Perm a ∧ b'.Perm b := by
  refine ⟨es.filter p, es.filter (!p ·), eq_filter_append_filter p hpairs, ?_, ?_⟩
  · refine (hperm.filter _).trans (List.Perm.of_eq ?_)
    rw [List.filter_append, List.filter_eq_self.2 ha, List.filter_eq_nil_iff.2, List.append_nil]
    exact fun e he => by simp [hb e he]
  · refine (hperm.filter _).trans (List.Perm.of_eq ?_)
    rw [List.filter_append, List.filter_eq_nil_iff.2, List.filter_eq_self.2, List.nil_append]
    · exact fun e he => by simp [hb e he]
    · exact fun e he => by simp [ha e he]

/-- An edit ends at an offset or before it. -/
def Edit.endsBy (offset : Nat) (e : Edit) : Bool := decide (e.span.stop ≤ offset)

/-- In the order in which edits are made, those that end before an offset or at it come before those that
begin there or behind it. -/
theorem exists_append_of_sorted {es a b : List Edit} {mid : Nat} (hsorted : es.Pairwise Edit.Before)
    (hperm : es.Perm (a ++ b)) (ha : ∀ e ∈ a, e.span.start ≤ e.span.stop ∧ e.span.stop ≤ mid)
    (hb : ∀ e ∈ b, mid ≤ e.span.start ∧ mid < e.span.stop) :
    ∃ a' b', es = a' ++ b' ∧ a'.Perm a ∧ b'.Perm b := by
  have hends : ∀ e ∈ a, e.endsBy mid = true := fun e he => decide_eq_true (ha e he).2
  have hgoes : ∀ e ∈ b, e.endsBy mid = false := fun e he => decide_eq_false (Nat.not_le.2 (hb e he).2)
  have hside : ∀ e ∈ es, e ∈ a ∨ e ∈ b := fun e he => List.mem_append.1 (hperm.mem_iff.1 he)
  refine exists_append_of_pairwise (Edit.endsBy mid) (hsorted.imp_of_mem fun {d e} hd he hbefore hpass => ?_)
    hperm hends hgoes
  rcases hside d hd with hd | hd
  · exact hends d hd
  · -- an edit behind the offset does not come before one in front of it
    rcases hside e he with he | he
    · have hstart := hbefore.start_le
      have hde : d.span.start < e.span.start ∨ d.span.stop ≤ e.span.stop := by
        rcases hbefore with hlt | ⟨-, hle⟩
        · exact .inl hlt
        · exact .inr hle
      have := ha e he
      have := hb d hd
      omega
    · rw [hgoes e he] at hpass
      cases hpass

/-- An edit that begins behind the beginnings of all others is made last. -/
theorem exists_concat_of_sorted {es a : List Edit} {last : Edit} (hsorted : es.Pairwise Edit.Before)
    (hperm : es.Perm (a ++ [last])) (ha : ∀ e ∈ a, e.span.start < last.span.start) :
    ∃ a', es = a' ++ [last] ∧ a'.Perm a := by
  obtain ⟨a', b', rfl, ha', hb'⟩ := exists_append_of_pairwise
    (fun e => decide (e.span.start < last.span.start))
    (hsorted.imp fun {d e} hbefore hpass =>
      decide_eq_true (Nat.lt_of_le_of_lt hbefore.start_le (of_decide_eq_true hpass)))
    hperm (fun e he => decide_eq_true (ha e he))
    (List.forall_mem_singleton.2 (decide_eq_false (Nat.lt_irrefl _)))
  obtain rfl := List.perm_singleton.1 hb'
  exact ⟨a', rfl, ha'⟩

/-- Where edits stand on both sides of an offset, what comes out of the text comes out of what is in front
of the offset, and of what is behind it. -/
theorem Replaced.exists_split {offset mid : Nat} {text out : List Char} {es es' : List Edit}
    (h : Replaced offset text (es ++ es') out) (hes : ∀ e ∈ es, e.span.stop ≤ mid)
    (hes' : ∀ e ∈ es', mid ≤ e.span.start) (hle : offset ≤ mid) (hmid : mid ≤ offset + text.length) :
    ∃ front back frontOut backOut, text = front ++ back ∧ out = frontOut ++ backOut ∧
      offset + front.length = mid ∧ Replaced offset front es frontOut ∧
        Replaced mid back es' backOut := by
  induction es generalizing offset text out with
  | nil =>
    rw [List.nil_append] at h
    cases h with
    | done =>
      have hlength : offset + (text.take (mid - offset)).length = mid := by
        rw [List.length_take]
        omega
      exact ⟨_, _, _, _, (List.take_append_drop (mid - offset) text).symm,
        (List.take_append_drop (mid - offset) text).symm, hlength, .done _ _, .done _ _⟩
    | @edit _ gap old rest out e es' hgap hold hrest =>
      have hstart := hes' e List.mem_cons_self
      have hlength : offset + (gap.take (mid - offset)).length = mid := by
        rw [List.length_take]
        omega
      have hbehind : mid + (gap.drop (mid - offset)).length = e.span.start := by
        rw [List.length_drop]
        omega
      have hsplit : ∀ l : List Char,
          gap ++ l = gap.take (mid - offset) ++ (gap.drop (mid - offset) ++ l) := fun l => by
        rw [← List.append_assoc (gap.take (mid - offset)), List.take_append_drop]
      exact ⟨_, _, _, _, hsplit (old ++ rest), hsplit (e.text ++ out), hlength, .done _ _,
        .edit hbehind hold hrest⟩
  | cons e es ih =>
    rw [List.cons_append] at h
    obtain ⟨he, hes⟩ := List.forall_mem_cons.1 hes
    cases h with
    | @edit _ gap old rest out _ _ hgap hold hrest =>
      simp only [List.length_append] at hmid
      obtain ⟨front, back, frontOut, backOut, rfl, rfl, hlength, hfront, hback⟩ :=
        ih hrest hes he (by omega)
      refine ⟨gap ++ (old ++ front), back, gap ++ (e.text ++ frontOut), backOut, ?_, ?_, ?_,
        .edit hgap hold hfront, hback⟩
      · simp only [List.append_assoc]
      · simp only [List.append_assoc]
      · simp only [List.length_append]
        omega

/-- What stands behind some of the edits comes out by the others alone. -/
theorem Replaced.exists_rest {offset : Nat} {text behind out : List Char} {es es' : List Edit}
    (h : Replaced offset (text ++ behind) (es ++ es') out)
    (hes : ∀ e ∈ es, e.span.stop ≤ offset + text.length)
    (hes' : ∀ e ∈ es', offset + text.length ≤ e.span.start) :
    ∃ written rest, out = written ++ rest ∧ Replaced (offset + text.length) behind es' rest := by
  obtain ⟨front, back, frontOut, backOut, hsplit, rfl, hlength, -, hback⟩ :=
    h.exists_split hes hes' (Nat.le_add_right _ _) (by rw [List.length_append]; omega)
  obtain ⟨-, rfl⟩ := List.append_inj hsplit (by omega)
  exact ⟨frontOut, backOut, rfl, hback⟩

/-- Behind all edits, the text is copied. -/
theorem Replaced.copied {offset : Nat} {text behind out : List Char} {es : List Edit}
    (h : Replaced offset (text ++ behind) es out)
    (hes : ∀ e ∈ es, e.span.stop ≤ offset + text.length) : ∃ written, out = written ++ behind := by
  rw [← List.append_nil es] at h
  obtain ⟨written, rest, rfl, hrest⟩ := h.exists_rest hes fun _ he => absurd he List.not_mem_nil
  rw [hrest.eq_self]
  exact ⟨written, rfl⟩

/-- Behind all others, an insertion comes in front of what is copied. -/
theorem Replaced.inserted {offset place : Nat} {text behind out : List Char} {es : List Edit}
    {added : String} (h : Replaced offset (text ++ behind) (es ++ [.insert place added]) out)
    (hplace : offset + text.length = place) (hes : ∀ e ∈ es, e.span.stop ≤ place) :
    ∃ written, out = written ++ (added.toList ++ behind) := by
  subst hplace
  obtain ⟨written, rest, rfl, hrest⟩ :=
    h.exists_rest hes (List.forall_mem_singleton.2 (Nat.le_refl _))
  obtain ⟨before, old, after, rfl, rfl, hbefore, hold⟩ := hrest.of_singleton
  obtain rfl : before = [] := List.length_eq_zero_iff.1 (Nat.add_eq_left.1 hbefore)
  obtain rfl : old = [] := List.length_eq_zero_iff.1 (Nat.add_eq_left.1 hold)
  exact ⟨written, rfl⟩

/-- Where some edits stand in front of an offset, and all others between it and a second one, the text has
three parts, the last of which is copied. -/
theorem Replaced.exists_between {lo hi : Nat} {text out : List Char} {es a b : List Edit}
    (h : Replaced 0 text es out) (hsorted : es.Pairwise Edit.Before) (hperm : es.Perm (a ++ b))
    (ha : ∀ e ∈ a, e.span.start ≤ e.span.stop ∧ e.span.stop ≤ lo)
    (hb : ∀ e ∈ b, lo ≤ e.span.start ∧ lo < e.span.stop ∧ e.span.stop ≤ hi) (hle : lo ≤ hi)
    (hhi : hi ≤ text.length) : ∃ a' b' front middle rest frontOut middleOut,
      text = front ++ (middle ++ rest) ∧ out = frontOut ++ (middleOut ++ rest) ∧ front.length = lo ∧
        lo + middle.length = hi ∧ a'.Perm a ∧ b'.Perm b ∧ b'.Pairwise Edit.Before ∧
        Replaced 0 front a' frontOut ∧ Replaced lo middle b' middleOut := by
  obtain ⟨a', b', rfl, ha', hb'⟩ :=
    exists_append_of_sorted hsorted hperm ha fun e he => ⟨(hb e he).1, (hb e he).2.1⟩
  obtain ⟨front, behind, frontOut, behindOut, rfl, rfl, hlo, hfront, hbehind⟩ := h.exists_split
    (fun e he => (ha e (ha'.mem_iff.1 he)).2) (fun e he => (hb e (hb'.mem_iff.1 he)).1)
    (Nat.zero_le lo) (by omega)
  rw [List.length_append] at hhi
  rw [← List.append_nil b'] at hbehind
  obtain ⟨middle, rest, middleOut, restOut, rfl, rfl, hlength, hmiddle, hrest⟩ := hbehind.exists_split
    (fun e he => (hb e (hb'.mem_iff.1 he)).2.2) (fun e he => absurd he List.not_mem_nil) hle (by omega)
  refine ⟨a', b', front, middle, rest, frontOut, middleOut, rfl, ?_, by omega, hlength, ha', hb',
    (List.pairwise_append.1 hsorted).2.1, hfront, hmiddle⟩
  rw [hrest.eq_self]

end ModuleBundler.LoaderForm
