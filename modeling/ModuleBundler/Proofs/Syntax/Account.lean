import ModuleBundler.Proofs.Syntax.Hits
import ModuleBundler.Proofs.Syntax.Parsing
import ModuleBundler.Proofs.Syntax.Property

/-!
# References stand where they were read

The grammar takes each token once, and passes the tree that it makes of it on once.  To say so for all
of the grammar, one offset of the text is watched (`Watch`) while the references that hit it are counted
(`Counted`): from the beginning of the step they are one at most, and none before the offset has been
passed.  `Carries` says that a step keeps this account, given what its inputs and its answer count, and
`Reads` that a step which is given nothing accounts for the tree that it answers.

* `Carries.bind`, `Carries.also`, `Carries.node` and the rules for loops follow the pieces that the
  grammar is put together from;
* `passes_advance` — a token that is passed lies behind the one before it;
* `reads_identifierReference` — a reference is the token that was passed, a word, and so all that it hits are
  characters of names (`NamePartAt`).
-/

namespace ModuleBundler.Syntax

open Parse Grammar

/-! ## Accounts -/

/-- At an offset of a text, there is a character of a name. -/
def NamePartAt (text : List Char) (k : Nat) : Prop := ∃ x, text[k]? = some x ∧ isNamePart x = true

/-- The current token stands behind the previous one in a text. -/
structure ParseState.Sited (text : List Char) (s : ParseState) : Prop where
  budget_pos : 0 < s.budget
  token : ∃ c : Cursor, c.offset = s.prevStop ∧ Cursor.Reaches ⟨text, 0⟩ c ∧ s.token.Between c s.next
  /-- A word stands on characters of names. -/
  word : AtWord s → ∀ k, s.token.span.start ≤ k → k < s.token.span.stop → NamePartAt text k

theorem ParseState.Sited.prev_le {text : List Char} {s : ParseState} (h : s.Sited text) :
    s.prevStop ≤ s.token.span.start := by
  obtain ⟨c, hc, -, hbetween⟩ := h.token
  exact hc ▸ hbetween.offset_le

theorem ParseState.Sited.start_le_length {text : List Char} {s : ParseState} (h : s.Sited text) :
    s.token.span.start ≤ text.length := by
  obtain ⟨-, ⟨c, -, hc, hbetween⟩, -⟩ := h
  have hstop := hbetween.le_stop
  have htotal := (hc.trans hbetween.reaches).total_eq
  rw [hbetween.stop_eq] at hstop
  dsimp only at htotal
  omega

/-- An offset of a text that is watched, and where watching has begun. -/
structure Watch where
  text : List Char
  start : Nat
  offset : Nat

/-- So many references hit the offset that is watched. -/
structure Counted (v : Watch) (count : Nat) (s : ParseState) : Prop where
  sited : s.Sited v.text
  start_le : v.start ≤ s.token.span.start
  le_one : count ≤ 1
  passed : 0 < count → v.start ≤ v.offset ∧ v.offset < s.prevStop
  name : 0 < count → NamePartAt v.text v.offset

theorem Counted.mono {v : Watch} {count count' : Nat} {s : ParseState} (h : Counted v count s)
    (hle : count' ≤ count) : Counted v count' s where
  sited := h.sited
  start_le := h.start_le
  le_one := Nat.le_trans hle h.le_one
  passed hpos := h.passed (Nat.lt_of_lt_of_le hpos hle)
  name hpos := h.name (Nat.lt_of_lt_of_le hpos hle)

variable {α β : Type} {v : Watch} {c d : Nat}

/-- Whatever has been counted besides the `given`, a step answers something that counts for it. -/
def Carries (v : Watch) (given : Nat) (p : Parse α) (count : α → Nat) : Prop :=
  ∀ others, Leads (Counted v (others + given)) p fun a => Counted v (others + count a)

/-- A step answers something that does not count. -/
def Passes (v : Watch) (p : Parse α) : Prop := Carries v 0 p fun _ => 0

/-- A step accounts for the tree that it answers. -/
def Reads (v : Watch) (p : Parse Node) : Prop := Carries v 0 p (Node.hits v.offset)

/-- A step accounts for the trees that it answers. -/
def ReadsEach (v : Watch) (p : Parse (List Node)) : Prop := Carries v 0 p (hitsEach v.offset)

namespace Carries

variable {p q : Parse α} {w w' : α → Nat} {u : β → Nat} {f : α → Parse β}

theorem mono (h : Carries v c p w) (hc : c ≤ d) (hw : ∀ a, w' a ≤ w a) : Carries v d p w' :=
  fun others => (h others).mono (fun _ hs => hs.mono (Nat.add_le_add_left hc others))
    fun a _ hs => hs.mono (Nat.add_le_add_left (hw a) others)

theorem pure {a : α} (h : w a ≤ c) : Carries v c (pure a) w := fun others =>
  .pure fun _ hs => hs.mono (Nat.add_le_add_left h others)

/-- A step takes all that is given, and the step behind it what it answers. -/
theorem bind (hp : Carries v c p w) (hf : ∀ a, Carries v (w a) (f a) u) :
    Carries v c (p >>= f) u := fun others => (hp others).bind fun a => hf a others

/-- What is given besides is kept. -/
theorem frame (hp : Carries v c p w) (d : Nat) : Carries v (d + c) p fun a => d + w a := by
  refine fun others => (hp (others + d)).mono (fun s hs => ?_) fun a s hs => ?_
  · rw [Nat.add_assoc]
    exact hs
  · rw [← Nat.add_assoc]
    exact hs

/-- The step behind can rely on what a step answers. -/
theorem bind_of {R : α → Prop} (hp : Carries v c p w) (hR : Yields p R)
    (hf : ∀ a, R a → Carries v (w a) (f a) u) : Carries v c (p >>= f) u := by
  intro others s b t hs hok
  obtain ⟨a, behind, ha, hb⟩ := bind_ok hok
  exact hf a (hR s a behind trivial ha) others behind b t (hp others s a behind hs ha) hb

/-- A step takes the last part of what is given. -/
theorem beside (hp : Carries v c p w) (hf : ∀ a, Carries v (d + w a) (f a) u) :
    Carries v (d + c) (p >>= f) u := (hp.frame d).bind hf

/-- A step takes the first part of what is given. -/
theorem before (hp : Carries v c p w) (hf : ∀ a, Carries v (w a + d) (f a) u) :
    Carries v (c + d) (p >>= f) u := by
  rw [Nat.add_comm]
  refine beside hp fun a => ?_
  rw [Nat.add_comm]
  exact hf a

/-- A step takes nothing of what is given. -/
theorem also (hp : Carries v 0 p w) (hf : ∀ a, Carries v (c + w a) (f a) u) :
    Carries v c (p >>= f) u := beside hp hf

/-- What a step answers does not count. -/
theorem behind (hp : Passes v p) (hf : ∀ a, Carries v c (f a) u) : Carries v c (p >>= f) u :=
  also hp hf

theorem look (hp : Steady p) (hf : ∀ a, Carries v c (f a) u) : Carries v c (p >>= f) u :=
  fun others => hp.leads.bind fun a => hf a others

theorem ite {b : Prop} [Decidable b] (hp : Carries v c p w) (hq : Carries v c q w) :
    Carries v c (if b then p else q) w := fun others => .ite (fun _ => hp others) fun _ => hq others

theorem fail {cause : Cause} {offset : Nat} : Carries v c (fail cause offset) w := fun _ => .fail

theorem unexpected : Carries v c unexpected w := fun _ => .unexpected

theorem expected {wanted : String} : Carries v c (expected wanted) w := fun _ => .expected

/-- Nothing is done behind a step that halts. -/
theorem halt (h : ∀ P, Leads P p fun _ _ => False) : Carries v c (p >>= f) u := fun _ =>
  (h _).bind fun _ _ _ _ hs => hs.elim

theorem permitting (h : Carries v c p w) (change : Permit → Permit) :
    Carries v c (permitting change p) w := fun others =>
  (h others).permitting
    (fun _ _ hs => ⟨⟨hs.sited.budget_pos, hs.sited.token, hs.sited.word⟩, hs.start_le, hs.le_one,
      hs.passed, hs.name⟩)
    (fun _ _ _ hs => ⟨⟨hs.sited.budget_pos, hs.sited.token, hs.sited.word⟩, hs.start_le, hs.le_one,
      hs.passed, hs.name⟩) change

/-- A step that is given up answers nothing that counts. -/
theorem attempt (h : Carries v 0 p w) : Carries v 0 (attempt p) fun found => (found.map w).getD 0 := by
  refine fun others => (h others).attempt.mono (fun _ hs => hs) fun found s hs => ?_
  cases found with
  | none => exact hs
  | some a => exact hs

theorem iterate {step : α → Parse (Option α)}
    (h : ∀ a, Carries v (w a) (step a) fun next => w (next.getD a)) (a : α) :
    Carries v (w a) (iterate step a) w := fun others =>
  Leads.iterate (I := fun a => Counted v (others + w a)) (fun a => h a others) a

end Carries

theorem passes_iterate {step : α → Parse (Option α)} (h : ∀ a, Passes v (step a)) (a : α) :
    Passes v (iterate step a) := Carries.iterate (w := fun _ => 0) h a

/-! ## Nodes -/

/-- A label is not that of a reference. -/
def Label.isPlain : Label → Bool
  | .reference _ => false
  | _ => true

theorem Label.hits_eq_zero {label : Label} (h : label.isPlain = true) (k : Nat) (span : Span) :
    label.hits k span = 0 := by
  cases label <;> first | rfl | cases h

/-- A node that is no reference counts what its children count. -/
theorem hits_mk {label : Label} (h : label.isPlain = true) (k : Nat) (span : Span)
    (children : List Node) :
    (Node.mk label span children).hits k = hitsEach k children := by
  rw [Node.hits, Label.hits_eq_zero h, Nat.zero_add]

theorem hits_mk_one {label : Label} (h : label.isPlain = true) (k : Nat) (span : Span) (a : Node) :
    (Node.mk label span [a]).hits k = a.hits k := hits_mk h k span [a]

section Nodes

variable {label : Label} {start : Nat}

theorem Carries.nodes (h : label.isPlain = true) (children : List Node) :
    Carries v (hitsEach v.offset children) (node label start children) (Node.hits v.offset) :=
  .look .get fun _ => .pure (Nat.le_of_eq (hits_mk h _ _ _))

theorem Carries.node₁ (h : label.isPlain = true) (a : Node) :
    Carries v (a.hits v.offset) (node label start [a]) (Node.hits v.offset) :=
  Carries.nodes h [a]

theorem Carries.node₂ (h : label.isPlain = true) (a b : Node) :
    Carries v (a.hits v.offset + b.hits v.offset) (node label start [a, b]) (Node.hits v.offset) :=
  Carries.nodes h [a, b]

theorem Carries.node₃ (h : label.isPlain = true) (a b e : Node) :
    Carries v (a.hits v.offset + b.hits v.offset + e.hits v.offset) (node label start [a, b, e])
      (Node.hits v.offset) :=
  (Carries.nodes h [a, b, e]).mono (by simp only [hitsEach]; omega) fun _ => Nat.le_refl _

/-- A node behind whose first child there are others. -/
theorem Carries.node_cons (h : label.isPlain = true) (a : Node) (rest : List Node) :
    Carries v (a.hits v.offset + hitsEach v.offset rest) (node label start (a :: rest))
      (Node.hits v.offset) := Carries.nodes h (a :: rest)

end Nodes

/-! ## Tokens -/

theorem passes_modify {f : ParseState → ParseState} (h : ∀ s, (f s).token = s.token ∧
    (f s).next = s.next ∧ (f s).prevStop = s.prevStop ∧ (f s).budget = s.budget) :
    Passes v (modify f) := by
  intro others s a t hs hok
  cases hok
  obtain ⟨htoken, hnext, hprev, hbudget⟩ := h s
  obtain ⟨⟨hpos, hplace, hword⟩, hstart, hone, hpassed, hname⟩ := hs
  refine ⟨⟨hbudget ▸ hpos, ?_, ?_⟩, htoken ▸ hstart, hone, hprev ▸ hpassed, hname⟩
  · rw [htoken, hnext, hprev]
    exact hplace
  · unfold AtWord at hword ⊢
    rw [htoken]
    exact hword

theorem passes_report {cause : Cause} {offset : Nat} : Passes v (report cause offset) :=
  passes_modify fun _ => ⟨rfl, rfl, rfl, rfl⟩

/-- A word that is read in a text stands on characters of names. -/
theorem namePartAt_of_read {text : List Char} {fuel : Nat} {c : Cursor} (hfuel : 0 < fuel)
    (hc : Cursor.Reaches ⟨text, 0⟩ c) {word : String} {escaped : Bool}
    (hkind : (Token.read fuel c).token.kind = .word word escaped) {k : Nat}
    (hlo : (Token.read fuel c).token.span.start ≤ k) (hhi : k < (Token.read fuel c).token.span.stop) :
    NamePartAt text k := by
  obtain ⟨x, hx, hpart⟩ := isNamePart_of_read hfuel hkind hlo hhi
  have hle := Nat.le_trans (between_read hfuel c).offset_le hlo
  have hplace : c.offset - 0 + (k - c.offset) = k := by omega
  rw [hc.rest_eq, List.getElem?_drop, hplace] at hx
  exact ⟨x, hx, hpart⟩

/-- The token that is passed lies behind the previous one. -/
theorem sited_advanceName {text : List Char} {s t : ParseState} {u : Unit} (h : s.Sited text)
    (hok : advanceName s = .ok (u, t)) :
    t.Sited text ∧ t.prevStop = s.token.span.stop ∧ s.token.span.stop ≤ t.token.span.start := by
  cases hok
  obtain ⟨hpos, ⟨c, -, hc, hbetween⟩, -⟩ := h
  have hread := between_read hpos s.next
  have hnext := hc.trans hbetween.reaches
  refine ⟨⟨hpos, ⟨s.next, hbetween.stop_eq.symm, hnext, hread⟩, ?_⟩, rfl,
    hbetween.stop_eq ▸ hread.offset_le⟩
  rintro ⟨word, escaped, hkind⟩ k hlo hhi
  exact namePartAt_of_read hpos hnext hkind hlo hhi

/-- A word can count as a reference when it is passed. -/
theorem Counted.advanceName {others : Nat} {s t : ParseState} {u : Unit}
    (h : Counted v others s) (hok : advanceName s = .ok (u, t)) :
    Counted v others t ∧
      (AtWord s → Counted v (others + s.token.span.hits v.offset) t) := by
  obtain ⟨hsited, hprev, hle⟩ := sited_advanceName h.sited hok
  have hbehind := h.sited.prev_le
  obtain ⟨-, ⟨c, -, -, hbetween⟩, hname⟩ := h.sited
  have hstart := h.start_le
  have hstop := hbetween.le_stop
  have hpassed := h.passed
  refine ⟨⟨hsited, by omega, h.le_one, fun hpos => ?_, h.name⟩, fun hword => ?_⟩
  · have := hpassed hpos
    omega
  · have hlt : s.token.span.start < s.token.span.stop := by
      obtain ⟨word, escaped, hkind⟩ := hword
      refine hbetween.lt_stop ?_
      rw [hkind]
      trivial
    have hone := h.le_one
    unfold Span.hits
    rw [if_neg (Nat.not_le.2 hlt)]
    split
    · rename_i hhit
      refine ⟨hsited, by omega, by omega, fun _ => by omega, fun _ => ?_⟩
      exact hname hword v.offset hhit.1 hhit.2
    · exact ⟨hsited, by omega, hone, fun hpos => by omega, h.name⟩

theorem passes_advanceName : Passes v advanceName := fun _ _ _ _ hs hok => (hs.advanceName hok).1

theorem passes_advance : Passes v advance := by
  refine .look .token fun t => ?_
  extract_lets pass
  have hpass : ∀ u, Passes v (pass u) := fun _ => passes_advanceName
  split
  · exact .ite (.behind passes_report hpass) (hpass ())
  · exact hpass ()

theorem passes_eat {p : Punct} : Passes v (eat p) :=
  .look (.isAt p) fun _ => .ite (.behind passes_advance fun _ => .pure (Nat.le_refl _))
    (.pure (Nat.le_refl _))

theorem passes_eatWord {text : String} : Passes v (eatWord text) :=
  .look (.atWord text) fun _ => .ite (.behind passes_advance fun _ => .pure (Nat.le_refl _))
    (.pure (Nat.le_refl _))

theorem passes_expect {p : Punct} : Passes v (expect p) :=
  .look (.isAt p) fun _ => .ite passes_advance .expected

theorem passes_expectWord {text : String} : Passes v (expectWord text) :=
  .look (.atWord text) fun _ => .ite passes_advance .expected

theorem passes_semicolon : Passes v semicolon := by
  refine .behind passes_eat fun _ => .ite (.pure (Nat.le_refl _)) ?_
  refine .look .canEndStatement fun _ => .ite (.pure (Nat.le_refl _)) ?_
  exact .look .get fun _ => .fail

theorem passes_rereadRegex : Passes v rereadRegex := by
  intro others s a t hs hok
  cases hok
  obtain ⟨⟨hpos, ⟨c, hprev, hc, hbetween⟩, -⟩, hstart, hone, hpassed, hname⟩ := hs
  refine ⟨⟨hpos, ⟨c, hprev, hc, between_readRegex hbetween⟩, ?_⟩, hstart, hone, hpassed, hname⟩
  rintro ⟨word, escaped, hkind⟩
  exact absurd hkind (readRegex_ne_word _ _)

theorem passes_rereadTemplate : Passes v rereadTemplate := by
  intro others s a t hs hok
  unfold rereadTemplate at hok
  obtain ⟨_, _, hget, hok⟩ := bind_ok hok
  cases hget
  split at hok
  · rename_i hbrace
    cases hok
    obtain ⟨⟨hpos, ⟨c, hprev, hc, hbetween⟩, -⟩, hstart, hone, hpassed, hname⟩ := hs
    refine ⟨⟨hpos, ⟨c, hprev, hc, between_readTemplateTail hbetween hbrace _⟩, ?_⟩, hstart, hone,
      hpassed, hname⟩
    rintro ⟨word, escaped, hkind⟩
    exact absurd hkind (readTemplateTail_ne_word _ _ _)
  · cases hok
    exact hs

/-! ## Loops -/

section Loops

variable {item rest : Parse Node}

section Items

variable {w : Node → Nat} {total : List Node → Nat}
  (hnil : total [] = 0) (hconcat : ∀ items n, total (items ++ [n]) = total items + w n)
include hconcat

/-- One more item counts for itself. -/
theorem Carries.onward (h : Carries v 0 item w) (others : Nat) (items : List Node) :
    Leads (Counted v (others + total items)) item
      fun n => Counted v (others + total (items ++ [n])) := by
  refine (h (others + total items)).mono (fun _ hs => hs) fun n s hs => ?_
  rw [hconcat, ← Nat.add_assoc]
  exact hs

include hnil

theorem Carries.commaList {close : Punct} (h : Carries v 0 item w) :
    Carries v 0 (commaList close item) fun r => total r.1 := by
  intro others
  have hlist := Leads.commaList (I := fun items => Counted v (others + total items))
    (fun _ => passes_expect _) (h.onward hconcat others) close
  rw [hnil] at hlist
  exact hlist

end Items

private theorem hitsEach_concat (k : Nat) (items : List Node) (n : Node) :
    hitsEach k (items ++ [n]) = hitsEach k items + n.hits k := hitsEach_append k items [n]

theorem reads_repeatUntil {stop : Parse Bool} (hstop : Steady stop) (hitem : Reads v item) :
    ReadsEach v (repeatUntil stop item) := fun others =>
  Leads.repeatUntil (I := fun items => Counted v (others + hitsEach v.offset items))
    (fun _ => hstop.leads) (hitem.onward (hitsEach_concat _) others)

theorem carries_commaList {close : Punct} (hitem : Reads v item) :
    Carries v 0 (commaList close item) fun r => hitsEach v.offset r.1 :=
  Carries.commaList rfl (hitsEach_concat _) hitem

theorem reads_commaListWithRest {close : Punct} {cause : Cause} (hitem : Reads v item)
    (hrest : Reads v rest) : ReadsEach v (commaListWithRest close item rest cause) := fun others =>
  Leads.commaListWithRest (I := fun items => Counted v (others + hitsEach v.offset items))
    (fun _ => passes_expect _) (hitem.onward (hitsEach_concat _) others)
    (hrest.onward (hitsEach_concat _) others) (fun _ _ _ => passes_report _) close cause

end Loops

/-! ## Words and literals -/

/-- A label makes no reference of a token. -/
theorem reads_leaf {label : Label} (h : label.isPlain = true) : Reads v (leaf label) :=
  .look .token fun _ => .behind passes_advance fun _ => .pure (Nat.le_of_eq (hits_mk h _ _ _))

theorem reads_nameLeaf {label : String → Label} (h : ∀ text, (label text).isPlain = true) :
    Reads v (nameLeaf label) :=
  .look .token fun _ => .look .wordHere fun _ => .behind passes_advanceName fun _ =>
    .pure (Nat.le_of_eq (hits_mk (h _) _ _ _))

theorem reads_absent : Reads v (pure Node.absent) := .pure (Nat.le_refl _)

theorem reads_nil : ReadsEach v (pure []) := .pure (Nat.le_refl _)

theorem passes_checkIdentifier {word : String} {offset : Nat} {permit : Permit} :
    Passes v (checkIdentifier word offset permit) := by
  unfold checkIdentifier
  extract_lets last
  have hlast : ∀ u, Passes v (last u) := fun _ => .ite passes_report (.pure (Nat.le_refl _))
  exact .ite (.behind passes_report hlast) (hlast ())

theorem reads_bindingIdentifier : Reads v bindingIdentifier :=
  .look .atIdentifier fun _ => .ite (.look .wordHere fun _ => .look .here fun _ => .look .get fun _ =>
    .behind passes_checkIdentifier fun _ => reads_nameLeaf fun _ => rfl) .unexpected

theorem reads_labelIdentifier : Reads v labelIdentifier :=
  .look .atIdentifier fun _ => .ite (.look .wordHere fun _ => .look .here fun _ => .look .get fun _ =>
    .behind passes_checkIdentifier fun _ => reads_nameLeaf fun _ => rfl) .unexpected

theorem reads_identifierName : Reads v identifierName := by
  refine .look .token fun t => ?_
  split
  · exact reads_nameLeaf fun _ => rfl
  · exact .unexpected

theorem reads_privateName : Reads v privateName := by
  refine .look .token fun t => ?_
  split
  · exact reads_leaf rfl
  · exact .unexpected

theorem reads_stringLiteral : Reads v stringLiteral := by
  refine .look .token fun t => ?_
  split
  · exact reads_leaf rfl
  · exact .unexpected

theorem reads_numberLiteral : Reads v numberLiteral := by
  refine .look .token fun t => ?_
  split
  · exact reads_leaf rfl
  · exact reads_leaf rfl
  · exact .unexpected

theorem reads_regexLiteral : Reads v regexLiteral := by
  refine .behind passes_rereadRegex fun _ => .look .get fun s => ?_
  extract_lets behind
  have hbehind : ∀ u, Reads v (behind u) := by
    intro u
    refine .look .token fun t => ?_
    split
    · refine .bind (reads_leaf rfl) fun n => .ite (.behind passes_report fun _ => ?_) ?_
      · exact .pure (Nat.le_refl _)
      · exact .pure (Nat.le_refl _)
    · exact .unexpected
  exact .ite (.bind .unexpected hbehind) (hbehind ())

/-! ### References -/

theorem leads_atIdentifier {P : ParseState → Prop} :
    Leads P atIdentifier fun found s => P s ∧ (found = true → AtWord s) := by
  refine leads_token.bind fun t => ?_
  split
  · rename_i word escaped hkind
    exact .pure fun s ⟨hs, ht⟩ => ⟨hs, fun _ => ⟨word, escaped, ht ▸ hkind⟩⟩
  · exact .pure fun s ⟨hs, _⟩ => ⟨hs, fun hfound => absurd hfound Bool.false_ne_true⟩

/-- The token that a name is made of can be counted for it. -/
theorem leads_nameLeaf_atWord {label : String → Label} {others : Nat} :
    Leads (fun s => Counted v others s ∧ AtWord s) (nameLeaf label) fun n s =>
      Counted v (others + n.span.hits v.offset) s ∧ ∃ text, n = .mk (label text) n.span [] := by
  rintro s n t ⟨hs, word, escaped, hkind⟩ hok
  unfold nameLeaf at hok
  obtain ⟨_, _, htoken, hok⟩ := bind_ok hok
  cases htoken
  obtain ⟨text, _, hword, hok⟩ := bind_ok hok
  cases Steady.wordHere _ _ _ hword
  obtain ⟨_, u, hadvance, hok⟩ := bind_ok hok
  cases hok
  exact ⟨(hs.advanceName hadvance).2 ⟨word, escaped, hkind⟩, text, rfl⟩

/-- A name that is no reference can be counted like one. -/
theorem leads_identifierName {others : Nat} :
    Leads (Counted v others) identifierName fun n s =>
      Counted v (others + n.span.hits v.offset) s ∧ ∃ text, n = .mk (.name text) n.span [] := by
  refine leads_token.bind fun t => ?_
  split
  · rename_i text escaped hkind
    exact leads_nameLeaf_atWord.mono (fun s ⟨hs, ht⟩ => ⟨hs, text, escaped, ht ▸ hkind⟩)
      fun _ _ => id
  · exact .unexpected

/-- A reference is a word that was passed. -/
theorem reads_identifierReference : Reads v identifierReference := by
  intro others
  refine leads_atIdentifier.bind fun found => .ite (fun hfound => ?_) fun _ => .unexpected
  have hreport : ∀ {cause offset}, Leads (fun s => Counted v others s ∧ AtWord s)
      (report cause offset) fun _ s => Counted v others s ∧ AtWord s := by
    intro cause offset s a t hs hok
    refine ⟨passes_report others s a t hs.1 hok, ?_⟩
    cases hok
    exact hs.2
  have hcheck : ∀ {word offset permit}, Leads (fun s => Counted v others s ∧ AtWord s)
      (checkIdentifier word offset permit) fun _ s => Counted v others s ∧ AtWord s := by
    intro word offset permit
    unfold checkIdentifier
    exact .ite (fun _ => hreport.bind fun _ => .ite (fun _ => hreport) fun _ => .pure fun _ hs => hs)
      fun _ => .ite (fun _ => hreport) fun _ => .pure fun _ hs => hs
  have hname : Leads (fun s => Counted v others s ∧ AtWord s) (nameLeaf .reference) fun n =>
      Counted v (others + n.hits v.offset) := by
    refine leads_nameLeaf_atWord.mono (fun _ hs => hs) fun n s ⟨hs, text, hn⟩ => ?_
    rw [hn]
    exact hs
  refine Leads.mono (Steady.wordHere.leads.bind fun _ => Steady.here.leads.bind fun _ =>
    Steady.get.leads.bind fun _ => hcheck.bind fun _ => hname) (fun s hs => ?_) fun _ _ hs => hs
  exact ⟨hs.1, hs.2 hfound⟩

end ModuleBundler.Syntax
