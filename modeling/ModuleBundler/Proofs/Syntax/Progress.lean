import ModuleBundler.Proofs.Syntax.StatementCoverage

/-!
# Expressions have tokens

Where the previous token ended is known to a state, but the grammar looks at it only behind tokens of
its own.  A step that has passed one has forgotten it (`ForgetsOr`): it would do the same from a state in
which the previous token ends elsewhere.  As that can be the place at which the step begins, what is read
ends there or further on (`le_prevStop`).

* `forgets_leftHandSide`, `forgets_assignmentExpression` — expressions begin with a token;
* **`le_prevStop`** — so they end no earlier than they begin.
-/

namespace ModuleBundler.Syntax

open Parse Grammar

variable {α β : Type} {R : α → Prop} {R' : β → Prop}

/-- A step does the same wherever the previous token ended, and nothing of that is left behind it, unless
its answer is one of those that `R` admits. -/
def ForgetsOr (R : α → Prop) (p : Parse α) : Prop := ∀ s x a t, p s = .ok (a, t) →
  p { s with prevStop := x } = .ok (a, t) ∨
    R a ∧ p { s with prevStop := x } = .ok (a, { t with prevStop := x })

/-- A step passes a token, so that nothing is left of where the previous one ended. -/
def Forgets (p : Parse α) : Prop := ForgetsOr (fun _ => False) p

/-- A step looks at nothing before the current token. -/
def LooksAhead (p : Parse α) : Prop := ForgetsOr (fun _ => True) p

namespace ForgetsOr

variable {p q : Parse α} {f : α → Parse β}

theorem pure {a : α} (h : R a) : ForgetsOr R (pure a) := by
  intro s x b t hok
  cases hok
  exact .inr ⟨h, rfl⟩

theorem bind (hp : ForgetsOr R p) (hf : ∀ a, R a → ForgetsOr R' (f a)) :
    ForgetsOr R' (p >>= f) := by
  intro s x b u hok
  obtain ⟨a, t, ha, hb⟩ := bind_ok hok
  have hrun : ∀ {t'}, p { s with prevStop := x } = .ok (a, t') →
      (p >>= f) { s with prevStop := x } = f a t' := by
    intro t' h
    show (p { s with prevStop := x } >>= fun r => f r.1 r.2) = f a t'
    rw [h]
    rfl
  rcases hp s x a t ha with h | ⟨hR, h⟩
  · rw [hrun h]
    exact .inl hb
  · rw [hrun h]
    exact hf a hR t x b u hb

/-- Nothing has to be known of what is done behind a token that has been passed. -/
theorem first (hp : Forgets p) : ForgetsOr R' (p >>= f) := bind hp fun _ h => h.elim

theorem look (hp : LooksAhead p) (hf : ∀ a, ForgetsOr R' (f a)) : ForgetsOr R' (p >>= f) :=
  bind hp fun a _ => hf a

/-- What is asked of the state is not where the previous token ended. -/
theorem get {f : ParseState → Parse β} (hf : ∀ s, ForgetsOr R' (f s))
    (hsame : ∀ s x, f { s with prevStop := x } = f s) : ForgetsOr R' (get >>= f) := by
  intro s x b t hok
  show f { s with prevStop := x } { s with prevStop := x } = _ ∨
    R' b ∧ f { s with prevStop := x } { s with prevStop := x } = _
  rw [hsame]
  exact hf s s x b t hok

theorem ite {c : Prop} [Decidable c] (hp : ForgetsOr R p) (hq : ForgetsOr R q) :
    ForgetsOr R (if c then p else q) := by
  split
  · exact hp
  · exact hq

theorem unexpected : ForgetsOr R (unexpected : Parse α) := fun s _ a t hok =>
  (Leads.unexpected (P := fun _ => True) (Q := fun _ _ => False) s a t trivial hok).elim

theorem expected {wanted : String} : ForgetsOr R (expected wanted : Parse α) := fun s _ a t hok =>
  (Leads.expected (P := fun _ => True) (Q := fun _ _ => False) s a t trivial hok).elim

theorem permitting (h : ForgetsOr R p) (change : Permit → Permit) :
    ForgetsOr R (permitting change p) := by
  intro s x a t hok
  unfold Parse.permitting at hok
  obtain ⟨_, _, hget, hok⟩ := bind_ok hok
  cases hget
  obtain ⟨_, _, hset, hok⟩ := bind_ok hok
  cases hset
  obtain ⟨_, u, hp, hok⟩ := bind_ok hok
  obtain ⟨_, _, hset, hok⟩ := bind_ok hok
  cases hset
  cases hok
  have hrun : ∀ {u'}, p { s with permit := change s.permit, prevStop := x } = .ok (a, u') →
      Parse.permitting change p { s with prevStop := x } = .ok (a, { u' with permit := s.permit }) := by
    intro u' h
    show (p { s with permit := change s.permit, prevStop := x } >>= _) = _
    rw [h]
    rfl
  rcases h _ x a u hp with h | ⟨hR, h⟩
  · exact .inl (hrun h)
  · exact .inr ⟨hR, hrun h⟩

/-- A step that is taken back leaves nothing, except in its answer. -/
theorem lookahead (h : LooksAhead p) : LooksAhead (lookahead p) := by
  intro s x a t hok
  unfold Parse.lookahead at hok
  split at hok <;> cases hok
  rename_i after hp
  refine .inr ⟨trivial, ?_⟩
  unfold Parse.lookahead
  rcases h s x a after hp with h | ⟨-, h⟩ <;> rw [h]

/-- A step that is given up has not passed a token. -/
theorem attempt (h : Forgets p) : ForgetsOr (fun found => found = none) (attempt p) := by
  intro s x found t hok
  unfold Parse.attempt at hok ⊢
  split at hok <;> cases hok
  · rename_i a hp
    rcases h s x a _ hp with h | ⟨hfalse, -⟩
    · rw [h]
      exact .inl rfl
    · exact hfalse.elim
  · rename_i halt hp
    refine .inr ⟨rfl, ?_⟩
    split
    · rename_i a u hp'
      -- what succeeds there would have succeeded here
      rcases h _ s.prevStop a u hp' with h | ⟨hfalse, -⟩
      · rw [show p s = .ok (a, u) from h] at hp
        cases hp
      · exact hfalse.elim
    · rfl

end ForgetsOr

/-! ## Tokens -/

theorem looks_token : LooksAhead token := .get (fun _ => .pure trivial) fun _ _ => rfl

theorem looks_here : LooksAhead here := .get (fun _ => .pure trivial) fun _ _ => rfl

theorem looks_isAt (p : Punct) : LooksAhead (isAt p) := .get (fun _ => .pure trivial) fun _ _ => rfl

theorem looks_atWord (text : String) : LooksAhead (atWord text) :=
  .get (fun _ => .pure trivial) fun _ _ => rfl

theorem looks_wordHere : LooksAhead wordHere := by
  refine .get (fun s => ?_) fun _ _ => rfl
  split <;> exact .pure trivial

theorem looks_modify {f : ParseState → ParseState}
    (h : ∀ s x, f { s with prevStop := x } = { f s with prevStop := x }) : LooksAhead (modify f) := by
  intro s x a t hok
  cases hok
  refine .inr ⟨trivial, ?_⟩
  show Except.ok ((), f { s with prevStop := x }) = _
  rw [h]

theorem looks_report {cause : Cause} {offset : Nat} : LooksAhead (report cause offset) :=
  looks_modify fun _ _ => rfl

theorem forgets_advanceName : Forgets advanceName := by
  intro s x a t hok
  cases hok
  exact .inl rfl

theorem forgets_advance : Forgets advance := by
  refine .look looks_token fun t => ?_
  extract_lets pass
  have hpass : ∀ u, Forgets (pass u) := fun _ => forgets_advanceName
  split
  · exact .ite (.look looks_report hpass) (hpass ())
  · exact hpass ()

theorem forgets_expect {p : Punct} : Forgets (expect p) :=
  .look (looks_isAt p) fun _ => .ite forgets_advance .expected

theorem forgets_expectWord {text : String} : Forgets (expectWord text) :=
  .look (looks_atWord text) fun _ => .ite forgets_advance .expected

/-- A token that is asked for is passed, if it is there. -/
theorem forgets_eatWord {text : String} : ForgetsOr (fun found => found = false) (eatWord text) :=
  .look (looks_atWord text) fun _ => .ite (.first forgets_advance) (.pure rfl)

theorem forgets_leaf {label : Label} : Forgets (leaf label) :=
  .look looks_token fun _ => .first forgets_advance

theorem forgets_nameLeaf {label : String → Label} : Forgets (nameLeaf label) :=
  .look looks_token fun _ => .look looks_wordHere fun _ => .first forgets_advanceName

theorem looks_iterate {step : α → Parse (Option α)} (h : ∀ a, LooksAhead (step a)) (a : α) :
    LooksAhead (iterate step a) := by
  have hrounds : ∀ n a, LooksAhead (rounds step n a) := by
    intro n
    induction n with
    | zero => exact fun a => .pure trivial
    | succ n ih =>
      refine fun a => .look (h a) fun next => ?_
      cases next with
      | none => exact .pure trivial
      | some b => exact ih b
  exact .get (fun s => hrounds s.budget a) fun _ _ => rfl

theorem looks_checkIdentifier {word : String} {offset : Nat} {permit : Permit} :
    LooksAhead (checkIdentifier word offset permit) := by
  unfold checkIdentifier
  extract_lets last
  have hlast : ∀ u, LooksAhead (last u) := fun _ => .ite looks_report (.pure trivial)
  exact .ite (.look looks_report hlast) (hlast ())

theorem looks_atIdentifier : LooksAhead atIdentifier := by
  refine .look looks_token fun t => ?_
  split <;> exact .pure trivial

theorem forgets_identifierReference : Forgets identifierReference :=
  .look looks_atIdentifier fun _ => .ite (.look looks_wordHere fun _ => .look looks_here fun _ =>
    .get (fun _ => .look looks_checkIdentifier fun _ => forgets_nameLeaf) fun _ _ => rfl) .unexpected

theorem forgets_stringLiteral : Forgets stringLiteral := by
  refine .look looks_token fun t => ?_
  split
  · exact forgets_leaf
  · exact .unexpected

theorem forgets_numberLiteral : Forgets numberLiteral := by
  refine .look looks_token fun t => ?_
  split
  · exact forgets_leaf
  · exact forgets_leaf
  · exact .unexpected

theorem forgets_privateName : Forgets privateName := by
  refine .look looks_token fun t => ?_
  split
  · exact forgets_leaf
  · exact .unexpected

theorem forgets_regexLiteral : Forgets regexLiteral := by
  have hreread : LooksAhead rereadRegex :=
    .get (fun _ => looks_modify fun _ _ => rfl) fun _ _ => rfl
  refine .look hreread fun _ => .get (fun s => ?_) fun _ _ => rfl
  extract_lets behind
  have hbehind : ∀ u, Forgets (behind u) := by
    intro u
    refine .look looks_token fun t => ?_
    split
    · exact .first forgets_leaf
    · exact .unexpected
  exact .ite (.first .unexpected) (hbehind ())

/-! ## Expressions -/

section Expressions

variable {sub : Goal → Parse Node}

theorem forgets_function {start : Nat} {isAsync : Bool} {form : FunctionForm} :
    Forgets (function sub start isAsync form) := .first forgets_expectWord

theorem forgets_classDefinition {start : Nat} {isDeclaration : Bool} {decorations : List Node} :
    Forgets (classDefinition sub start isDeclaration decorations) := .first forgets_advance

theorem looks_decorators : LooksAhead (decorators sub) := by
  refine .look (looks_iterate (fun items => ?_) []) fun _ => .pure trivial
  refine .look (.look (looks_isAt _) fun _ => .pure trivial) fun _ => .ite (.pure trivial) ?_
  exact .first (.look looks_here fun _ => .first forgets_advance)

theorem forgets_template {isTagged : Bool} : Forgets (template sub isTagged) := by
  refine .look looks_here fun start => ?_
  extract_lets part
  have hpart : ForgetsOr (fun found => found = none) part := by
    refine .look looks_token fun t => ?_
    split
    · exact .first forgets_advance
    · exact .pure rfl
  refine .bind hpart fun found hnone => ?_
  rw [hnone]
  exact .unexpected

theorem forgets_primaryWith {self : Parse Node} : Forgets (primaryWith sub self) := by
  refine .look looks_token fun t => ?_
  dsimp only
  split
  · split
    · exact forgets_function
    · exact forgets_classDefinition
    · exact .look looks_here fun _ => .first forgets_nameLeaf
    · exact .first forgets_leaf
    · exact .look looks_here fun _ => .first forgets_nameLeaf
    · exact forgets_leaf
    · exact forgets_leaf
    · exact forgets_leaf
    · exact forgets_leaf
    · exact .look (.lookahead (.first forgets_advanceName)) fun _ => .ite (.first forgets_advance)
        forgets_identifierReference
    · exact forgets_identifierReference
  · exact .look looks_here fun _ => .first forgets_expect
  · exact .look looks_here fun _ => .first forgets_expect
  · exact .look looks_here fun _ => .first forgets_advance
  · exact forgets_regexLiteral
  · exact forgets_regexLiteral
  · exact .look looks_decorators fun _ => .look (looks_atWord _) fun _ =>
      .ite forgets_classDefinition .unexpected
  · exact forgets_template
  · exact forgets_template
  · exact forgets_stringLiteral
  · exact forgets_numberLiteral
  · exact .unexpected

theorem forgets_leftHandSide : Forgets (leftHandSide sub) := by
  refine .look looks_here fun start => .get (fun s => .first ?_) fun _ _ => rfl
  cases s.budget with
  | zero => exact .unexpected
  | succ depth => exact forgets_primaryWith

theorem looks_wordBeforeOperand : LooksAhead wordBeforeOperand :=
  .lookahead (.first forgets_advanceName)

theorem forgets_yieldExpression : Forgets (yieldExpression sub) := by
  refine .look looks_here fun start => .get (fun s => ?_) fun _ _ => rfl
  exact .ite (.look looks_report fun _ => .first forgets_advance) (.first forgets_advance)

theorem forgets_arrowHead : Forgets (arrowHead sub) :=
  .bind forgets_eatWord fun _ _ => .first
    (.permitting (.look looks_here fun _ => .first forgets_expect) _)

theorem looks_arrowHint : LooksAhead arrowHint := by
  refine .lookahead (.bind forgets_eatWord fun found hfalse => ?_)
  rw [hfalse]
  exact .first forgets_advanceName

theorem forgets_parenthesizedArrow :
    ForgetsOr (fun found => found = none) (parenthesizedArrow sub) := by
  refine .look looks_here fun start => .look (looks_isAt _) fun _ => .look (looks_atWord _) fun _ =>
    .ite (.pure rfl) (.look looks_arrowHint fun hint => ?_)
  cases hint with
  | no => exact .pure rfl
  | yes => exact .first forgets_arrowHead
  | maybe =>
    refine .get (fun s => .ite (.pure rfl) (.bind (.attempt forgets_arrowHead) fun found hnone => ?_))
      fun _ _ => rfl
    rw [hnone]
    exact .look (looks_modify fun _ _ => rfl) fun _ => .pure rfl

variable (hsub : Forgets (sub .leftHandSide))
include hsub

theorem forgets_unaryExpression : Forgets (unaryExpression sub) := by
  have hupdate : Forgets (updateExpression sub) := by
    refine .look looks_token fun t => ?_
    exact .ite (.first forgets_advance) (.first hsub)
  refine .look looks_token fun t => ?_
  dsimp only
  refine .ite (.first forgets_advance) (.ite ?_ hupdate)
  refine .get (fun s => .look looks_wordBeforeOperand fun _ => .ite (.ite ?_ ?_) hupdate) fun _ _ => rfl
  · exact .look looks_report fun _ => .first forgets_advance
  · exact .first forgets_advance

theorem forgets_binaryExpression (above : Nat) : Forgets (binaryExpression sub above) := by
  refine .look looks_token fun t => ?_
  extract_lets start isPrivate loop joined
  have hjoined : ∀ u, Forgets (joined u) := fun _ => .first forgets_privateName
  exact .get (fun s => .ite (.ite (.first .unexpected) (hjoined ()))
    (.first (forgets_unaryExpression hsub))) fun _ _ => rfl

theorem forgets_assignmentExpression : Forgets (assignmentExpression sub) := by
  refine .look looks_here fun start => .look (looks_atWord _) fun _ => ?_
  extract_lets behind
  have hbehind : ∀ u, Forgets (behind u) := by
    intro u
    refine .bind forgets_parenthesizedArrow fun found hnone => ?_
    rw [hnone]
    refine .look (.lookahead (.bind forgets_eatWord fun found hfalse => ?_)) fun _ =>
      .ite (.first forgets_advance) (.first (forgets_binaryExpression hsub 0))
    rw [hfalse]
    exact .pure trivial
  exact .ite (.get (fun s => .look looks_wordBeforeOperand fun _ => .ite forgets_yieldExpression
    (hbehind ())) fun _ _ => rfl) (hbehind ())

end Expressions

theorem forgets_goal (depth : Nat) {g : Goal} (hg : g = .leftHandSide ∨ g = .assignment) :
    Forgets (goal depth g) := by
  induction depth generalizing g with
  | zero => exact .unexpected
  | succ depth ih =>
    rcases hg with rfl | rfl
    · exact forgets_leftHandSide
    · exact forgets_assignmentExpression (ih (.inl rfl))

/-! ## Where steps end -/

/-- What stands before the current token does not matter for where the parser stands: another character
can stand there, and the previous token can end behind that. -/
theorem ParseState.Sited.withPrevStop {text : List Char} {x : Nat} {s : ParseState} (h : s.Sited text)
    (hx : x < s.token.span.start) (c : Char) :
    ParseState.Sited (text.set x c) { s with prevStop := x + 1 } := by
  obtain ⟨hpos, ⟨d, -, hd, hbetween⟩, hword⟩ := h
  have hnext := hd.trans hbetween.reaches
  have hstop := hbetween.le_stop
  rw [hbetween.stop_eq] at hstop
  have htotal : s.next.offset + s.next.rest.length = 0 + text.length := hnext.total_eq
  have hrest : s.next.rest = (text.drop (x + 1)).drop (s.next.offset - (x + 1)) := by
    rw [hnext.rest_eq, List.drop_drop]
    congr 1
    dsimp only
    omega
  have hplace : (⟨text.set x c, 0⟩ : Cursor).Reaches ⟨text.drop (x + 1), x + 1⟩ := by
    refine ⟨Nat.zero_le _, ?_, ?_⟩ <;> dsimp only
    · rw [List.length_drop, List.length_set]
      omega
    · rw [Nat.sub_zero, List.drop_set_of_lt (Nat.lt_succ_self x)]
  refine ⟨hpos, ⟨⟨text.drop (x + 1), x + 1⟩, rfl, hplace, hx, hbetween.le_stop, hbetween.stop_eq, ?_,
    hbetween.lt_stop⟩, fun hat k hlo hhi => ?_⟩
  · refine ⟨Nat.le_trans hx hstop, ?_, hrest⟩
    rw [hrest, List.length_drop, List.length_drop]
    dsimp only
    omega
  · obtain ⟨y, hy, hpart⟩ := hword hat k hlo hhi
    refine ⟨y, ?_, hpart⟩
    rw [List.getElem?_set_ne (Nat.ne_of_lt (Nat.lt_of_lt_of_le hx hlo))]
    exact hy

/-- What is read by passing tokens ends where it begins or further on. -/
theorem le_prevStop {text : List Char} {k : Nat} {p : Parse α} {given : Watch → Nat}
    {count : Watch → α → Nat} (hp : Forgets p) (hcount : ∀ v, Carries v (given v) p (count v))
    (hgiven : ∀ x text, k = x + 1 → given ⟨text, 0, x⟩ = 0) {s t : ParseState} {a : α}
    (hs : s.Sited text) (hk : k ≤ s.token.span.start) (hok : p s = .ok (a, t)) : k ≤ t.prevStop := by
  cases k with
  | zero => exact Nat.zero_le _
  | succ x =>
    rcases hp s (x + 1) a t hok with hsame | ⟨hfalse, -⟩
    · -- as if a reference ended where the current token begins
      have hname : NamePartAt (text.set x '_') x :=
        ⟨'_', List.getElem?_set_self (Nat.lt_of_lt_of_le hk hs.start_le_length), rfl⟩
      have hcounted : Counted ⟨text.set x '_', 0, x⟩ (1 + given ⟨text.set x '_', 0, x⟩)
          { s with prevStop := x + 1 } := by
        rw [hgiven x _ rfl]
        exact ⟨hs.withPrevStop hk '_', Nat.zero_le _, Nat.le_refl _, fun _ =>
          ⟨Nat.zero_le _, Nat.lt_succ_self x⟩, fun _ => hname⟩
      have hend := hcount ⟨text.set x '_', 0, x⟩ 1 _ a t hcounted hsame
      exact (hend.passed (Nat.add_pos_left Nat.one_pos _)).2
    · exact hfalse.elim

end ModuleBundler.Syntax
