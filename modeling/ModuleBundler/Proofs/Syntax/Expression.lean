import ModuleBundler.Proofs.Syntax.Declaration

/-!
# Where expressions begin

What follows `export default` is a declaration or an expression, and the tree tells by a label which
of the two was read.  An expression begins with the token it is read from, and it never has the label
of a declaration (`Node.Opens`), however it goes on: operators, accesses and calls around it begin
where their first operand does.

* `Leads.opens_node` and `leads_leaf` — a node begins where its step did;
* `leads_leftHandSide`, `leads_binaryExpression`, `leads_assignmentExpression` — so does what is put
  around a first operand;
* **`leads_goal`** — and so does each expression.
-/

namespace ModuleBundler.Syntax

open Parse Grammar

/-- A label stands for a declaration behind `export default`. -/
def Label.isDefaultDeclaration : Label → Bool
  | .function .defaultExport _ _ | .classDef true => true
  | _ => false

/-- A node begins at an offset, and is no declaration behind `export default`. -/
structure Node.Opens (k : Nat) (n : Node) : Prop where
  start_eq : n.span.start = k
  label_eq : n.label.isDefaultDeclaration = false

/-- What the grammar reads here is an expression. -/
def Goal.isExpression : Goal → Bool
  | .expression | .assignment | .binary _ | .unary | .leftHandSide => true
  | _ => false

/-- The current token begins at an offset. -/
def StartsAt (k : Nat) (s : ParseState) : Prop := s.token.span.start = k

namespace Parse

variable {α β : Type} {k : Nat} {P : ParseState → Prop} {R : β → ParseState → Prop}

/-- Where the answer does not depend on a step, nothing has to be known of the step. -/
theorem Leads.behind {p : Parse α} {f : α → Parse β} (hf : ∀ a, Leads (fun _ => True) (f a) R) :
    Leads P (p >>= f) R := Leads.bind (fun _ _ _ _ _ => trivial) hf

theorem Leads.bind_here {f : Nat → Parse β} (h : Leads (StartsAt k) (f k) R) :
    Leads (StartsAt k) (here >>= f) R := by
  intro s b t hs hok
  obtain ⟨start, u, hhere, hok⟩ := bind_ok hok
  cases hhere
  rw [hs] at hok
  exact h s b t hs hok

theorem Leads.bind_token {f : Token → Parse β}
    (h : ∀ t, t.span.start = k → Leads (StartsAt k) (f t) R) :
    Leads (StartsAt k) (token >>= f) R := by
  intro s b t hs hok
  obtain ⟨first, u, htoken, hok⟩ := bind_ok hok
  cases htoken
  exact h s.token hs s b t hs hok

/-- A node that begins where its step did. -/
theorem Leads.opens_node {label : Label} {children : List Node}
    (hlabel : label.isDefaultDeclaration = false) :
    Leads P (node label k children) fun n _ => n.Opens k :=
  Yields.leads (.node fun _ => ⟨rfl, hlabel⟩)

end Parse

section Leaves

variable {k : Nat}

theorem leads_leaf {label : Label} (hlabel : label.isDefaultDeclaration = false) :
    Leads (StartsAt k) (leaf label) fun n _ => n.Opens k :=
  .bind_token fun _ ht => .behind fun _ => .pure fun _ _ => ⟨ht, hlabel⟩

theorem leads_nameLeaf {label : String → Label}
    (hlabel : ∀ text, (label text).isDefaultDeclaration = false) :
    Leads (StartsAt k) (nameLeaf label) fun n _ => n.Opens k :=
  .bind_token fun _ ht => .behind fun _ => .behind fun _ => .pure fun _ _ => ⟨ht, hlabel _⟩

theorem leads_report {cause : Cause} {offset : Nat} :
    Leads (StartsAt k) (report cause offset) fun _ => StartsAt k := by
  intro s a t hs hok
  cases hok
  exact hs

theorem leads_checkIdentifier {word : String} {offset : Nat} {permit : Permit} :
    Leads (StartsAt k) (checkIdentifier word offset permit) fun _ => StartsAt k := by
  unfold checkIdentifier
  extract_lets last
  have hlast : ∀ u, Leads (StartsAt k) (last u) fun _ => StartsAt k :=
    fun _ => .ite (fun _ => leads_report) fun _ => .pure fun _ hs => hs
  exact .ite (fun _ => leads_report.bind hlast) fun _ => hlast ()

theorem leads_identifierReference :
    Leads (StartsAt k) identifierReference fun n _ => n.Opens k :=
  Steady.atIdentifier.leads.bind fun _ => .ite
    (fun _ => Steady.wordHere.leads.bind fun _ => Steady.here.leads.bind fun _ =>
      Steady.get.leads.bind fun _ => leads_checkIdentifier.bind fun _ =>
      leads_nameLeaf fun _ => rfl)
    fun _ => .unexpected

theorem leads_stringLiteral : Leads (StartsAt k) stringLiteral fun n _ => n.Opens k := by
  refine .bind_token fun t _ => ?_
  split
  · exact leads_leaf rfl
  · exact .unexpected

theorem leads_numberLiteral : Leads (StartsAt k) numberLiteral fun n _ => n.Opens k := by
  refine .bind_token fun t _ => ?_
  split
  · exact leads_leaf rfl
  · exact leads_leaf rfl
  · exact .unexpected

theorem leads_rereadRegex : Leads (StartsAt k) rereadRegex fun _ => StartsAt k := by
  intro s a t hs hok
  cases hok
  exact hs

theorem leads_regexLiteral : Leads (StartsAt k) regexLiteral fun n _ => n.Opens k := by
  refine leads_rereadRegex.bind fun _ => Steady.get.leads.bind fun s => ?_
  extract_lets behind
  have hbehind : ∀ u, Leads (StartsAt k) (behind u) fun n _ => n.Opens k := by
    intro u
    refine .bind_token fun t _ => ?_
    split
    · refine (leads_leaf rfl).bind fun n => ?_
      extract_lets finish
      have hfinish : ∀ u, Leads (fun _ => n.Opens k) (finish u) fun n _ => n.Opens k :=
        fun _ => .pure fun _ hn => hn
      exact .ite (fun _ => (Leads.kept _).bind hfinish) fun _ => hfinish ()
    · exact .unexpected
  exact .ite (fun _ => .bind .unexpected hbehind) fun _ => hbehind ()

end Leaves

section Expressions

variable {sub : Goal → Parse Node} {k : Nat}

theorem leads_template {isTagged : Bool} :
    Leads (StartsAt k) (template sub isTagged) fun n _ => n.Opens k := by
  refine .bind_here ?_
  extract_lets part
  refine .behind fun first => ?_
  split
  · exact .behind fun _ => .behind fun _ => .behind fun _ => .opens_node rfl
  · exact .opens_node rfl
  · exact .unexpected

theorem leads_arrayLiteral : Leads (StartsAt k) (arrayLiteral sub) fun n _ => n.Opens k :=
  .bind_here <| .behind fun _ => .behind fun _ => .behind fun _ => .behind fun _ => .opens_node rfl

theorem leads_objectLiteral : Leads (StartsAt k) (objectLiteral sub) fun n _ => n.Opens k :=
  .bind_here <| .behind fun _ => .behind fun _ => .behind fun _ => .behind fun _ => .opens_node rfl

theorem leads_parenthesized : Leads (StartsAt k) (parenthesized sub) fun n _ => n.Opens k := by
  refine .bind_here <| .behind fun _ => .behind fun inner => .behind fun ⟨items, comma⟩ => ?_
  dsimp -zeta only
  extract_lets close
  have hclose : ∀ u, Leads (fun _ => True) (close u) fun n _ => n.Opens k := by
    intro u
    unfold close
    split
    · exact .behind fun _ => .fail
    · exact .behind fun _ => .opens_node rfl
    · exact .behind fun _ => .behind fun _ => .opens_node rfl
  split
  · exact .bind .fail hclose
  · exact hclose ()

theorem leads_superExpression : Leads (StartsAt k) superExpression fun n _ => n.Opens k := by
  refine (leads_leaf rfl).bind fun n => (Leads.kept _).bind fun _ => (Leads.kept _).bind fun _ =>
    (Leads.kept _).bind fun _ => .ite (fun _ => ?_) fun _ => .pure fun _ hn => hn
  exact (Leads.kept _).bind fun _ => .pure fun _ hn => hn

theorem leads_importExpression :
    Leads (StartsAt k) (importExpression sub) fun n _ => n.Opens k := by
  refine .bind_here <| .behind fun word => ?_
  extract_lets call
  have hcall : ∀ phase, Leads (fun _ => True) (call phase) fun n _ => n.Opens k := by
    intro phase
    unfold call
    dsimp only
    -- every way through the call ends with a node at `k` or halts
    repeat' first
      | exact .fail
      | exact .opens_node rfl
      | refine .ite (fun _ => ?_) fun _ => ?_
      | refine .behind fun _ => ?_
  refine .behind fun _ => .ite (fun _ => .behind fun _ => .ite ?_ ?_) ?_
  · exact fun _ => .behind fun _ => .opens_node rfl
  · exact fun _ => .behind fun _ => .behind fun _ => .ite
      (fun _ => .behind fun _ => .behind fun _ => hcall _) fun _ => .fail
  · exact fun _ => .behind fun _ => .ite (fun _ => hcall "") fun _ => .unexpected

/-! ### Accesses and calls -/

section Accesses

variable {P : ParseState → Prop} {object : Node} {inChain : Bool}

theorem leads_taggedTemplate (h : object.Opens k) :
    Leads P (taggedTemplate sub object inChain) fun n _ => n.Opens k := by
  refine .behind fun quasi => ?_
  rw [h.start_eq]
  exact .ite (fun _ => .behind fun _ => .opens_node rfl) fun _ => .opens_node rfl

/-- An access or a call begins where the expression before it does. -/
theorem leads_accessStep {allowOptional : Bool} (h : object.Opens k) :
    Leads P (accessStep sub k allowOptional (object, inChain)) fun next _ =>
      ∀ found ∈ next, found.1.Opens k := by
  have hnone : ∀ {P}, Leads P (pure none : Parse (Option (Node × Bool))) fun next _ =>
      ∀ found ∈ next, found.1.Opens k := .pure fun _ _ _ hfound => by cases hfound
  have hsome : ∀ {P} {p : Parse Node} {chained : Bool}, Leads P p (fun n _ => n.Opens k) →
      Leads P (do return some (← p, chained)) fun next _ => ∀ found ∈ next, found.1.Opens k := by
    intro P p chained hp
    refine hp.bind fun n => .pure fun _ hn found hfound => ?_
    cases hfound
    exact hn
  refine .behind fun _ => .behind fun t => ?_
  split
  · exact .ite (fun _ => hnone) fun _ => .behind fun _ => hsome (.opens_node rfl)
  · exact .behind fun _ => .behind fun _ => hsome (.opens_node rfl)
  · refine .ite (fun _ => hnone) fun _ => .behind fun follower => ?_
    split
    · exact .ite (fun _ => hnone) fun _ => .behind fun _ => .behind fun _ => hsome (.opens_node rfl)
    · exact .behind fun _ => .behind fun _ => hsome (.opens_node rfl)
    · exact .behind fun _ => .behind fun _ => hsome (.opens_node rfl)
    · exact .behind fun _ => hsome (leads_taggedTemplate h)
    · exact hnone
  · exact hsome (leads_taggedTemplate h)
  · exact hsome (leads_taggedTemplate h)
  · exact hnone

theorem leads_callStep (h : object.Opens k) :
    Leads P (callStep sub k (object, inChain)) fun next _ => ∀ found ∈ next, found.1.Opens k := by
  refine (leads_accessStep h).bind fun next => ?_
  cases next with
  | some next => exact .pure fun _ hnext => hnext
  | none =>
    have hsome : ∀ {items : List Node} {optional chained : Bool},
        Leads (fun _ => True) (do return some (← node (.call optional) k items, chained))
          fun next _ => ∀ found ∈ next, found.1.Opens k := by
      refine .bind (.opens_node rfl) fun n => .pure fun _ hn found hfound => ?_
      cases hfound
      exact hn
    refine .behind fun _ => .ite (fun _ => .behind fun _ => hsome) fun _ => .behind fun _ => .ite
      (fun _ => .behind fun _ => .ite (fun _ => .behind fun _ => hsome) fun _ => .unexpected)
      fun _ => .pure fun _ _ _ hfound => by cases hfound

end Accesses

theorem leads_newExpression {primary : Parse Node} :
    Leads (StartsAt k) (newExpression sub primary) fun n _ => n.Opens k := by
  refine .bind_here <| .behind fun word => .behind fun _ => ?_
  extract_lets behind
  have hbehind : ∀ u, Leads (fun _ => True) (behind u) fun n _ => n.Opens k := by
    intro u
    refine .behind fun calleeStart => .behind fun head => .behind fun ⟨callee, _⟩ => ?_
    dsimp only
    -- a callee that may not be called halts or is noted; either way the node begins at `k`
    repeat' first
      | exact .fail
      | exact .opens_node rfl
      | refine .ite (fun _ => ?_) fun _ => ?_
      | refine .behind fun _ => ?_
      | split
  refine .ite (fun _ => .behind fun _ => .ite ?_ ?_) fun _ => hbehind ()
  · exact fun _ => .behind fun _ => .opens_node rfl
  · exact fun _ => .bind .fail hbehind

theorem leads_primaryWith {self : Parse Node} :
    Leads (StartsAt k) (primaryWith sub self) fun n _ => n.Opens k := by
  have hfunction : ∀ {P isAsync}, Leads P (function sub k isAsync .expression) fun n _ =>
      n.Opens k := fun s n t _ hok => by
    obtain ⟨_, _, _, _, _, rfl, -⟩ := yields_function s n t trivial hok
    exact ⟨rfl, rfl⟩
  have hclass : ∀ {P decorations}, Leads P (classDefinition sub k false decorations) fun n _ =>
      n.Opens k := fun s n t _ hok => by
    obtain ⟨_, _, _, rfl, -⟩ := yields_classDefinition s n t trivial hok
    exact ⟨rfl, rfl⟩
  refine .bind_token fun t ht => ?_
  dsimp only
  rw [ht]
  split
  · split
    · exact hfunction
    · exact hclass
    · exact leads_newExpression
    · exact leads_superExpression
    · exact leads_importExpression
    · exact leads_leaf rfl
    · exact leads_leaf rfl
    · exact leads_leaf rfl
    · exact leads_leaf rfl
    · exact (Steady.lookahead _).leads.bind fun _ => .ite (fun _ => .behind fun _ => hfunction)
        fun _ => leads_identifierReference
    · exact leads_identifierReference
  · exact leads_arrayLiteral
  · exact leads_objectLiteral
  · exact leads_parenthesized
  · exact leads_regexLiteral
  · exact leads_regexLiteral
  · exact .behind fun _ => .behind fun _ => .ite (fun _ => hclass) fun _ => .unexpected
  · exact leads_template
  · exact leads_template
  · exact leads_stringLiteral
  · exact leads_numberLiteral
  · exact .unexpected

theorem leads_primaryNested (depth : Nat) :
    Leads (StartsAt k) (primaryNested sub depth) fun n _ => n.Opens k := by
  cases depth with
  | zero => exact .unexpected
  | succ depth => exact leads_primaryWith

/-- The expression in front of accesses and calls is where they begin. -/
theorem leads_leftHandSide : Leads (StartsAt k) (leftHandSide sub) fun n _ => n.Opens k := by
  refine .bind_here <| Steady.get.leads.bind fun s => (leads_primaryNested s.budget).bind
    fun head => ?_
  have hloop : ∀ state : Node × Bool, Leads (fun _ => state.1.Opens k) (callStep sub k state)
      fun next _ => (next.getD state).1.Opens k := by
    intro state s next t hstate hok
    cases next with
    | none => exact hstate
    | some found => exact leads_callStep (P := fun _ => True) hstate s _ t trivial hok found rfl
  refine .bind (Leads.iterate hloop (head, false)) fun ⟨n, inChain⟩ => .ite ?_ ?_
  · exact fun _ => .opens_node rfl
  · exact fun _ => .pure fun _ hn => hn

/-! ### Operators -/

theorem leads_yieldExpression :
    Leads (StartsAt k) (yieldExpression sub) fun n _ => n.Opens k := by
  refine .bind_here <| .behind fun s => ?_
  dsimp only
  -- there are nodes with and without an operand, all of them at `k`
  repeat' first
    | exact .opens_node rfl
    | refine .ite (fun _ => ?_) fun _ => ?_
    | refine .behind fun _ => ?_

theorem leads_arrowBody {P : ParseState → Prop} {isAsync : Bool} {params : Node} :
    Leads P (arrowBody sub k isAsync params) fun n _ => n.Opens k :=
  .behind fun _ => .behind fun _ => .opens_node rfl

theorem leads_simpleArrow {P : ParseState → Prop} {isAsync : Bool} {identifier : Node} :
    Leads P (simpleArrow sub k isAsync identifier) fun n _ => n.Opens k :=
  .behind fun _ => leads_arrowBody

/-- Where no arrow function is found, nothing has been read. -/
theorem leads_parenthesizedArrow : Leads (StartsAt k) (parenthesizedArrow sub) fun found s =>
    match found with
    | some n => n.Opens k
    | none => StartsAt k s := by
  have hnone : Leads (StartsAt k) (pure none : Parse (Option Node)) fun found s =>
      match found with
      | some n => n.Opens k
      | none => StartsAt k s := .pure fun _ hs => hs
  have hsome : ∀ {P isAsync params}, Leads P
      (do return some (← arrowBody sub k isAsync params) : Parse (Option Node)) fun found s =>
        match found with
        | some n => n.Opens k
        | none => StartsAt k s := leads_arrowBody.bind fun _ => .pure fun _ hn => hn
  refine .bind_here <| (Steady.isAt _).leads.bind fun _ => (Steady.atWord _).leads.bind fun _ =>
    .ite (fun _ => hnone) fun _ => (Steady.lookahead _).leads.bind fun hint => ?_
  cases hint with
  | no => exact hnone
  | yes => exact .behind fun _ => hsome
  | maybe =>
    refine Steady.get.leads.bind fun s => .ite (fun _ => hnone) fun _ => ?_
    refine (Leads.attempt (Q := fun _ _ => True) fun _ _ _ _ _ => trivial).bind fun found => ?_
    cases found with
    | some head => exact hsome
    | none =>
      intro s a t hs hok
      cases hok
      exact hs

theorem leads_updateExpression
    (hsub : Leads (StartsAt k) (sub .leftHandSide) fun n _ => n.Opens k) :
    Leads (StartsAt k) (updateExpression sub) fun n _ => n.Opens k := by
  refine .bind_token fun t ht => ?_
  dsimp only
  rw [ht]
  refine .ite (fun _ => .behind fun _ => .behind fun _ => .behind fun _ => .opens_node rfl) ?_
  exact fun _ => hsub.bind fun operand => (Leads.kept _).bind fun after => .ite
    (fun _ => .behind fun _ => .behind fun _ => .opens_node rfl) fun _ => .pure fun _ hn => hn

theorem leads_unaryExpression
    (hsub : Leads (StartsAt k) (sub .leftHandSide) fun n _ => n.Opens k) :
    Leads (StartsAt k) (unaryExpression sub) fun n _ => n.Opens k := by
  refine .bind_token fun t ht => ?_
  dsimp only
  rw [ht]
  have hupdate := leads_updateExpression hsub
  refine .ite (fun _ => .behind fun _ => .behind fun _ => .opens_node rfl) fun _ => .ite ?_ ?_
  · refine fun _ => Steady.get.leads.bind fun s => (Steady.lookahead _).leads.bind fun _ => .ite ?_ ?_
    · refine fun _ => .ite (fun _ => .behind fun _ => ?_) fun _ => ?_
      · exact .behind fun _ => .behind fun _ => .opens_node rfl
      · exact .behind fun _ => .behind fun _ => .opens_node rfl
    · exact fun _ => hupdate
  · exact fun _ => hupdate

theorem leads_binaryStep {P : ParseState → Prop} {above : Nat} {inParens : Bool} {left : Node} :
    Leads P (binaryStep sub k above inParens left) fun next _ => ∀ n ∈ next, n.Opens k := by
  have hnone : ∀ {P}, Leads P (pure none : Parse (Option Node)) fun next _ =>
      ∀ n ∈ next, n.Opens k := .pure fun _ _ _ hn => by cases hn
  have hsome : ∀ {P operator right}, Leads P
      (do return some (← node (.binary operator) k [left, right])) fun next _ =>
        ∀ n ∈ next, n.Opens k := .bind (.opens_node rfl) fun n => .pure fun _ hn m hm => by
    cases hm
    exact hn
  have hlogical : ∀ {P operator right}, Leads P
      (do return some (← node (.logical operator) k [left, right])) fun next _ =>
        ∀ n ∈ next, n.Opens k := .bind (.opens_node rfl) fun n => .pure fun _ hn m hm => by
    cases hm
    exact hn
  refine .behind fun t => ?_
  split
  · exact hnone
  refine .ite (fun _ => hnone) fun _ => .behind fun _ => .ite (fun _ => hnone) fun _ =>
    .behind fun _ => .behind fun right => .ite (fun _ => .ite ?_ ?_) fun _ => .ite ?_ ?_
  · exact fun _ => .behind fun _ => hlogical
  · exact fun _ => hlogical
  · intro _
    split
    · exact .behind fun _ => hsome
    · exact .behind fun _ => hsome
    · exact hsome
  · exact fun _ => hsome

theorem leads_binaryExpression
    (hsub : Leads (StartsAt k) (sub .leftHandSide) fun n _ => n.Opens k) (above : Nat) :
    Leads (StartsAt k) (binaryExpression sub above) fun n _ => n.Opens k := by
  refine .bind_token fun t ht => ?_
  rw [ht]
  extract_lets start isPrivate loop joined
  have hloop : ∀ first : Node, Leads (fun _ => first.Opens k) (loop first) fun n _ => n.Opens k := by
    intro first
    have hstep : ∀ left : Node, Leads (fun _ => left.Opens k)
        (binaryStep sub k above (t.isPunct .leftParen) left) fun next _ =>
          (next.getD left).Opens k := by
      intro left s next u hleft hok
      cases next with
      | none => exact hleft
      | some found => exact leads_binaryStep (P := fun _ => True) s _ u trivial hok found rfl
    exact Leads.iterate hstep first
  have hjoined : ∀ u, Leads (fun _ => True) (joined u) fun n _ => n.Opens k := fun _ =>
    .behind fun _ => .behind fun _ => .behind fun _ => .bind (.opens_node rfl) hloop
  refine Steady.get.leads.bind fun s => .ite (fun _ => .ite ?_ ?_) fun _ => ?_
  · exact fun _ => .bind .unexpected hjoined
  · exact fun _ => (hjoined ()).mono (fun _ _ => trivial) fun _ _ => id
  · exact (leads_unaryExpression hsub).bind hloop

variable (hsub : ∀ g, g.isExpression = true →
  Leads (StartsAt k) (sub g) fun n _ => n.Opens k)
include hsub

theorem leads_assignmentExpression :
    Leads (StartsAt k) (assignmentExpression sub) fun n _ => n.Opens k := by
  refine .bind_here <| (Steady.atWord _).leads.bind fun _ => ?_
  extract_lets behind
  have hbehind : ∀ u, Leads (StartsAt k) (behind u) fun n _ => n.Opens k := by
    intro u
    refine leads_parenthesizedArrow.bind fun found => ?_
    cases found with
    | some arrow => exact .pure fun _ hn => hn
    | none =>
      refine (Steady.lookahead _).leads.bind fun _ => .ite ?_ ?_
      · exact fun _ => .behind fun _ => .behind fun _ => leads_simpleArrow
      refine fun _ => (leads_binaryExpression (hsub _ rfl) 0).bind fun left =>
        (Leads.kept _).bind fun t => .ite (fun _ => leads_simpleArrow) fun _ => ?_
      extract_lets conditional
      have hconditional : ∀ u, Leads (fun _ => left.Opens k) (conditional u) fun n _ => n.Opens k :=
        fun _ => (Leads.kept _).bind fun _ => .ite
          (fun _ => .behind fun _ => .behind fun _ => .behind fun _ => .opens_node rfl)
          fun _ => .pure fun _ hn => hn
      split
      · refine .ite (fun _ => ?_) fun _ => hconditional ()
        extract_lets assign
        have hassign : ∀ target, Leads (fun _ => True) (assign target) fun n _ => n.Opens k :=
          fun _ => .behind fun _ => .behind fun _ => .opens_node rfl
        exact .ite (fun _ => .behind hassign) fun _ => .behind hassign
      · exact hconditional ()
  refine .ite (fun _ => Steady.get.leads.bind fun _ => (Steady.lookahead _).leads.bind fun _ => ?_)
    fun _ => hbehind ()
  exact .ite (fun _ => leads_yieldExpression) fun _ => hbehind ()

theorem leads_expression : Leads (StartsAt k) (expression sub) fun n _ => n.Opens k := by
  refine .bind_here <| (Leads.permitting (hsub .assignment rfl) (fun _ _ => id) (fun _ _ _ => id)
    _).bind fun first => (Leads.kept _).bind fun _ => .ite ?_ fun _ => .pure fun _ hn => hn
  exact fun _ => .behind fun _ => .opens_node rfl

end Expressions

/-- Each expression that the grammar reads begins with its first token, and has not the label of a
declaration. -/
theorem leads_goal (depth k : Nat) (g : Goal) (hg : g.isExpression = true) :
    Leads (StartsAt k) (goal depth g) fun n _ => n.Opens k := by
  induction depth generalizing g with
  | zero => exact .unexpected
  | succ depth ih =>
    cases g with
    | expression => exact leads_expression ih
    | assignment => exact leads_assignmentExpression ih
    | binary above => exact leads_binaryExpression (ih _ rfl) above
    | unary => exact leads_unaryExpression (ih _ rfl)
    | leftHandSide => exact leads_leftHandSide
    | statement _ => cases hg
    | pattern => cases hg
    | block => cases hg
    | functionBody => cases hg

end ModuleBundler.Syntax
