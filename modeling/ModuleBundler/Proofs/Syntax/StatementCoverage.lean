import ModuleBundler.Proofs.Syntax.ExpressionCoverage

/-!
# Statements account for their references
-/

namespace ModuleBundler.Syntax

open Parse Grammar

variable {v : Watch} {c : Nat} {sub : Goal → Parse Node}

/-! ## Statements -/

theorem passes_checkInitializer {kind : VariableKind} {d : Node} :
    Passes v (checkInitializer kind d) := by
  unfold checkInitializer
  dsimp only
  exact .ite (.ite passes_report (.ite passes_report (.pure (Nat.le_refl _)))) (.pure (Nat.le_refl _))

theorem reads_jump {label : Label} (h : label.isPlain = true) : Reads v (jump label) := by
  refine .look .here fun start => .behind passes_advance fun _ => .look .canEndStatement fun _ => ?_
  extract_lets finish
  have hfinish : ∀ target, Carries v (target.hits v.offset) (finish target) (Node.hits v.offset) :=
    fun _ => .behind passes_semicolon fun _ => .node₁ h _
  exact .ite (.bind reads_absent hfinish) (.bind reads_labelIdentifier hfinish)

theorem carries_expressionStatement {start : Nat} (e : Node) :
    Carries v (e.hits v.offset) (expressionStatement start e) (Node.hits v.offset) :=
  .behind passes_semicolon fun _ => .node₁ rfl _

theorem passes_forIn {nodes : List Node} {p : Node → Parse Unit} (h : ∀ n, Passes v (p n)) :
    Passes v (forIn nodes PUnit.unit fun n _ => do
      p n
      pure (ForInStep.yield PUnit.unit)) := by
  induction nodes with
  | nil => exact .pure (Nat.le_refl _)
  | cons n rest ih =>
    rw [List.forIn_cons]
    refine .behind (.behind (h n) fun _ => .pure (Nat.le_refl _)) fun next => ?_
    cases next with
    | done _ => exact .pure (Nat.le_refl _)
    | yield _ => exact ih

theorem steady_forDeclarationKind : Steady forDeclarationKind := by
  refine (Steady.atWord _).bind fun _ => ?_
  split
  · exact .pure _
  refine (Steady.atWord _).bind fun _ => ?_
  split
  · exact .pure _
  refine (Steady.atWord _).bind fun _ => ?_
  split
  · exact (Steady.lookahead _).bind fun _ => .pure _
  · exact .pure _

section Statements

variable (hsub : ∀ g, Reads v (sub g))
include hsub

theorem reads_declarator {kind : VariableKind} : Reads v (declarator sub kind) := by
  refine .look .here fun start => .bind (hsub _) fun pattern => .behind passes_eat fun _ => ?_
  extract_lets finish
  have hfinish : ∀ value, Carries v (pattern.hits v.offset + value.hits v.offset) (finish value)
      (Node.hits v.offset) := fun _ => .node₂ rfl _ _
  exact .ite (.also (hsub _) hfinish) (.also reads_absent hfinish)

theorem reads_declarators {start : Nat} {kind : VariableKind} {inLoop : Bool} :
    Reads v (declarators sub start kind inLoop) := by
  unfold declarators
  extract_lets one
  have hone : Reads v one := .bind (reads_declarator hsub) fun d => .ite
    (.behind passes_checkInitializer fun _ => .pure (Nat.le_refl _)) (.pure (Nat.le_refl _))
  refine .bind hone fun first => .bind (Carries.iterate (w := hitsEach v.offset) (fun items => ?_)
    [first]) fun items => ?_
  · exact .behind passes_eat fun _ => .ite (.also hone fun n =>
      .pure (Nat.le_of_eq (Nat.add_comm _ _))) (.pure (Nat.le_refl _))
  · rw [← hitsEach_reverse]
    exact .nodes rfl _

theorem reads_variableStatement {kind : VariableKind} {position : StatementPlace} :
    Reads v (variableStatement sub kind position) := by
  refine .look .here fun start => .behind passes_advance fun _ => .bind (reads_declarators hsub)
    fun n => .behind passes_semicolon fun _ => .bind ((Carries.nodes rfl _).mono
    (hitsEach_children_le _ n) fun _ => Nat.le_refl _) fun _ => ?_
  exact .ite (.behind passes_report fun _ => .pure (Nat.le_refl _)) (.pure (Nat.le_refl _))

theorem reads_letStatement {position : StatementPlace} : Reads v (letStatement sub position) := by
  refine .look .here fun start => .look (.lookahead _) fun follower => .ite ?_ (.ite ?_ (.ite ?_ ?_))
  · exact .bind (hsub _) fun _ => carries_expressionStatement _
  · exact .bind (hsub _) fun _ => carries_expressionStatement _
  · exact .bind reads_identifierReference fun _ => carries_expressionStatement _
  · exact reads_variableStatement hsub

theorem reads_headExpression : Reads v (headExpression sub) :=
  .behind passes_expect fun _ => .bind (hsub _) fun _ => .behind passes_expect fun _ =>
    .pure (Nat.le_refl _)

theorem reads_block : Reads v (block sub) :=
  .look .here fun _ => .behind passes_expect fun _ =>
    .bind (reads_repeatUntil (.atClose _) (hsub _)) fun _ => .behind passes_expect fun _ =>
    .nodes rfl _

theorem reads_expressionOrLabeled : Reads v (expressionOrLabeled sub) := by
  refine .look .here fun start => .bind (hsub _) fun e => ?_
  split
  · rename_i name _
    refine .behind passes_eat fun _ => .ite ?_ (carries_expressionStatement _)
    -- a name that turns out to be a label counts no more
    refine Carries.mono (c := 0) ?_ (Nat.zero_le _) fun _ => Nat.le_refl _
    exact .also (hsub _) fun body => .node₂ rfl (.mk (.labelName name) e.span []) body
  · exact carries_expressionStatement _

theorem reads_ifStatement : Reads v (ifStatement sub) := by
  refine .look .here fun start => .behind passes_advance fun _ => .bind (reads_headExpression hsub)
    fun test => .also (hsub _) fun consequent => .behind passes_eatWord fun _ => ?_
  extract_lets finish
  have hfinish : ∀ alternate, Carries v
      (test.hits v.offset + consequent.hits v.offset + alternate.hits v.offset) (finish alternate)
      (Node.hits v.offset) := fun _ => .node₃ rfl _ _ _
  exact .ite (.also (hsub _) hfinish) (.also reads_absent hfinish)

theorem reads_whileLoop : Reads v (whileLoop sub) :=
  .look .here fun _ => .behind passes_advance fun _ => .bind (reads_headExpression hsub) fun _ =>
    .also (hsub _) fun _ => .node₂ rfl _ _

theorem reads_doWhile : Reads v (doWhile sub) :=
  .look .here fun _ => .behind passes_advance fun _ => .bind (hsub _) fun _ =>
    .behind passes_expectWord fun _ => .also (reads_headExpression hsub) fun _ =>
    .behind passes_eat fun _ => .node₂ rfl _ _

theorem reads_returnStatement : Reads v (returnStatement sub) := by
  refine .look .here fun start => .behind passes_advance fun _ => .behind passes_eat fun _ =>
    .look .canEndStatement fun _ => ?_
  extract_lets finish
  have hfinish : ∀ value, Carries v (value.hits v.offset) (finish value) (Node.hits v.offset) :=
    fun _ => .look .get fun _ => .ite (.behind passes_report fun _ => .node₁ rfl _) (.node₁ rfl _)
  exact .ite (.bind reads_absent hfinish) (.bind ((hsub _).permitting _) fun value =>
    .behind passes_semicolon fun _ => .bind (.pure (Nat.le_refl _)) hfinish)

theorem reads_withStatement : Reads v (withStatement sub) :=
  .look .here fun _ => .behind passes_advance fun _ => .bind (reads_headExpression hsub) fun _ =>
    .also (hsub _) fun _ => .node₂ rfl _ _

theorem reads_switchCase : Reads v (switchCase sub) := by
  refine .look .here fun start => .behind passes_eatWord fun _ => ?_
  extract_lets atCaseEnd behind
  have hend : Steady atCaseEnd := (Steady.atWord _).bind fun _ => (Steady.atWord _).bind fun _ =>
    (Steady.isAt _).bind fun _ => Steady.atEnd.bind fun _ => .pure _
  have hbehind : ∀ test, Carries v (test.hits v.offset) (behind test) (Node.hits v.offset) :=
    fun test => .behind passes_expect fun _ =>
      .also (reads_repeatUntil hend (hsub _)) fun _ => .node_cons rfl _ _
  refine .ite (.bind reads_absent hbehind) ?_
  exact .behind passes_eatWord fun _ => .ite (.bind (hsub _) hbehind) (.halt fun _ => .unexpected)

theorem reads_switchStatement : Reads v (switchStatement sub) :=
  .look .here fun _ => .behind passes_advance fun _ => .bind (reads_headExpression hsub) fun _ =>
    .behind passes_expect fun _ => .also (reads_repeatUntil (.atClose _) (reads_switchCase hsub))
    fun _ => .behind passes_expect fun _ => .node_cons rfl _ _

theorem reads_throwStatement : Reads v (throwStatement sub) := by
  refine .look .here fun start => .behind passes_advance fun _ => .look .afterNewline fun _ => ?_
  extract_lets finish
  have hfinish : ∀ u, Reads v (finish u) := fun _ =>
    .bind (hsub _) fun _ => .behind passes_semicolon fun _ => .node₁ rfl _
  exact .ite (.behind passes_report hfinish) (hfinish ())

theorem reads_tryStatement : Reads v (tryStatement sub) := by
  refine .look .here fun start => .behind passes_advance fun _ => .bind (hsub _) fun body =>
    .look .here fun handlerStart => .behind passes_eatWord fun _ => ?_
  extract_lets behind
  have hbehind : ∀ handler, Carries v (body.hits v.offset + handler.hits v.offset) (behind handler)
      (Node.hits v.offset) := by
    refine fun handler => .behind passes_eatWord fun _ => ?_
    extract_lets finish
    have hfinish : ∀ finalizer, Carries v
        (body.hits v.offset + handler.hits v.offset + finalizer.hits v.offset) (finish finalizer)
        (Node.hits v.offset) := fun _ =>
      .ite (.behind passes_report fun _ => .node₃ rfl _ _ _) (.node₃ rfl _ _ _)
    exact .ite (.also (hsub _) hfinish) (.also reads_absent hfinish)
  have hclause : ∀ parameter : Node, Carries v (body.hits v.offset + parameter.hits v.offset)
      (do let handlerBody ← sub .block
          let handler ← node .catchClause handlerStart [parameter, handlerBody]
          behind handler) (Node.hits v.offset) := by
    refine fun parameter => .also (hsub _) fun block => ?_
    rw [Nat.add_assoc]
    exact .beside (.node₂ rfl parameter block) hbehind
  refine .ite (.behind passes_eat fun _ => .ite ?_ ?_) (.also reads_absent hbehind)
  · exact .also (hsub _) fun pattern => .behind passes_expect fun _ =>
      .beside (.pure (w := Node.hits v.offset) (Nat.le_refl _)) hclause
  · exact .also reads_absent hclause

/-! ### For loops -/

theorem carries_forLoop {start : Nat} {isAwait : Bool} (first : Node) :
    Carries v (first.hits v.offset) (forLoop sub start isAwait first) (Node.hits v.offset) := by
  refine .behind passes_expect fun _ => ?_
  extract_lets behindTest behind
  have hbehindTest : ∀ test, Carries v (first.hits v.offset + test.hits v.offset)
      (behindTest test) (Node.hits v.offset) := by
    refine fun test => .behind passes_expect fun _ => .look (.isAt _) fun _ => ?_
    extract_lets behindStep
    have hbehindStep : ∀ step, Carries v
        (first.hits v.offset + test.hits v.offset + step.hits v.offset) (behindStep step)
        (Node.hits v.offset) := by
      refine fun step => .behind passes_expect fun _ => ?_
      extract_lets finish
      have hfinish : ∀ u, Carries v
          (first.hits v.offset + test.hits v.offset + step.hits v.offset) (finish u)
          (Node.hits v.offset) := fun _ =>
        .also (hsub _) fun body => (Carries.nodes rfl [first, test, step, body]).mono
          (by simp only [hitsEach]; omega) fun _ => Nat.le_refl _
      exact .ite (.behind passes_report hfinish) (hfinish ())
    exact .ite (.also reads_absent hbehindStep) (.also ((hsub _).permitting _) hbehindStep)
  have hbehind : ∀ u, Carries v (first.hits v.offset) (behind u) (Node.hits v.offset) := fun _ =>
    .look (.isAt _) fun _ => .look (.isAt _) fun _ =>
      .ite (.also reads_absent hbehindTest) (.also ((hsub _).permitting _) hbehindTest)
  split
  · exact .behind (passes_forIn fun _ => passes_checkInitializer) hbehind
  · exact hbehind ()

theorem carries_forEach {start : Nat} {isAwait : Bool} (left : Node) :
    Carries v (left.hits v.offset) (forEach sub start isAwait left) (Node.hits v.offset) := by
  refine .look (.atWord _) fun isIn => .behind passes_advance fun _ => ?_
  extract_lets behind
  have hbehind : ∀ right, Carries v (left.hits v.offset + right.hits v.offset) (behind right)
      (Node.hits v.offset) := by
    refine fun right => .behind passes_expect fun _ => ?_
    extract_lets finish
    have hfinish : ∀ u, Carries v (left.hits v.offset + right.hits v.offset) (finish u)
        (Node.hits v.offset) := by
      refine fun _ => .also (hsub _) fun body => .node₃ ?_ _ _ _
      cases isIn <;> rfl
    exact .ite (.behind passes_report hfinish) (hfinish ())
  exact .ite (.also (hsub _) hbehind) (.also (hsub _) hbehind)

theorem reads_forStatement : Reads v (forStatement sub) := by
  refine .look .here fun start => .behind passes_advance fun _ => .look (.atWord _) fun isAwait => ?_
  extract_lets behind
  have hbehind : ∀ u, Reads v (behind u) := by
    intro u
    refine .behind passes_expect fun _ => .look (.isAt _) fun _ =>
      .ite (carries_forLoop hsub .absent) (.look steady_forDeclarationKind fun kind => ?_)
    split
    · exact .look .here fun _ => .behind passes_advance fun _ =>
        .bind ((reads_declarators hsub).permitting _) fun first => .look (.atWord _) fun _ =>
        .look (.atWord _) fun _ => .ite (carries_forEach hsub first) (carries_forLoop hsub first)
    · refine .look (.isAt _) fun _ => .ite (carries_forLoop hsub .absent) <| .look .token
        fun firstToken => .look (.lookahead _) fun follower => ?_
      extract_lets beforeOf
      refine .bind ((hsub _).permitting _) fun first => .look (.atWord _) fun _ =>
        .look (.atWord _) fun _ => .ite (.bind (carries_targets.1 first) fun target => ?_)
        (carries_forLoop hsub first)
      extract_lets finish checked
      have hchecked : ∀ u, Carries v (target.hits v.offset) (checked u) (Node.hits v.offset) :=
        fun _ => .ite (.behind passes_report fun _ => carries_forEach hsub target)
          (carries_forEach hsub target)
      exact .ite (.behind passes_report hchecked) (hchecked ())
  exact .ite (.look .get fun _ => .ite (.look .here fun _ => .behind passes_report fun _ =>
    .behind passes_advance hbehind) (.behind passes_advance hbehind)) (hbehind ())

/-! ### Declarations -/

theorem reads_functionStatement {start : Nat} {isAsync : Bool} {position : StatementPlace} :
    Reads v (functionStatement sub start isAsync position) := by
  refine .bind (reads_function hsub) fun n => .ite ?_ (.pure (Nat.le_refl _))
  split
  · exact .behind passes_report fun _ => .pure (Nat.le_refl _)
  · exact .behind passes_report fun _ => .pure (Nat.le_refl _)
  · exact .pure (Nat.le_refl _)

theorem carries_classStatement {start : Nat} {position : StatementPlace} (decorations : List Node) :
    Carries v (hitsEach v.offset decorations) (classStatement sub start decorations position)
      (Node.hits v.offset) :=
  .bind (carries_classDefinition hsub decorations) fun _ =>
    .ite (.behind passes_report fun _ => .pure (Nat.le_refl _)) (.pure (Nat.le_refl _))

end Statements

/-! ## Module items -/

theorem reads_moduleName : Reads v moduleName := by
  refine .look .token fun t => ?_
  split
  · exact .bind reads_stringLiteral fun n => .ite
      (.behind passes_report fun _ => .pure (Nat.le_refl _)) (.pure (Nat.le_refl _))
  · exact reads_identifierName

theorem reads_importAttribute : Reads v importAttribute := by
  refine .look .here fun start => .look .token fun t => ?_
  extract_lets finish
  have hfinish : ∀ key, Carries v (key.hits v.offset) (finish key) (Node.hits v.offset) := fun _ =>
    .behind passes_expect fun _ => .also reads_stringLiteral fun _ => .node₂ rfl _ _
  split
  · exact .bind reads_stringLiteral hfinish
  · exact .bind reads_identifierName hfinish

theorem passes_checkAttributes {seen : List (String × Nat)} {items : List Node} :
    Passes v (checkAttributes seen items) := by
  induction items generalizing seen with
  | nil => exact .pure (Nat.le_refl _)
  | cons n rest ih =>
    unfold checkAttributes
    dsimp only
    split
    · exact .behind passes_report fun _ => ih
    · exact ih

theorem reads_importAttributes : ReadsEach v importAttributes := by
  refine .look (.atWord _) fun _ => .look (.atWord _) fun _ => .look .afterNewline fun _ =>
    .ite reads_nil (.behind passes_advanceName fun _ => .behind passes_expect fun _ => ?_)
  exact .bind (carries_commaList reads_importAttribute) fun ⟨_, _⟩ =>
    .behind passes_expect fun _ => .behind passes_checkAttributes fun _ => .pure (Nat.le_refl _)

theorem reads_importSpecifier : Reads v importSpecifier := by
  refine .look .here fun start => .look .token fun first => .bind reads_moduleName fun name =>
    .behind passes_eatWord fun _ => ?_
  extract_lets finish
  have hfinish : ∀ localToken localName, Carries v (name.hits v.offset)
      (finish (name, localToken, localName)) (Node.hits v.offset) := by
    intro localToken localName
    unfold finish
    dsimp only
    split
    · exact .ite (.halt fun _ => .fail)
        (.node₂ rfl name (.mk (.binding _) localName.span []))
    · exact .fail
  refine .ite (.look .token fun second => .also reads_moduleName fun other => ?_) (hfinish _ _)
  exact (hfinish _ _).mono (Nat.le_add_right _ _) fun _ => Nat.le_refl _

theorem reads_importNamespace : Reads v importNamespace :=
  .look .here fun _ => .behind passes_advance fun _ => .behind passes_expectWord fun _ =>
    .bind reads_bindingIdentifier fun _ => .node₁ rfl _

theorem reads_importNames : ReadsEach v importNames :=
  .behind passes_expect fun _ => .bind ((carries_commaList reads_importSpecifier).permitting _)
    fun ⟨_, _⟩ => .behind passes_expect fun _ => .pure (Nat.le_refl _)

theorem reads_importClause : ReadsEach v importClause := by
  refine .look .here fun start => .look .atIdentifier fun _ => ?_
  extract_lets others
  have hothers : ∀ u, ReadsEach v (others u) := fun _ => .look (.isAt _) fun _ =>
    .ite (.bind reads_importNamespace fun _ => .pure (Nat.le_refl _)) <|
    .look (.isAt _) fun _ => .ite reads_importNames reads_nil
  refine .ite (.bind reads_bindingIdentifier fun name => .bind (.node₁ rfl name) fun first =>
    .behind passes_eat fun _ => .ite (.look (.isAt _) fun _ => .ite ?_ ?_) ?_) (hothers ())
  · exact .also reads_importNamespace fun second => .pure (Nat.le_refl _)
  · exact .look (.isAt _) fun _ => .ite
      (.also reads_importNames fun items => .pure (Nat.le_refl _)) (.halt fun _ => .unexpected)
  · exact .pure (Nat.le_refl _)

/-- Nodes before a source and attributes behind it. -/
theorem carries_nodeWithSource {label : Label} {start : Nat} (h : label.isPlain = true)
    (specifiers : List Node) (source : Node) (attributes : List Node) :
    Carries v (hitsEach v.offset specifiers + source.hits v.offset + hitsEach v.offset attributes)
      (node label start (specifiers ++ source :: attributes)) (Node.hits v.offset) := by
  refine (Carries.nodes h _).mono (Nat.le_of_eq ?_) fun _ => Nat.le_refl _
  rw [hitsEach_append, hitsEach, Nat.add_assoc]

/-- An import passes its word and accounts for what stands behind it. -/
theorem exists_advance_of_import {s t : ParseState} {n : Node} (hok : importDeclaration s = .ok (n, t)) :
    ∃ u, advance s = .ok ((), u) ∧
      ∀ v others, Counted v others u → Counted v (others + n.hits v.offset) t := by
  obtain ⟨start, _, hhere, hok⟩ := bind_ok hok
  cases hhere
  obtain ⟨_, u, hadvance, hok⟩ := bind_ok hok
  refine ⟨u, hadvance, fun v others hu => (?_ : Reads v _) others u n t hu hok⟩
  refine .look .token fun t => ?_
  extract_lets isBare finish
  have hfinish : ∀ specifiers, Carries v (hitsEach v.offset specifiers) (finish specifiers)
      (Node.hits v.offset) := fun specifiers =>
    .also reads_stringLiteral fun source => .also reads_importAttributes fun attributes =>
      .behind passes_semicolon fun _ => carries_nodeWithSource rfl specifiers source attributes
  exact .ite (.bind reads_nil hfinish) (.bind reads_importClause fun items =>
    .behind passes_expectWord fun _ => .bind (.pure (Nat.le_refl _)) hfinish)

theorem reads_importDeclaration : Reads v importDeclaration := by
  intro others s n t hs hok
  obtain ⟨u, hadvance, hreads⟩ := exists_advance_of_import hok
  exact hreads v others (passes_advance others s () u hs hadvance)

/-! ### Names without references -/

/-- No reference in a node hits anything. -/
def Node.Silent (n : Node) : Prop := ∀ k, n.hits k = 0

theorem hitsEach_eq_zero {items : List Node} (h : ∀ n ∈ items, n.Silent) (k : Nat) :
    hitsEach k items = 0 := by
  induction items with
  | nil => rfl
  | cons n rest ih =>
    obtain ⟨hn, hrest⟩ := List.forall_mem_cons.1 h
    rw [hitsEach, hn k, ih hrest]

theorem silent_mk {label : Label} (h : label.isPlain = true) {span : Span} {children : List Node}
    (hchildren : ∀ n ∈ children, n.Silent) : (Node.mk label span children).Silent := by
  intro k
  rw [hits_mk h, hitsEach_eq_zero hchildren]

theorem yields_stringLiteral_silent : Yields stringLiteral Node.Silent := by
  refine .behind fun t => ?_
  split
  · exact .leaf fun _ _ => rfl
  · exact .unexpected

theorem yields_identifierName_silent : Yields identifierName Node.Silent := by
  refine .behind fun t => ?_
  split
  · exact .nameLeaf fun _ _ _ => rfl
  · exact .unexpected

theorem yields_moduleName_silent : Yields moduleName Node.Silent := by
  refine .behind fun t => ?_
  split
  · exact yields_stringLiteral_silent.bind fun n hn => .ite (.behind fun _ => .pure hn) (.pure hn)
  · exact yields_identifierName_silent

theorem yields_bindingIdentifier_silent : Yields bindingIdentifier Node.Silent :=
  .behind fun _ => .ite (.behind fun _ => .behind fun _ => .behind fun _ => .behind fun _ =>
    .nameLeaf fun _ _ _ => rfl) .unexpected

theorem yields_importAttributes_silent :
    Yields importAttributes fun items => ∀ n ∈ items, n.Silent := by
  have hattribute : Yields importAttribute Node.Silent := by
    refine .behind fun start => .behind fun t => ?_
    extract_lets finish
    have hfinish : ∀ key : Node, key.Silent → Yields (finish key) Node.Silent := fun _ hkey =>
      .behind fun _ => yields_stringLiteral_silent.bind fun _ hvalue => .node fun _ =>
        silent_mk rfl (List.forall_mem_cons.2 ⟨hkey, List.forall_mem_singleton.2 hvalue⟩)
    split
    · exact yields_stringLiteral_silent.bind hfinish
    · exact yields_identifierName_silent.bind hfinish
  refine .behind fun _ => .behind fun _ => .behind fun _ => .ite (.pure fun _ hn => by cases hn) ?_
  refine .behind fun _ => .behind fun _ => (Yields.commaList _ hattribute).bind fun r hr => ?_
  exact .behind fun _ => .behind fun _ => .pure hr

theorem yields_importSpecifier_silent : Yields importSpecifier Node.Silent := by
  refine .behind fun start => .behind fun first => yields_moduleName_silent.bind fun name hname =>
    .behind fun _ => ?_
  extract_lets finish
  have hfinish : ∀ localToken localName, Yields (finish (name, localToken, localName))
      Node.Silent := by
    intro localToken localName
    unfold finish
    dsimp only
    split
    · refine .ite .fail (.node fun _ => silent_mk rfl (List.forall_mem_cons.2 ⟨hname, ?_⟩))
      exact List.forall_mem_singleton.2 fun _ => rfl
    · exact .fail
  exact .ite (.behind fun _ => .behind fun _ => hfinish _ _) (hfinish _ _)

theorem yields_importNamespace_silent : Yields importNamespace Node.Silent :=
  .behind fun _ => .behind fun _ => .behind fun _ => yields_bindingIdentifier_silent.bind
    fun _ hname => .node fun _ => silent_mk rfl (List.forall_mem_singleton.2 hname)

theorem yields_importNames_silent : Yields importNames fun items => ∀ n ∈ items, n.Silent :=
  .behind fun _ => ((Yields.commaList _ yields_importSpecifier_silent).permitting _).bind
    fun _ hr => .behind fun _ => .pure hr

theorem yields_importClause_silent : Yields importClause fun items => ∀ n ∈ items, n.Silent := by
  refine .behind fun start => .behind fun _ => ?_
  extract_lets others
  have hothers : ∀ u, Yields (others u) fun items => ∀ n ∈ items, n.Silent := fun _ =>
    .behind fun _ => .ite (yields_importNamespace_silent.bind fun _ hn =>
      .pure (List.forall_mem_singleton.2 hn)) (.behind fun _ => .ite yields_importNames_silent
        (.pure fun _ hn => by cases hn))
  refine .ite (yields_bindingIdentifier_silent.bind fun name hname => ?_) (hothers ())
  refine .bind (Q := Node.Silent) (.node fun _ => silent_mk rfl (List.forall_mem_singleton.2 hname))
    fun first hfirst => .behind fun _ => .ite (.behind fun _ => .ite ?_ ?_) ?_
  · exact yields_importNamespace_silent.bind fun second hsecond =>
      .pure (List.forall_mem_cons.2 ⟨hfirst, List.forall_mem_singleton.2 hsecond⟩)
  · exact .behind fun _ => .ite (yields_importNames_silent.bind fun _ hitems =>
      .pure (List.forall_mem_cons.2 ⟨hfirst, hitems⟩)) (.bind (Q := fun _ => False) .unexpected
        fun _ h => h.elim)
  · exact .pure (List.forall_mem_singleton.2 hfirst)

/-- Nothing in an import is a reference. -/
theorem yields_importDeclaration_silent : Yields importDeclaration Node.Silent := by
  refine .behind fun start => .behind fun _ => .behind fun t => ?_
  extract_lets isBare finish
  have hfinish : ∀ specifiers : List Node, (∀ n ∈ specifiers, n.Silent) →
      Yields (finish specifiers) Node.Silent := fun _ hspecifiers =>
    yields_stringLiteral_silent.bind fun _ hsource => yields_importAttributes_silent.bind
      fun _ hattributes => .behind fun _ => .node fun _ => silent_mk rfl
        (List.forall_mem_append.2 ⟨hspecifiers, List.forall_mem_cons.2 ⟨hsource, hattributes⟩⟩)
  refine .ite (.bind (Q := fun items => ∀ n ∈ items, n.Silent) (.pure fun _ hn => by cases hn)
    hfinish) ?_
  exact yields_importClause_silent.bind fun _ hitems => .behind fun _ =>
    .bind (Q := fun items => ∀ n ∈ items, n.Silent) (.pure hitems) hfinish

/-- Nothing in an export of everything is a reference. -/
theorem yields_exportAll_silent {start : Nat} : Yields (exportAll start) Node.Silent := by
  refine .behind fun _ => .behind fun _ => ?_
  extract_lets finish
  have hfinish : ∀ name : Node, name.Silent → Yields (finish name) Node.Silent := fun _ hname =>
    .behind fun _ => yields_stringLiteral_silent.bind fun _ hsource =>
      yields_importAttributes_silent.bind fun _ hattributes => .behind fun _ => .node fun _ =>
        silent_mk rfl (List.forall_mem_cons.2 ⟨hname, List.forall_mem_cons.2 ⟨hsource, hattributes⟩⟩)
  exact .ite (yields_moduleName_silent.bind hfinish)
    (.bind (Q := Node.Silent) (.pure fun _ => rfl) hfinish)

/-! ### Export lists -/

/-- How often a name counts that can become a reference; a string cannot. -/
def Node.nameHits (k : Nat) (n : Node) : Nat :=
  match n.label with
  | .name _ => n.span.hits k
  | _ => 0

/-- How often the local names of export specifiers count. -/
def specifierHits (k : Nat) : List Node → Nat
  | [] => 0
  | n :: rest => (n.child 0).nameHits k + specifierHits k rest

theorem specifierHits_concat (k : Nat) (items : List Node) (n : Node) :
    specifierHits k (items ++ [n]) = specifierHits k items + (n.child 0).nameHits k := by
  induction items with
  | nil => exact Nat.add_comm _ _
  | cons m items ih => rw [List.cons_append, specifierHits, ih, specifierHits, Nat.add_assoc]

/-- An export specifier has two names, without references in them. -/
def Node.IsSpecifier (n : Node) : Prop :=
  ∃ span name exported, n = .mk .exportSpecifier span [name, exported] ∧ name.Silent ∧ exported.Silent

theorem carries_moduleName : Carries v 0 moduleName (Node.nameHits v.offset) := by
  refine .look .token fun t => ?_
  split
  · have hstring : Carries v 0 stringLiteral (Node.nameHits v.offset) := by
      refine .look .token fun t => ?_
      split
      · exact .look .token fun _ => .behind passes_advance fun _ => .pure (Nat.le_refl _)
      · exact .unexpected
    exact .bind hstring fun n => .ite (.behind passes_report fun _ => .pure (Nat.le_refl _))
      (.pure (Nat.le_refl _))
  · intro others
    refine leads_identifierName.mono (fun _ hs => hs) ?_
    rintro n s ⟨hs, text, hn⟩
    rw [hn]
    rw [hn] at hs
    exact hs

theorem carries_exportSpecifier :
    Carries v 0 exportSpecifier fun n => (n.child 0).nameHits v.offset := by
  refine .look .here fun start => .bind carries_moduleName fun name =>
    .behind passes_eatWord fun _ => ?_
  extract_lets finish
  have hfinish : ∀ exported, Carries v (name.nameHits v.offset) (finish exported)
      fun n => (n.child 0).nameHits v.offset := fun _ => .look .get fun _ => .pure (Nat.le_refl _)
  refine .ite (.also reads_moduleName fun exported => ?_) (hfinish name)
  exact (hfinish exported).mono (Nat.le_add_right _ _) fun _ => Nat.le_refl _

theorem yields_exportSpecifier_silent : Yields exportSpecifier Node.IsSpecifier := by
  refine .behind fun start => yields_moduleName_silent.bind fun name hname => .behind fun _ => ?_
  extract_lets finish
  have hfinish : ∀ exported : Node, exported.Silent → Yields (finish exported) Node.IsSpecifier :=
    fun exported hexported => .node fun stop => ⟨_, name, exported, rfl, hname, hexported⟩
  exact .ite (yields_moduleName_silent.bind hfinish) (.bind (.pure hname) hfinish)

/-- A name that becomes a reference counts as one. -/
theorem carries_exportReference {name : Node} (h : name.Silent) :
    Carries v (name.nameHits v.offset) (exportReference name) (Node.hits v.offset) := by
  unfold exportReference
  split
  · exact .behind passes_report fun _ => .pure (by rw [h]; exact Nat.zero_le _)
  · rename_i text hlabel
    have hname : name.nameHits v.offset = (Node.mk (.reference text) name.span []).hits v.offset := by
      rw [Node.nameHits, hlabel]
      rfl
    rw [hname]
    exact .ite (.behind passes_report fun _ => .pure (Nat.le_refl _)) (.pure (Nat.le_refl _))
  · exact .pure (by rw [h]; exact Nat.zero_le _)

theorem carries_exportReferences {items : List Node} (h : ∀ n ∈ items, n.IsSpecifier) :
    Carries v (specifierHits v.offset items) (exportReferences items) (hitsEach v.offset) := by
  induction items with
  | nil => exact .pure (Nat.le_refl _)
  | cons n rest ih =>
    obtain ⟨⟨span, name, exported, rfl, hname, hexported⟩, hrest⟩ := List.forall_mem_cons.1 h
    refine .before (carries_exportReference hname) fun found => .beside (ih hrest) fun more =>
      .pure (Nat.le_of_eq ?_)
    show (Node.mk .exportSpecifier span [found, exported]).hits v.offset + _ = _
    rw [hits_mk rfl, hitsEach, hitsEach, hexported]
    rfl

theorem reads_exportNames {start : Nat} : Reads v (exportNames start) := by
  refine .behind passes_expect fun _ => .bind_of ((Carries.commaList rfl (specifierHits_concat _)
    carries_exportSpecifier).permitting _)
    ((Yields.commaList _ yields_exportSpecifier_silent).permitting _)
    fun ⟨items, _⟩ hitems => .behind passes_expect fun _ => .behind passes_eatWord fun _ =>
    .look .token fun _ => .ite ?_ ?_
  · have hsilent : hitsEach v.offset items = 0 := hitsEach_eq_zero (fun n hn => by
      obtain ⟨span, name, exported, rfl, hname, hexported⟩ := hitems n hn
      exact silent_mk rfl (List.forall_mem_cons.2 ⟨hname, List.forall_mem_singleton.2 hexported⟩)) _
    have hle : hitsEach v.offset items ≤ specifierHits v.offset items := hsilent ▸ Nat.zero_le _
    refine Carries.mono (c := hitsEach v.offset items) ?_ hle fun _ => Nat.le_refl _
    exact .also reads_stringLiteral fun source => .also reads_importAttributes fun attributes =>
      .behind passes_semicolon fun _ => carries_nodeWithSource rfl items source attributes
  · exact .bind (carries_exportReferences hitems) fun _ => .behind passes_semicolon fun _ =>
      .nodes rfl _

theorem reads_exportAll {start : Nat} : Reads v (exportAll start) := by
  refine .behind passes_advance fun _ => .behind passes_eatWord fun _ => ?_
  extract_lets finish
  have hfinish : ∀ name, Carries v (name.hits v.offset) (finish name) (Node.hits v.offset) :=
    fun name => .behind passes_expectWord fun _ => .also reads_stringLiteral fun source =>
      .also reads_importAttributes fun attributes => .behind passes_semicolon fun _ =>
      carries_nodeWithSource rfl [name] source attributes
  exact .ite (.bind reads_moduleName hfinish) (.bind reads_absent hfinish)

section Exports

variable (hsub : ∀ g, Reads v (sub g))
include hsub

theorem carries_defaultValue (decorations : List Node) :
    Carries v (hitsEach v.offset decorations) (defaultValue sub decorations) (Node.hits v.offset) := by
  -- decorators in front of anything but a class are dropped
  have hdrop : ∀ {p : Parse Node}, Reads v p →
      Carries v (hitsEach v.offset decorations) p (Node.hits v.offset) :=
    fun hp => hp.mono (Nat.zero_le _) fun _ => Nat.le_refl _
  refine .look .here fun start => .look (.atWord _) fun _ =>
    .ite (carries_classDefinition hsub decorations) <| .look (.isAt _) fun _ => .ite (hdrop ?_) <|
    .look (.atWord _) fun _ => .ite (hdrop (reads_function hsub)) <| .look (.lookahead _) fun _ =>
    .ite (hdrop ?_) (hdrop ?_)
  · exact .bind (reads_decorators hsub) fun more => .look (.atWord _) fun _ =>
      .ite (carries_classDefinition hsub more) .unexpected
  · exact .behind passes_advance fun _ => reads_function hsub
  · exact .bind (hsub _) fun _ => .behind passes_semicolon fun _ => .pure (Nat.le_refl _)

theorem carries_exportDefault {start : Nat} (decorations : List Node) :
    Carries v (hitsEach v.offset decorations) (exportDefault sub start decorations)
      (Node.hits v.offset) :=
  .look .here fun _ => .behind passes_advance fun _ => .bind (carries_defaultValue hsub decorations)
    fun _ => .node₁ rfl _

theorem carries_exportedDeclaration (decorations : List Node) :
    Carries v (hitsEach v.offset decorations) (exportedDeclaration sub decorations)
      (Node.hits v.offset) := by
  have hdrop : ∀ {p : Parse Node}, Reads v p →
      Carries v (hitsEach v.offset decorations) p (Node.hits v.offset) :=
    fun hp => hp.mono (Nat.zero_le _) fun _ => Nat.le_refl _
  refine .look .here fun start => .look (.atWord _) fun _ =>
    .ite (hdrop (reads_variableStatement hsub)) <|
    .look (.atWord _) fun _ => .ite (hdrop (reads_variableStatement hsub)) <|
    .look (.atWord _) fun _ => .ite (hdrop (reads_variableStatement hsub)) <|
    .look (.atWord _) fun _ => .ite (hdrop (reads_functionStatement hsub)) <|
    .look (.atWord _) fun _ => .ite (carries_classStatement hsub decorations) <|
    .look (.lookahead _) fun _ => .ite (hdrop ?_) <| .look (.isAt _) fun _ => .ite (hdrop ?_) .unexpected
  · exact .behind passes_advance fun _ => reads_functionStatement hsub
  · exact .bind (reads_decorators hsub) fun more => .look (.atWord _) fun _ =>
      .ite (carries_classStatement hsub more) .unexpected

theorem carries_exportDeclaration (decorations : List Node) :
    Carries v (hitsEach v.offset decorations) (exportDeclaration sub decorations)
      (Node.hits v.offset) := by
  have hdrop : ∀ {p : Parse Node}, Reads v p →
      Carries v (hitsEach v.offset decorations) p (Node.hits v.offset) :=
    fun hp => hp.mono (Nat.zero_le _) fun _ => Nat.le_refl _
  refine .look .here fun start => .behind passes_advance fun _ => .look (.atWord _) fun _ =>
    .ite (carries_exportDefault hsub decorations) <| .look (.isAt _) fun _ =>
    .ite (hdrop reads_exportAll) <| .look (.isAt _) fun _ => .ite (hdrop reads_exportNames) ?_
  exact .bind (carries_exportedDeclaration hsub decorations) fun _ => .node₁ rfl _

/-! ## Goals -/

theorem reads_statement {position : StatementPlace} : Reads v (statement sub position) := by
  refine .look .token fun t => ?_
  dsimp only
  split
  · exact reads_block hsub
  · exact reads_leaf rfl
  · exact .bind (reads_decorators hsub) fun decorations => .look (.atWord _) fun _ =>
      .ite (carries_classStatement hsub decorations) <| .look (.atWord _) fun _ =>
      .ite (carries_exportDeclaration hsub decorations) .unexpected
  · split
    · exact reads_ifStatement hsub
    · exact reads_doWhile hsub
    · exact reads_whileLoop hsub
    · exact reads_forStatement hsub
    · exact reads_jump rfl
    · exact reads_jump rfl
    · exact reads_withStatement hsub
    · exact reads_switchStatement hsub
    · exact reads_throwStatement hsub
    · exact reads_tryStatement hsub
    · exact .behind passes_advance fun _ => .behind passes_semicolon fun _ => .nodes rfl []
    · exact carries_classStatement hsub []
    · exact carries_exportDeclaration hsub []
    · exact reads_returnStatement hsub
    · exact reads_variableStatement hsub
    · exact reads_variableStatement hsub
    · exact reads_functionStatement hsub
    · exact .ite (reads_expressionOrLabeled hsub) (reads_letStatement hsub)
    · exact .look (.lookahead _) fun _ => .ite
        (.behind passes_advance fun _ => reads_functionStatement hsub) (reads_expressionOrLabeled hsub)
    · exact .look (.lookahead _) fun _ => .ite (reads_expressionOrLabeled hsub) reads_importDeclaration
    · exact reads_expressionOrLabeled hsub
  · exact reads_expressionOrLabeled hsub

end Exports

/-- Whatever the grammar reads, it accounts for. -/
theorem reads_goal (depth : Nat) (g : Goal) : Reads v (goal depth g) := by
  induction depth generalizing g with
  | zero => exact .unexpected
  | succ depth ih =>
    cases g with
    | expression => exact reads_expression ih
    | assignment => exact reads_assignmentExpression ih
    | binary above => exact reads_binaryExpression ih above
    | unary => exact reads_unaryExpression ih
    | leftHandSide => exact reads_leftHandSide ih
    | statement position => exact reads_statement ih
    | pattern => exact reads_bindingPattern ih
    | block => exact reads_block ih
    | functionBody => exact reads_functionBody ih

/-- A program that is read accounts for the references in it. -/
theorem reads_program (depth : Nat) : Reads v (program depth) := by
  refine .look .token fun t => ?_
  extract_lets behind
  have hbehind : ∀ preamble, Carries v (preamble.hits v.offset) (behind preamble)
      (Node.hits v.offset) := by
    intro preamble
    refine .also (reads_statementsWithDirectives (reads_goal depth) .atEnd) fun items => ?_
    exact .look .get fun s => .pure (Nat.le_of_eq (hits_mk rfl _ _ (preamble :: items)))
  exact .ite (.bind (reads_leaf rfl) hbehind) (.bind reads_absent hbehind)

end ModuleBundler.Syntax
