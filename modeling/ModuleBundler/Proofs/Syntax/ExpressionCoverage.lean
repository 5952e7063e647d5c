import ModuleBundler.Proofs.Syntax.Account

/-!
# Expressions account for their references
-/

namespace ModuleBundler.Syntax

open Parse Grammar

variable {v : Watch} {c : Nat} {sub : Goal → Parse Node}

/-! ## Property names -/

/-- A key is one of the answers that count, also if it is no node of its own. -/
theorem reads_propertyName (hsub : ∀ g, Reads v (sub g)) :
    Carries v 0 (propertyName sub) fun key => key.1.hits v.offset := by
  have hkey : ∀ {p : Parse Node}, Reads v p →
      Carries v 0 (do return (← p, false)) fun key => key.1.hits v.offset :=
    fun hp => .bind hp fun _ => .pure (Nat.le_refl _)
  refine .look .token fun t => ?_
  split
  · exact hkey reads_stringLiteral
  · exact hkey reads_numberLiteral
  · exact .behind passes_advance fun _ => .bind ((hsub _).permitting _) fun key =>
      .behind passes_expect fun _ => .pure (Nat.le_refl _)
  · exact hkey reads_identifierName

/-- A word in the place of a key counts like a reference, because it can become one. -/
theorem leads_propertyName (hsub : ∀ g, Reads v (sub g)) (short : Bool) (others : Nat) :
    Leads (fun s => Counted v others s ∧ (short = true → AtWord s)) (propertyName sub) fun key =>
      Counted v (others + (key.1.hits v.offset + if short then key.1.span.hits v.offset else 0)) := by
  cases short with
  | false => exact (reads_propertyName hsub others).mono (fun _ hs => hs.1) fun _ _ hs => hs
  | true =>
    rintro s key u ⟨hs, hword⟩ hok
    obtain ⟨text, escaped, hkind⟩ := hword rfl
    unfold propertyName at hok
    obtain ⟨_, _, htoken, hok⟩ := bind_ok hok
    cases htoken
    rw [hkind] at hok
    obtain ⟨n, _, hname, hok⟩ := bind_ok hok
    cases hok
    obtain ⟨hcounted, text, hn⟩ := leads_identifierName s n _ hs hname
    have hzero : n.hits v.offset = 0 := by
      rw [hn]
      rfl
    rw [if_pos rfl, hzero, Nat.zero_add]
    exact hcounted

/-! ## Patterns -/

/-- The node that a pattern is made of counts what the pattern does. -/
theorem carries_simpleTarget (n : Node) :
    Carries v (n.hits v.offset) (simpleTarget n) (Node.hits v.offset) := by
  induction n using Node.induct_children with
  | h label span children ih =>
    unfold simpleTarget
    split
    · exact .pure (Nat.le_refl _)
    · exact .pure (Nat.le_refl _)
    · exact .pure (Nat.le_refl _)
    · split
      · exact .fail
      · exact .fail
      · exact (ih _ List.mem_cons_self).mono (Nat.le_add_left _ _) fun _ => Nat.le_refl _
    · exact .fail

theorem passes_checkRestComma {start : Nat} : Passes v (checkRestComma start) := by
  refine .look (Steady.get.bind fun _ => .pure _) fun comma => ?_
  split
  · exact passes_report
  · exact .pure (Nat.le_refl _)

/-- Parts that become a target keep their place below a node. -/
theorem carries_relabelled {p : Parse (List Node)} {label label' : Label} {span : Span}
    {children : List Node} (hlabel : label.isPlain = true) (hlabel' : label'.isPlain = true)
    (hp : Carries v (hitsEach v.offset children) p (hitsEach v.offset)) :
    Carries v ((Node.mk label span children).hits v.offset) (do return .mk label' span (← p))
      (Node.hits v.offset) := by
  rw [hits_mk hlabel]
  exact .bind hp fun _ => .pure (Nat.le_of_eq (hits_mk hlabel' _ _ _))

/-- What is spread at the end becomes a rest. -/
theorem carries_restTarget {start : Nat} {span : Span} {argument : Node} {rest : List Node}
    (h : Carries v (argument.hits v.offset) (toTarget argument) (Node.hits v.offset)) :
    Carries v (hitsEach v.offset (.mk .spread span [argument] :: rest))
      (do let target ← toTarget argument
          checkRestComma start
          return [.mk .rest span [target]]) (hitsEach v.offset) := by
  refine (Carries.bind h fun target => .behind passes_checkRestComma fun _ =>
    .pure (Nat.le_of_eq ?_)).mono ?_ fun _ => Nat.le_refl _
  · exact hits_mk_one rfl _ _ _
  · rw [hitsEach, hits_mk_one rfl]
    exact Nat.le_add_right _ _

/-- The parts of a target are those of the expression that it was read as. -/
theorem carries_targets :
    (∀ n : Node, Carries v (n.hits v.offset) (toTarget n) (Node.hits v.offset)) ∧
      (∀ start nodes, Carries v (hitsEach v.offset nodes) (toProperties start nodes)
        (hitsEach v.offset)) ∧
      (∀ n : Node, Carries v (n.hits v.offset) (toDefaulted n) (Node.hits v.offset)) ∧
      ∀ start nodes, Carries v (hitsEach v.offset nodes) (toElements start nodes)
        (hitsEach v.offset) := by
  refine toTarget.mutual_induct _ _ _ _ ?targetArray ?targetObject ?target ?assign ?array ?object
    ?defaulted ?noProperty ?spreadFirst ?spread ?shorthand ?property ?other ?noElement
    ?spreadElementFirst ?spreadElement ?elision ?element
  case targetArray => exact fun _ _ ih => carries_relabelled rfl rfl ih
  case targetObject => exact fun _ _ ih => carries_relabelled rfl rfl ih
  case target =>
    intro n harray hobject
    rw [toTarget.eq_3 n harray hobject]
    exact carries_simpleTarget n
  case assign => exact fun span target value => .pure (Nat.le_refl _)
  case array => exact fun _ _ ih => carries_relabelled rfl rfl ih
  case object => exact fun _ _ ih => carries_relabelled rfl rfl ih
  case defaulted =>
    intro n hassign harray hobject
    rw [toDefaulted.eq_4 n hassign harray hobject]
    exact carries_simpleTarget n
  case noProperty => exact fun _ => .pure (Nat.le_refl _)
  case spreadFirst =>
    intro start span argument rest hrest ih
    rw [toProperties, if_pos hrest]
    exact .halt fun _ => .fail
  case spread =>
    intro start span argument rest hrest ih
    rw [toProperties, if_neg hrest]
    exact carries_restTarget ih
  case shorthand =>
    intro start kind computed span key value rest ih
    rw [toProperties]
    refine .behind (passes_modify fun _ => ⟨rfl, rfl, rfl, rfl⟩) fun _ => .beside ih fun more => ?_
    exact .ite (.pure (Nat.le_refl _)) .fail
  case property =>
    intro start kind computed span key value rest hvalue hrest
    rw [toProperties, hitsEach, hits_mk rfl]
    refine .before (hvalue.frame (key.hits v.offset)) fun target => .beside hrest fun more =>
      .pure (Nat.le_of_eq ?_)
    rw [hitsEach, hits_mk rfl]
    rfl
  case other =>
    intro start n rest hspread hshorthand hproperty
    rw [toProperties.eq_5 start n rest hspread hshorthand hproperty]
    exact .fail
  case noElement => exact fun _ => .pure (Nat.le_refl _)
  case spreadElementFirst =>
    intro start span argument rest hrest ih
    rw [toElements, if_pos hrest]
    exact .halt fun _ => .fail
  case spreadElement =>
    intro start span argument rest hrest ih
    rw [toElements, if_neg hrest]
    exact carries_restTarget ih
  case elision =>
    intro start span children rest ih
    rw [toElements]
    exact .beside ih fun more => .pure (Nat.le_refl _)
  case element =>
    intro start n rest hspread helision hn hrest
    rw [toElements.eq_4 start n rest hspread helision]
    exact .before hn fun target => .beside hrest fun more => .pure (Nat.le_refl _)

section Patterns

variable (hsub : ∀ g, Reads v (sub g))
include hsub

theorem carries_withInitializer (pattern : Node) :
    Carries v (pattern.hits v.offset) (withInitializer sub pattern) (Node.hits v.offset) :=
  .behind passes_eat fun _ => .ite (.also ((hsub _).permitting _) fun _ => .node₂ rfl _ _)
    (.pure (Nat.le_refl _))

theorem reads_patternWithInitializer : Reads v (patternWithInitializer sub) :=
  .bind (hsub _) fun _ => carries_withInitializer hsub _

theorem reads_restElement : Reads v (restElement sub) :=
  .look .here fun _ => .behind passes_advance fun _ => .bind (hsub _) fun _ => .node₁ rfl _

theorem reads_bindingProperty : Reads v (bindingProperty sub) := by
  refine .look .here fun _ => .look .atIdentifier fun _ => .bind (reads_propertyName hsub)
    fun ⟨key, computed⟩ => .look (.isAt _) fun _ => .ite ?_ ?_
  · split
    · exact .also (carries_withInitializer hsub (.mk (.binding _) key.span [])) fun _ =>
        .node₂ rfl _ _
    · exact .unexpected
  · exact .behind passes_expect fun _ => .also (reads_patternWithInitializer hsub) fun _ =>
      .node₂ rfl _ _

theorem reads_objectPattern : Reads v (objectPattern sub) := by
  refine .look .here fun _ => .behind passes_expect fun _ => .bind (reads_commaListWithRest
    (reads_bindingProperty hsub) (reads_restElement hsub)) fun items =>
    .behind passes_expect fun _ => ?_
  split
  · exact .ite (.behind passes_report fun _ => .nodes rfl _) (.nodes rfl _)
  · exact .nodes rfl _

theorem reads_arrayPatternElement : Reads v (arrayPatternElement sub) :=
  .look (.isAt _) fun _ => .ite (.look .here fun _ => .pure (Nat.le_refl _))
    (reads_patternWithInitializer hsub)

theorem reads_arrayPattern : Reads v (arrayPattern sub) :=
  .look .here fun _ => .behind passes_expect fun _ => .bind (reads_commaListWithRest
    (reads_arrayPatternElement hsub) (reads_restElement hsub)) fun _ =>
    .behind passes_expect fun _ => .nodes rfl _

theorem reads_bindingPattern : Reads v (bindingPattern sub) := by
  refine .look .token fun t => ?_
  split
  · exact reads_objectPattern hsub
  · exact reads_arrayPattern hsub
  · exact reads_bindingIdentifier

end Patterns

/-! ## Functions -/

theorem passes_arrowToken : Passes v arrowToken :=
  .look .afterNewline fun _ => .ite (.look .here fun _ => .behind passes_report fun _ => passes_expect)
    passes_expect

theorem passes_checkAccessor {kind : MemberKind} {method : Node} :
    Passes v (checkAccessor kind method) := by
  unfold checkAccessor
  cases kind with
  | getter => exact .ite passes_report (.pure (Nat.le_refl _))
  | setter =>
    dsimp only
    split
    · exact passes_report
    · exact .ite passes_report (.pure (Nat.le_refl _))
  | _ => exact .pure (Nat.le_refl _)

theorem reads_functionName {form : FunctionForm} {isAsync isGenerator : Bool} :
    Reads v (functionName form isAsync isGenerator) := by
  refine .look .token fun t => .look .atIdentifier fun _ => ?_
  extract_lets absent
  have habsent : ∀ u, Reads v (absent u) := fun _ => reads_absent
  refine .ite (.look .get fun _ => .look .wordHere fun _ => .behind passes_checkIdentifier fun _ =>
    reads_nameLeaf fun _ => rfl) (.ite (.ite (.behind passes_report habsent) ?_) (habsent ()))
  exact .look .wordHere fun _ => .ite (.halt fun _ => .expected) (habsent ())

section Functions

variable (hsub : ∀ g, Reads v (sub g))
include hsub

theorem reads_parameters : Reads v (parameters sub) :=
  .look .here fun _ => .behind passes_expect fun _ => .bind (reads_commaListWithRest
    (reads_patternWithInitializer hsub) (reads_restElement hsub)) fun _ =>
    .behind passes_expect fun _ => .nodes rfl _

/-- A string among statements counts no more as a directive. -/
theorem reads_statementsWithDirectives {stop : Parse Bool} (hstop : Steady stop) :
    ReadsEach v (statementsWithDirectives sub stop) := by
  refine .bind (Carries.iterate (w := fun state : List Node × Bool => hitsEach v.offset state.1) ?_
    ([], true)) ?_
  · rintro ⟨items, directives⟩
    refine .look hstop fun _ => .ite (.pure (Nat.le_refl _)) (.also (hsub _) fun statement => ?_)
    split
    · exact .pure (Nat.le_trans (Nat.le_of_eq (Nat.zero_add _)) (Nat.le_add_right _ _))
    · exact .pure (Nat.le_of_eq (Nat.add_comm _ _))
  · rintro ⟨items, _⟩
    exact .pure (Nat.le_of_eq (hitsEach_reverse _ items))

theorem reads_functionBody : Reads v (functionBody sub) :=
  .look .here fun _ => .behind passes_expect fun _ =>
    .bind ((reads_statementsWithDirectives hsub (.atClose _)).permitting _) fun _ =>
    .behind passes_expect fun _ => .nodes rfl _

theorem carries_functionRest {start : Nat} {form : FunctionForm} {isAsync isGenerator : Bool}
    (name : Node) : Carries v (name.hits v.offset)
      (functionRest sub start name form isAsync isGenerator) (Node.hits v.offset) := by
  have hparts : Carries v 0 (do
      let params ← parameters sub
      if ← isAt .leftBrace then
        let body ← sub .functionBody
        return (params, body)
      else fail .functionBodyMissing start)
      fun parts => parts.1.hits v.offset + parts.2.hits v.offset :=
    .bind (reads_parameters hsub) fun params => .look (.isAt _) fun _ =>
      .ite (.also (hsub _) fun body => .pure (Nat.le_refl _)) .fail
  refine .also (hparts.permitting _) fun ⟨params, body⟩ => ?_
  rw [← Nat.add_assoc]
  exact .node₃ rfl name params body

theorem reads_function {start : Nat} {isAsync : Bool} {form : FunctionForm} :
    Reads v (function sub start isAsync form) :=
  .behind passes_expectWord fun _ => .behind passes_eat fun _ => .bind reads_functionName
    fun name => carries_functionRest hsub name

theorem reads_methodFunction {isAsync isGenerator : Bool} :
    Reads v (methodFunction sub isAsync isGenerator) :=
  .look .here fun _ => carries_functionRest hsub .absent

theorem carries_arrowHead : Carries v 0 (arrowHead sub) fun head => head.2.hits v.offset :=
  .behind passes_eatWord fun _ => .bind ((reads_parameters hsub).permitting _) fun _ =>
    .behind passes_arrowToken fun _ => .pure (Nat.le_refl _)

theorem carries_arrowBody {start : Nat} {isAsync : Bool} (params : Node) :
    Carries v (params.hits v.offset) (arrowBody sub start isAsync params) (Node.hits v.offset) :=
  .look (.isAt _) fun _ => .also ((Carries.ite (hsub _) (hsub _)).permitting _) fun _ =>
    .node₂ rfl _ _

theorem reads_parenthesizedArrow :
    Carries v 0 (parenthesizedArrow sub) fun found => (found.map (Node.hits v.offset)).getD 0 := by
  have hnone : Carries v 0 (pure none : Parse (Option Node)) fun found =>
      (found.map (Node.hits v.offset)).getD 0 := .pure (Nat.le_refl _)
  have hsome : ∀ {start isAsync} {params : Node}, Carries v (params.hits v.offset)
      (do return some (← arrowBody sub start isAsync params) : Parse (Option Node)) fun found =>
        (found.map (Node.hits v.offset)).getD 0 :=
    fun {_ _} params => .bind (carries_arrowBody hsub params) fun _ => .pure (Nat.le_refl _)
  refine .look .here fun start => .look (.isAt _) fun _ => .look (.atWord _) fun _ => .ite hnone ?_
  refine .look (.lookahead _) fun hint => ?_
  cases hint with
  | no => exact hnone
  | yes => exact .bind (carries_arrowHead hsub) fun ⟨_, _⟩ => hsome
  | maybe =>
    refine .look .get fun s => .ite hnone (.bind (carries_arrowHead hsub).attempt fun found => ?_)
    cases found with
    | some head => exact hsome
    | none => exact .behind (passes_modify fun _ => ⟨rfl, rfl, rfl, rfl⟩) fun _ => hnone

/-- A parameter that was read as a reference is none any more. -/
theorem carries_simpleArrow {start : Nat} {isAsync : Bool} (identifier : Node) :
    Carries v c (simpleArrow sub start isAsync identifier) (Node.hits v.offset) := by
  refine Carries.mono (c := 0) ?_ (Nat.zero_le _) fun _ => Nat.le_refl _
  exact .behind passes_arrowToken fun _ => carries_arrowBody hsub
    (.mk .params identifier.span [.mk (.binding (identifier.reference?.getD "")) identifier.span []])

end Functions

/-! ## Classes -/

theorem passes_eatModifier {text : String} {sameLine : Bool} :
    Passes v (eatModifier text sameLine) := by
  refine .look (.atWord _) fun _ => .ite (.pure (Nat.le_refl _)) (.look (.lookahead _) fun _ => ?_)
  exact .ite (.behind passes_advance fun _ => .pure (Nat.le_refl _)) (.pure (Nat.le_refl _))

theorem passes_modifiers {words : List (String × Bool)} : Passes v (modifiers words) := by
  refine .behind (passes_iterate (fun found => ?_) []) fun _ => .pure (Nat.le_refl _)
  refine .look .here fun _ => .look .wordHere fun _ => ?_
  split
  · exact .ite (.pure (Nat.le_refl _)) (.behind passes_eatModifier fun _ =>
      .ite (.pure (Nat.le_refl _)) (.pure (Nat.le_refl _)))
  · exact .pure (Nat.le_refl _)

theorem passes_checkModifiers {allowed : List String} {found : List (String × Nat)} :
    Passes v (checkModifiers allowed found) := by
  unfold checkModifiers
  split
  · exact passes_report
  · exact .pure (Nat.le_refl _)

theorem passes_accessorKind : Passes v accessorKind :=
  .behind passes_eatModifier fun _ => .ite (.pure (Nat.le_refl _)) (.behind passes_eatModifier fun _ =>
    .ite (.pure (Nat.le_refl _)) (.pure (Nat.le_refl _)))

theorem passes_checkElementName {key : Node} {computed isStatic isField : Bool} :
    Passes v (checkElementName key computed isStatic isField) := by
  unfold checkElementName
  dsimp only
  split
  · exact .ite passes_report (.pure (Nat.le_refl _))
  · refine .ite (.pure (Nat.le_refl _)) ?_
    split
    · exact .pure (Nat.le_refl _)
    · exact .ite (.behind passes_report fun _ => .ite passes_report (.pure (Nat.le_refl _)))
        (.ite passes_report (.pure (Nat.le_refl _)))

section Classes

variable (hsub : ∀ g, Reads v (sub g))
include hsub

theorem carries_classElementName :
    Carries v 0 (classElementName sub) fun key => key.1.hits v.offset := by
  refine .look .token fun t => ?_
  split
  · exact .bind reads_privateName fun _ => .pure (Nat.le_refl _)
  · exact reads_propertyName hsub

theorem carries_classMethod {start : Nat} {computed isStatic isAsync isGenerator : Bool}
    (key : Node) : Carries v (key.hits v.offset)
      (classMethod sub start key computed isStatic isAsync isGenerator) (Node.hits v.offset) := by
  refine .also (reads_methodFunction hsub) fun function => .behind passes_checkElementName fun _ =>
    .ite ?_ (.node₂ rfl _ _)
  exact .ite
    (.behind passes_report fun _ => .ite (.behind passes_report fun _ => .node₂ rfl _ _)
      (.node₂ rfl _ _))
    (.ite (.behind passes_report fun _ => .node₂ rfl _ _) (.node₂ rfl _ _))

theorem carries_classField {start : Nat} {computed isStatic accessor : Bool} (key : Node) :
    Carries v (key.hits v.offset) (classField sub start key computed isStatic accessor)
      (Node.hits v.offset) := by
  refine .behind passes_checkElementName fun _ => .behind passes_eat fun _ => ?_
  extract_lets finish
  have hfinish : ∀ value, Carries v (key.hits v.offset + value.hits v.offset) (finish value)
      (Node.hits v.offset) := fun _ => .behind passes_semicolon fun _ => .node₂ rfl _ _
  exact .ite (.also ((hsub _).permitting _) hfinish) (.also reads_absent hfinish)

theorem reads_decorators : ReadsEach v (decorators sub) :=
  reads_repeatUntil ((Steady.isAt _).bind fun _ => .pure _) <| .look .here fun _ =>
    .behind passes_advance fun _ => .bind ((hsub _).permitting _) fun _ => .node₁ rfl _

theorem reads_undecoratedElement {start : Nat} : Reads v (undecoratedElement sub start) := by
  refine .look (.lookahead _) fun _ => .ite ?_ ?_
  · exact .behind passes_advance fun _ => .bind ((hsub _).permitting _) fun block =>
      (Carries.nodes rfl _).mono (hitsEach_children_le _ block) fun _ => Nat.le_refl _
  refine .behind passes_modifiers fun found => ?_
  extract_lets has
  refine .behind passes_accessorKind fun kind => ?_
  split
  · exact .bind (carries_classElementName hsub) fun ⟨key, computed⟩ =>
      .also (reads_methodFunction hsub) fun function => .behind passes_checkAccessor fun _ =>
      .behind passes_checkElementName fun _ => .ite (.behind passes_report fun _ => .node₂ rfl _ _)
      (.node₂ rfl _ _)
  · exact .behind passes_eat fun _ => .bind (carries_classElementName hsub) fun ⟨key, computed⟩ =>
      .look (.isAt _) fun _ => .ite (carries_classMethod hsub key) (carries_classField hsub key)

theorem reads_classElement : Reads v (classElement sub) := by
  refine .look .here fun _ => .bind (reads_decorators hsub) fun decorations =>
    .also (reads_undecoratedElement hsub) fun element => .pure (Nat.le_of_eq ?_)
  obtain ⟨label, span, children⟩ := element
  show label.hits v.offset span + hitsEach v.offset (children ++ decorations) =
    hitsEach v.offset decorations + (label.hits v.offset span + hitsEach v.offset children)
  rw [hitsEach_append]
  omega

theorem reads_classBody : Reads v (classBody sub) := by
  refine .look .here fun _ => .behind passes_expect fun _ => ?_
  extract_lets skipSemicolons
  have hskip : Passes v skipSemicolons := passes_iterate (fun _ => .behind passes_eat fun _ => by
    split <;> exact .pure (Nat.le_refl _)) ()
  refine .behind hskip fun _ => .bind (reads_repeatUntil (.atClose _) ?_) fun items =>
    .behind passes_expect fun _ => .nodes rfl _
  exact .bind (reads_classElement hsub) fun _ => .behind hskip fun _ => .pure (Nat.le_refl _)

theorem carries_classDefinition {start : Nat} {isDeclaration : Bool} (decorations : List Node) :
    Carries v (hitsEach v.offset decorations) (classDefinition sub start isDeclaration decorations)
      (Node.hits v.offset) := by
  refine .behind passes_advance fun _ => .look .atIdentifier fun _ => .look (.atWord _) fun _ => ?_
  extract_lets behind
  have hbehind : ∀ name, Carries v (hitsEach v.offset decorations + name.hits v.offset) (behind name)
      (Node.hits v.offset) := by
    intro name
    refine .behind passes_eatWord fun _ => ?_
    extract_lets finish
    have hfinish : ∀ superclass, Carries v
        (hitsEach v.offset decorations + name.hits v.offset + superclass.hits v.offset)
        (finish superclass) (Node.hits v.offset) := by
      refine fun superclass => .also (reads_classBody hsub) fun body =>
        (Carries.nodes rfl _).mono (Nat.le_of_eq ?_) fun _ => Nat.le_refl _
      rw [hitsEach_append]
      simp only [hitsEach]
      omega
    exact .ite (.also (hsub _) hfinish) (.also reads_absent hfinish)
  exact .ite (.also reads_bindingIdentifier hbehind) (.also reads_absent hbehind)

end Classes

/-! ## Primary expressions -/

theorem passes_noteTrailing {start : Nat} {comma : Option Nat} : Passes v (noteTrailing start comma) := by
  unfold noteTrailing
  split
  · exact passes_modify fun _ => ⟨rfl, rfl, rfl, rfl⟩
  · exact .pure (Nat.le_refl _)

theorem reads_superExpression : Reads v superExpression := by
  refine .bind (reads_leaf rfl) fun n => .look (.isAt _) fun _ => .look (.isAt _) fun _ =>
    .look (.isAt _) fun _ => .ite (.behind passes_report fun _ => .pure (Nat.le_refl _)) ?_
  exact .pure (Nat.le_refl _)

theorem reads_memberName : Reads v memberName := by
  refine .look .token fun t => ?_
  split
  · exact reads_privateName
  · exact reads_identifierName

section Primary

variable (hsub : ∀ g, Reads v (sub g))
include hsub

theorem reads_template {isTagged : Bool} : Reads v (template sub isTagged) := by
  refine .look .here fun start => ?_
  extract_lets part
  have hpart : Passes v part := by
    refine .look .token fun t => ?_
    split
    · exact .behind passes_advance fun _ => .ite
        (.behind passes_report fun _ => .pure (Nat.le_refl _)) (.pure (Nat.le_refl _))
    · exact .pure (Nat.le_refl _)
  refine .behind hpart fun first => ?_
  split
  · refine .bind ((hsub _).permitting _) fun first => .behind passes_rereadTemplate fun _ => ?_
    refine .bind (Carries.iterate (w := fun state : List String × List Node × Bool =>
      hitsEach v.offset state.2.1) ?_ ([_], [first], false)) ?_
    · rintro ⟨parts, expressions, done⟩
      refine .ite (.pure (Nat.le_refl _)) (.look .token fun t => ?_)
      split
      · exact .expected
      · refine .behind hpart fun found => ?_
        split <;> exact .pure (Nat.le_refl _)
      · refine .behind hpart fun found => ?_
        split <;> exact .pure (Nat.le_refl _)
      · exact .also ((hsub _).permitting _) fun more => .behind passes_rereadTemplate fun _ =>
          .pure (Nat.le_of_eq (Nat.add_comm _ _))
    · rintro ⟨_, expressions, _⟩
      rw [← hitsEach_reverse]
      exact .nodes rfl _
  · exact .nodes rfl []
  · exact .unexpected

theorem reads_arrayElement : Reads v (arrayElement sub) :=
  .look .here fun _ => .look (.isAt _) fun _ => .ite (.pure (Nat.le_refl _)) <|
    .behind passes_eat fun _ => .ite (.bind (hsub _) fun _ => .node₁ rfl _) (hsub _)

theorem reads_arrayLiteral : Reads v (arrayLiteral sub) :=
  .look .here fun _ => .behind passes_expect fun _ =>
    .bind ((carries_commaList (reads_arrayElement hsub)).permitting _) fun ⟨_, _⟩ =>
    .behind passes_noteTrailing fun _ => .behind passes_expect fun _ => .nodes rfl _

theorem reads_objectMember : Reads v (objectMember sub) := by
  refine .look .here fun start => .behind passes_eat fun _ => .ite
    (.bind (hsub _) fun _ => .node₁ rfl _) ?_
  refine .behind passes_modifiers fun found => .behind passes_accessorKind fun kind => ?_
  split
  · exact .behind passes_checkModifiers fun _ => .bind (reads_propertyName hsub)
      fun ⟨key, computed⟩ => .also (reads_methodFunction hsub) fun function =>
      .behind passes_checkAccessor fun _ => .node₂ rfl _ _
  refine .behind passes_eat fun isGenerator others => leads_atIdentifier.bind fun short =>
    (leads_propertyName hsub short others).bind fun ⟨key, computed⟩ => ?_
  generalize hgiven : key.hits v.offset + (if short then key.span.hits v.offset else 0) = given
  have hnode : ∀ {label value}, label.isPlain = true → Carries v (given + value.hits v.offset)
      (node label start [key, value]) (Node.hits v.offset) := fun hlabel =>
    (Carries.node₂ hlabel key _).mono
      (Nat.add_le_add_right (hgiven ▸ Nat.le_add_right _ _) _) fun _ => Nat.le_refl _
  refine (?_ : Carries v given _ (Node.hits v.offset)) others
  refine .look (.isAt _) fun _ => .ite (.also (reads_methodFunction hsub) fun _ => hnode rfl) ?_
  extract_lets colon
  have hcolon : ∀ u, Carries v given (colon u) (Node.hits v.offset) := fun _ =>
    .behind passes_expect fun _ => .also (hsub _) fun _ => hnode rfl
  split
  · refine .look (.isAt _) fun _ => ?_
    split
    · rename_i text _ _ hshort
      -- the word is the value as well, and counts for it
      rw [if_pos (Bool.and_eq_true_iff.1 hshort).1] at hgiven
      rw [← hgiven]
      refine .look .get fun _ => .behind passes_checkIdentifier fun _ => .look (.isAt _) fun _ =>
        .ite (.beside (carries_withInitializer hsub (.mk (.reference text) key.span [])) fun value => ?_)
        (.node₂ rfl key (.mk (.reference text) key.span []))
      exact .behind (passes_modify fun _ => ⟨rfl, rfl, rfl, rfl⟩) fun _ => .node₂ rfl _ _
    · exact hcolon ()
  · exact hcolon ()

theorem reads_objectLiteral : Reads v (objectLiteral sub) :=
  .look .here fun _ => .behind passes_expect fun _ =>
    .bind ((carries_commaList (reads_objectMember hsub)).permitting _) fun ⟨_, _⟩ =>
    .behind passes_noteTrailing fun _ => .behind passes_expect fun _ => .nodes rfl _

theorem reads_parenthesized : Reads v (parenthesized sub) := by
  refine .look .here fun start => .behind passes_advance fun _ => .look .here fun inner =>
    .bind ((carries_commaList (hsub _)).permitting _) fun ⟨items, comma⟩ => ?_
  dsimp -zeta only
  extract_lets close
  have hclose : ∀ u, Carries v (hitsEach v.offset items) (close u) (Node.hits v.offset) := by
    intro u
    unfold close
    split
    · exact .behind passes_expect fun _ => .fail
    · exact .behind passes_expect fun _ => .node₁ rfl _
    · exact .bind (.nodes rfl _) fun _ => .behind passes_expect fun _ => .node₁ rfl _
  split
  · exact .halt fun _ => .fail
  · exact hclose ()

theorem reads_argument : Reads v (argument sub) :=
  .look .here fun _ => .behind passes_eat fun _ => .ite (.bind (hsub _) fun _ => .node₁ rfl _) (hsub _)

theorem reads_arguments : ReadsEach v (arguments sub) :=
  .behind passes_expect fun _ => .bind ((carries_commaList (reads_argument hsub)).permitting _)
    fun ⟨_, _⟩ => .behind passes_expect fun _ => .pure (Nat.le_refl _)

theorem reads_importExpression : Reads v (importExpression sub) := by
  refine .look .here fun start => .bind (reads_nameLeaf fun _ => rfl) fun word => ?_
  extract_lets call
  have hcall : ∀ phase, Carries v (word.hits v.offset) (call phase) (Node.hits v.offset) := by
    intro phase
    refine Carries.mono (c := 0) ?_ (Nat.zero_le _) fun _ => Nat.le_refl _
    unfold call
    refine .behind passes_expect fun _ => .behind passes_eat fun _ => ?_
    extract_lets behind
    have hbehind : ∀ u, Reads v (behind u) := by
      intro u
      refine .bind ((hsub _).permitting _) fun source => .behind passes_eat fun _ => ?_
      extract_lets finish
      have hfinish : ∀ options, Carries v (source.hits v.offset + hitsEach v.offset options)
          (finish options) (Node.hits v.offset) := fun options =>
        .behind passes_eat fun _ => .behind passes_eat fun _ => .ite (.halt fun _ => .fail)
          (.node_cons rfl _ _)
      refine .ite (.look (.isAt _) fun _ => .ite (.also reads_nil hfinish) ?_)
        (.also reads_nil hfinish)
      exact .also ((hsub _).permitting _) fun value =>
        .beside (.pure (w := hitsEach v.offset) (Nat.le_refl _)) hfinish
    exact .ite (.halt fun _ => .fail) (hbehind ())
  refine .behind passes_eat fun _ => .ite (.look (.atWord _) fun _ => .ite ?_ ?_) ?_
  · exact .also (reads_nameLeaf fun _ => rfl) fun _ => .node₂ rfl _ _
  · exact .look (.atWord _) fun _ => .look (.atWord _) fun _ => .ite (.look .wordHere fun _ =>
      .behind passes_advanceName fun _ => hcall _) .fail
  · exact .look (.isAt _) fun _ => .ite (hcall _) .unexpected

end Primary

/-! ## Accesses and calls -/

section Accesses

variable (hsub : ∀ g, Reads v (sub g))
include hsub

theorem reads_indexKey : Reads v (indexKey sub) :=
  .behind passes_expect fun _ => .bind ((hsub _).permitting _) fun _ =>
    .behind passes_expect fun _ => .pure (Nat.le_refl _)

theorem carries_taggedTemplate {inChain : Bool} (tag : Node) :
    Carries v (tag.hits v.offset) (taggedTemplate sub tag inChain) (Node.hits v.offset) :=
  .also (reads_template hsub) fun _ => .ite (.behind passes_report fun _ => .node₂ rfl _ _)
    (.node₂ rfl _ _)

/-- Where no access is found, the object is kept. -/
theorem carries_accessStep {start : Nat} {allowOptional : Bool} (state : Node × Bool) :
    Carries v (state.1.hits v.offset) (accessStep sub start allowOptional state)
      fun next => (next.getD state).1.hits v.offset := by
  obtain ⟨object, inChain⟩ := state
  have hnone : Carries v (object.hits v.offset) (pure none : Parse (Option (Node × Bool)))
      fun next => (next.getD (object, inChain)).1.hits v.offset := .pure (Nat.le_refl _)
  have hsome : ∀ {c} {p : Parse Node} {chained : Bool}, Carries v c p (Node.hits v.offset) →
      Carries v c (do return some (← p, chained))
        fun next => (next.getD (object, inChain)).1.hits v.offset :=
    fun hp => .bind hp fun _ => .pure (Nat.le_refl _)
  refine .look .get fun _ => .look .token fun t => ?_
  split
  · exact .ite hnone (.also (reads_indexKey hsub) fun _ => hsome (.node₂ rfl _ _))
  · exact .behind passes_advance fun _ => .also reads_memberName fun _ => hsome (.node₂ rfl _ _)
  · refine .ite hnone (.look (.lookahead _) fun follower => ?_)
    split
    · exact .ite hnone (.behind passes_advance fun _ => .also (reads_indexKey hsub) fun _ =>
        hsome (.node₂ rfl _ _))
    · exact .behind passes_advance fun _ => .also reads_memberName fun _ => hsome (.node₂ rfl _ _)
    · exact .behind passes_advance fun _ => .also reads_memberName fun _ => hsome (.node₂ rfl _ _)
    · exact .behind passes_advance fun _ => hsome (carries_taggedTemplate hsub object)
    · exact hnone
  · exact hsome (carries_taggedTemplate hsub object)
  · exact hsome (carries_taggedTemplate hsub object)
  · exact hnone

theorem carries_callStep {start : Nat} (state : Node × Bool) :
    Carries v (state.1.hits v.offset) (callStep sub start state)
      fun next => (next.getD state).1.hits v.offset := by
  refine .bind (carries_accessStep hsub state) fun next => ?_
  cases next with
  | some next => exact .pure (Nat.le_refl _)
  | none =>
    obtain ⟨callee, inChain⟩ := state
    have hcall : ∀ {optional chained : Bool}, Carries v (callee.hits v.offset)
        (do let items ← arguments sub
            return some (← node (.call optional) start (callee :: items), chained))
        fun next => (next.getD (callee, inChain)).1.hits v.offset := fun {_ _} =>
      .also (reads_arguments hsub) fun _ => .bind (.node_cons rfl _ _) fun _ => .pure (Nat.le_refl _)
    exact .look (.isAt _) fun _ => .ite hcall <| .behind passes_eat fun _ => .ite
      (.look (.isAt _) fun _ => .ite hcall .unexpected) (.pure (Nat.le_refl _))

theorem reads_newExpression {primary : Parse Node} (hprimary : Reads v primary) :
    Reads v (newExpression sub primary) := by
  refine .look .here fun start => .bind (reads_nameLeaf fun _ => rfl) fun word =>
    .behind passes_eat fun _ => ?_
  extract_lets behind
  have hbehind : ∀ u, Carries v (word.hits v.offset) (behind u) (Node.hits v.offset) := by
    intro u
    refine Carries.mono (c := 0) ?_ (Nat.zero_le _) fun _ => Nat.le_refl _
    refine .look .here fun calleeStart => .bind hprimary fun head => .bind (.iterate
      (w := fun state : Node × Bool => state.1.hits v.offset) (carries_accessStep hsub)
      (head, false)) fun ⟨callee, _⟩ => ?_
    dsimp only
    have hcall : Carries v (callee.hits v.offset)
        (do if ← isAt .leftParen then
              let items ← arguments sub
              node (.new true) start (callee :: items)
            else node (.new false) start [callee]) (Node.hits v.offset) :=
      .look (.isAt _) fun _ => .ite (.also (reads_arguments hsub) fun _ => .node_cons rfl _ _)
        (.node₁ rfl _)
    have hchecked : Carries v (callee.hits v.offset)
        (do if ← isAt .questionDot then fail .newOptionalChain (← here)
            if ← isAt .leftParen then
              let items ← arguments sub
              node (.new true) start (callee :: items)
            else node (.new false) start [callee]) (Node.hits v.offset) :=
      .look (.isAt _) fun _ => .ite (.look .here fun _ => .halt fun _ => .fail) hcall
    split
    · exact .behind passes_report fun _ => hchecked
    · exact hchecked
  refine .ite (.look (.atWord _) fun _ => .ite ?_ (.halt fun _ => .fail)) (hbehind ())
  exact .also (reads_nameLeaf fun _ => rfl) fun _ => .node₂ rfl _ _

theorem reads_primaryWith {self : Parse Node} (hself : Reads v self) :
    Reads v (primaryWith sub self) := by
  refine .look .token fun t => ?_
  dsimp only
  split
  · split
    · exact reads_function hsub
    · exact carries_classDefinition hsub []
    · exact reads_newExpression hsub hself
    · exact reads_superExpression
    · exact reads_importExpression hsub
    · exact reads_leaf rfl
    · exact reads_leaf rfl
    · exact reads_leaf rfl
    · exact reads_leaf rfl
    · exact .look (.lookahead _) fun _ => .ite
        (.behind passes_advance fun _ => reads_function hsub) reads_identifierReference
    · exact reads_identifierReference
  · exact reads_arrayLiteral hsub
  · exact reads_objectLiteral hsub
  · exact reads_parenthesized hsub
  · exact reads_regexLiteral
  · exact reads_regexLiteral
  · exact .bind (reads_decorators hsub) fun decorations => .look (.atWord _) fun _ =>
      .ite (carries_classDefinition hsub decorations) .unexpected
  · exact reads_template hsub
  · exact reads_template hsub
  · exact reads_stringLiteral
  · exact reads_numberLiteral
  · exact .unexpected

theorem reads_primaryNested (depth : Nat) : Reads v (primaryNested sub depth) := by
  induction depth with
  | zero => exact .unexpected
  | succ depth ih => exact reads_primaryWith hsub ih

theorem reads_leftHandSide : Reads v (leftHandSide sub) := by
  refine .look .here fun start => .look .get fun s => .bind (reads_primaryNested hsub _) fun head =>
    .bind (.iterate (w := fun state : Node × Bool => state.1.hits v.offset) (carries_callStep hsub)
      (head, false)) fun ⟨n, inChain⟩ => ?_
  exact .ite (.node₁ rfl _) (.pure (Nat.le_refl _))

end Accesses

/-! ## Operators -/

section Operators

variable (hsub : ∀ g, Reads v (sub g))
include hsub

theorem reads_updateExpression : Reads v (updateExpression sub) := by
  refine .look .token fun t => ?_
  dsimp only
  refine .ite (.behind passes_advance fun _ => .bind (hsub _) fun operand =>
    .bind (carries_simpleTarget operand) fun _ => .node₁ rfl _) ?_
  exact .bind (hsub _) fun operand => .look .token fun _ => .ite (.behind passes_advance fun _ =>
    .bind (carries_simpleTarget operand) fun _ => .node₁ rfl _) (.pure (Nat.le_refl _))

theorem reads_unaryExpression : Reads v (unaryExpression sub) := by
  refine .look .token fun t => ?_
  dsimp only
  refine .ite (.behind passes_advance fun _ => .bind (hsub _) fun _ => .node₁ rfl _) (.ite ?_ ?_)
  · refine .look .get fun s => .look (.lookahead _) fun _ => .ite (.ite ?_ ?_)
      (reads_updateExpression hsub)
    · exact .behind passes_report fun _ => .behind passes_advance fun _ =>
        .bind ((hsub _).permitting _) fun _ => .node₁ rfl _
    · exact .behind passes_advance fun _ => .bind ((hsub _).permitting _) fun _ => .node₁ rfl _
  · exact reads_updateExpression hsub

theorem carries_binaryStep {start above : Nat} {inParens : Bool} (left : Node) :
    Carries v (left.hits v.offset) (binaryStep sub start above inParens left)
      fun next => (next.getD left).hits v.offset := by
  have hnone : Carries v (left.hits v.offset) (pure none : Parse (Option Node))
      fun next => (next.getD left).hits v.offset := .pure (Nat.le_refl _)
  have hsome : ∀ {label right}, label.isPlain = true → Carries v
      (left.hits v.offset + right.hits v.offset) (do return some (← node label start [left, right]))
      fun next => (next.getD left).hits v.offset :=
    fun hlabel => .bind (.node₂ hlabel _ _) fun _ => .pure (Nat.le_refl _)
  refine .look .token fun t => ?_
  split
  · exact hnone
  refine .ite hnone <| .look .get fun _ => .ite hnone <| .behind passes_advance fun _ =>
    .also (hsub _) fun right => .ite (.ite ?_ ?_) (.ite ?_ ?_)
  · exact .behind passes_report fun _ => hsome rfl
  · exact hsome rfl
  · split
    · exact .behind passes_report fun _ => hsome rfl
    · exact .behind passes_report fun _ => hsome rfl
    · exact hsome rfl
  · exact hsome rfl

theorem reads_binaryExpression (above : Nat) : Reads v (binaryExpression sub above) := by
  refine .look .token fun t => ?_
  extract_lets start isPrivate loop joined
  have hloop : ∀ first, Carries v (first.hits v.offset) (loop first) (Node.hits v.offset) :=
    fun first => .iterate (carries_binaryStep hsub) first
  have hjoined : ∀ u, Reads v (joined u) := fun _ =>
    .bind reads_privateName fun _ => .behind passes_expectWord fun _ => .also (hsub _) fun _ =>
      .bind (.node₂ rfl _ _) hloop
  exact .look .get fun s => .ite (.ite (.halt fun _ => .unexpected) (hjoined ()))
    (.bind (reads_unaryExpression hsub) hloop)

theorem reads_yieldExpression : Reads v (yieldExpression sub) := by
  refine .look .here fun start => .look .get fun s => ?_
  extract_lets behind
  have hbehind : ∀ u, Reads v (behind u) := fun _ =>
    .behind passes_advance fun _ => .look .afterNewline fun _ => .ite (.node₁ rfl .absent) <|
      .behind passes_eat fun _ => .look .token fun t => .ite (.node₁ rfl .absent) <|
      .bind ((hsub _).permitting _) fun _ => .node₁ rfl _
  exact .ite (.behind passes_report hbehind) (hbehind ())

theorem reads_assignmentExpression : Reads v (assignmentExpression sub) := by
  refine .look .here fun start => .look (.atWord _) fun _ => ?_
  extract_lets behind
  have hbehind : ∀ u, Reads v (behind u) := by
    intro u
    refine .bind (reads_parenthesizedArrow hsub) fun found => ?_
    cases found with
    | some arrow => exact .pure (Nat.le_refl _)
    | none =>
      refine .look (.lookahead _) fun _ => .ite ?_ ?_
      · exact .behind passes_advance fun _ => .bind (reads_identifierReference.permitting _)
          fun _ => carries_simpleArrow hsub _
      refine .bind (reads_binaryExpression hsub 0) fun left => .look .token fun t =>
        .ite (carries_simpleArrow hsub _) ?_
      extract_lets conditional
      have hconditional : ∀ u, Carries v (left.hits v.offset) (conditional u)
          (Node.hits v.offset) := fun _ =>
        .behind passes_eat fun _ => .ite (.also ((hsub _).permitting _) fun _ =>
          .behind passes_expect fun _ => .also (hsub _) fun _ => .node₃ rfl _ _ _)
          (.pure (Nat.le_refl _))
      split
      · refine .ite ?_ (hconditional ())
        extract_lets assign
        have hassign : ∀ target, Carries v (target.hits v.offset) (assign target)
            (Node.hits v.offset) := fun _ =>
          .behind passes_advance fun _ => .also (hsub _) fun _ => .node₂ rfl _ _
        exact .ite (.bind (carries_targets.1 left) hassign) (.bind (carries_simpleTarget left) hassign)
      · exact hconditional ()
  exact .ite (.look .get fun _ => .look (.lookahead _) fun _ => .ite (reads_yieldExpression hsub)
    (hbehind ())) (hbehind ())

theorem reads_expression : Reads v (expression sub) := by
  refine .look .here fun start => .bind ((hsub _).permitting _) fun first =>
    .look (.isAt _) fun _ => .ite ?_ (.pure (Nat.le_refl _))
  refine .bind (Carries.iterate (w := hitsEach v.offset) (fun items => ?_) [first]) fun items => ?_
  · exact .behind passes_eat fun _ => .ite (.also (hsub _) fun n =>
      .pure (Nat.le_of_eq (Nat.add_comm _ _))) (.pure (Nat.le_refl _))
  · rw [← hitsEach_reverse]
    exact .nodes rfl _

end Operators

end ModuleBundler.Syntax
