import ModuleBundler.Proofs.Syntax.Parsing
import ModuleBundler.Syntax.Scope

/-!
# The names that declarations bind

A declaration of variables binds the names in its patterns, which nest: objects and arrays have
patterns in them, any of which can have a default value, and the last of which can take the rest.
`Binds` says which names these are, part by part and from left to right.  A function or a class binds
its own name, if it has one (`Node.NamesItself`).

* `Binds.bound_eq` — `Node.boundNames` finds the names of patterns;
* **`binds_of_pattern`** — each pattern that the grammar reads binds some;
* `yields_function` and `yields_classDefinition` — the parts of functions and classes.
-/

namespace ModuleBundler.Syntax

open Parse Grammar

/-! ## Bound names -/

mutual

/-- A pattern, a part of one, or a declaration of variables binds names, in this order. -/
inductive Binds : Node → List String → Prop
  | name (name : String) (span : Span) (children : List Node) :
      Binds (.mk (.binding name) span children) [name]
  | object {span : Span} {properties : List Node} {names : List String} :
      BindsEach properties names → Binds (.mk .objectPattern span properties) names
  | property {short computed : Bool} {span : Span} {key value : Node} {names : List String} :
      Binds value names → Binds (.mk (.patternProperty short computed) span [key, value]) names
  | array {span : Span} {elements : List Node} {names : List String} :
      BindsEach elements names → Binds (.mk .arrayPattern span elements) names
  | elision (span : Span) : Binds (.mk .elision span []) []
  /-- A default value binds nothing. -/
  | defaulted {span : Span} {pattern value : Node} {names : List String} :
      Binds pattern names → Binds (.mk .defaulted span [pattern, value]) names
  | rest {span : Span} {pattern : Node} {names : List String} :
      Binds pattern names → Binds (.mk .rest span [pattern]) names
  | declarator {kind : VariableKind} {span : Span} {pattern value : Node} {names : List String} :
      Binds pattern names → Binds (.mk (.declarator kind) span [pattern, value]) names
  | statement {kind : VariableKind} {span : Span} {declarators : List Node} {names : List String} :
      BindsEach declarators names → Binds (.mk (.variables kind) span declarators) names

/-- The parts of a pattern bind names one after the other. -/
inductive BindsEach : List Node → List String → Prop
  | nil : BindsEach [] []
  | cons {n : Node} {parts : List Node} {names more : List String} :
      Binds n names → BindsEach parts more → BindsEach (n :: parts) (names ++ more)

end

mutual

/-- The names that a pattern binds are found. -/
theorem Binds.bound_eq {n : Node} {names : List String} (h : Binds n names) :
    n.boundNames.map (·.name) = names := by
  cases h with
  | name => rfl
  | object h => exact h.bound_eq
  | property h => exact h.bound_eq
  | array h => exact h.bound_eq
  | elision => rfl
  | defaulted h => exact h.bound_eq
  | rest h =>
    rw [Node.boundNames, boundNamesList, boundNamesList, List.append_nil]
    exact h.bound_eq
  | declarator h => exact h.bound_eq
  | statement h => exact h.bound_eq

theorem BindsEach.bound_eq {parts : List Node} {names : List String} (h : BindsEach parts names) :
    (boundNamesList parts).map (·.name) = names := by
  cases h with
  | nil => rfl
  | cons hn hrest => rw [boundNamesList, List.map_append, hn.bound_eq, hrest.bound_eq]

end

theorem exists_bindsEach {parts : List Node} (h : ∀ n ∈ parts, ∃ names, Binds n names) :
    ∃ names, BindsEach parts names := by
  induction parts with
  | nil => exact ⟨[], .nil⟩
  | cons n parts ih =>
    obtain ⟨names, hn⟩ := h n List.mem_cons_self
    obtain ⟨more, hrest⟩ := ih fun m hm => h m (List.mem_cons_of_mem n hm)
    exact ⟨names ++ more, .cons hn hrest⟩

/-! ## Patterns that are read -/

section Patterns

variable {sub : Goal → Parse Node}

theorem yields_bindingIdentifier :
    Yields bindingIdentifier fun n => ∃ name, n.binding? = some name ∧ Binds n [name] :=
  .behind fun _ => .ite
    (.behind fun _ => .behind fun _ => .behind fun _ => .behind fun _ =>
      .nameLeaf fun name span => ⟨name, rfl, .name name span []⟩)
    .unexpected

theorem yields_withInitializer {pattern : Node} (h : ∃ names, Binds pattern names) :
    Yields (withInitializer sub pattern) fun n => ∃ names, Binds n names := by
  obtain ⟨names, hnames⟩ := h
  exact .behind fun _ => .ite (.behind fun _ => .node fun _ => ⟨names, .defaulted hnames⟩)
    (.pure ⟨names, hnames⟩)

variable (hsub : Yields (sub .pattern) fun n => ∃ names, Binds n names)
include hsub

theorem yields_patternWithInitializer :
    Yields (patternWithInitializer sub) fun n => ∃ names, Binds n names :=
  hsub.bind fun _ => yields_withInitializer

theorem yields_restElement : Yields (restElement sub) fun n => ∃ names, Binds n names :=
  .behind fun _ => .behind fun _ => hsub.bind fun _ ⟨names, h⟩ =>
    .node fun _ => ⟨names, .rest h⟩

theorem yields_bindingProperty : Yields (bindingProperty sub) fun n => ∃ names, Binds n names := by
  refine .behind fun start => .behind fun short => .behind fun ⟨key, computed⟩ =>
    .behind fun _ => .ite ?_ ?_
  · split
    · exact (yields_withInitializer ⟨_, .name _ _ []⟩).bind fun _ ⟨names, h⟩ =>
        .node fun _ => ⟨names, .property h⟩
    · exact .unexpected
  · exact .behind fun _ => (yields_patternWithInitializer hsub).bind fun _ ⟨names, h⟩ =>
      .node fun _ => ⟨names, .property h⟩

theorem yields_objectPattern : Yields (objectPattern sub) fun n => ∃ names, Binds n names := by
  refine .behind fun start => .behind fun _ => .bind (.commaListWithRest _ _
    (yields_bindingProperty hsub) (yields_restElement hsub)) fun items hitems => .behind fun _ => ?_
  obtain ⟨names, hnames⟩ := exists_bindsEach hitems
  extract_lets finish
  have hfinish : ∀ u, Yields (finish u) fun n => ∃ names, Binds n names :=
    fun _ => .node fun _ => ⟨names, .object hnames⟩
  split
  · exact .ite (.behind hfinish) (hfinish ())
  · exact hfinish ()

theorem yields_arrayPatternElement :
    Yields (arrayPatternElement sub) fun n => ∃ names, Binds n names :=
  .behind fun _ => .ite (.behind fun _ => .pure ⟨[], .elision _⟩)
    (yields_patternWithInitializer hsub)

theorem yields_arrayPattern : Yields (arrayPattern sub) fun n => ∃ names, Binds n names := by
  refine .behind fun start => .behind fun _ => .bind (.commaListWithRest _ _
    (yields_arrayPatternElement hsub) (yields_restElement hsub)) fun items hitems =>
    .behind fun _ => .node fun _ => ?_
  obtain ⟨names, hnames⟩ := exists_bindsEach hitems
  exact ⟨names, .array hnames⟩

theorem yields_bindingPattern : Yields (bindingPattern sub) fun n => ∃ names, Binds n names := by
  refine .behind fun t => ?_
  split
  · exact yields_objectPattern hsub
  · exact yields_arrayPattern hsub
  · exact fun s n u h hok =>
      let ⟨name, _, hbinds⟩ := yields_bindingIdentifier s n u h hok
      ⟨[name], hbinds⟩

end Patterns

/-- Each pattern that the grammar reads binds names. -/
theorem binds_of_pattern (depth : Nat) :
    Yields (goal depth .pattern) fun n => ∃ names, Binds n names := by
  induction depth with
  | zero => exact .unexpected
  | succ depth ih => exact yields_bindingPattern ih

/-! ## Functions and classes -/

section Declarations

variable {sub : Goal → Parse Node} {start : Nat}

/-- A node stands for the name of a function or a class, which can be left out. -/
def Node.NamesItself (n : Node) : Prop := n.bound = n.binding?.toList

theorem yields_functionName {form : FunctionForm} {isAsync isGenerator : Bool} :
    Yields (functionName form isAsync isGenerator) Node.NamesItself := by
  refine .behind fun t => .behind fun _ => ?_
  extract_lets absent
  have habsent : ∀ u, Yields (absent u) Node.NamesItself := fun _ => .pure rfl
  refine .ite (.behind fun permit => .behind fun _ => .behind fun _ => .nameLeaf fun _ _ => rfl)
    (.ite (.ite (.behind habsent) (.behind fun _ => .ite (.behind habsent) (habsent ())))
      (habsent ()))

/-- A function has its form and begins at the given offset. -/
theorem yields_function {isAsync : Bool} {form : FunctionForm} :
    Yields (function sub start isAsync form) fun n => ∃ isGenerator stop name params body,
      n = .mk (.function form isAsync isGenerator) ⟨start, stop⟩ [name, params, body] ∧
        name.NamesItself :=
  .behind fun _ => .behind fun isGenerator => yields_functionName.bind fun name hname =>
    .behind fun ⟨params, body⟩ => .node fun stop =>
      ⟨isGenerator, stop, name, params, body, rfl, hname⟩

/-- A class begins at the given offset. -/
theorem yields_classDefinition {isDeclaration : Bool} {decorations : List Node} :
    Yields (classDefinition sub start isDeclaration decorations) fun n => ∃ stop name parts,
      n = .mk (.classDef isDeclaration) ⟨start, stop⟩ (name :: parts) ∧ name.NamesItself := by
  refine .behind fun _ => .behind fun _ => .behind fun _ => ?_
  extract_lets behind
  have hbehind : ∀ name : Node, name.NamesItself → Yields (behind name) fun n =>
      ∃ stop name parts, n = .mk (.classDef isDeclaration) ⟨start, stop⟩ (name :: parts) ∧
        name.NamesItself := by
    intro name hname
    refine .behind fun _ => ?_
    extract_lets finish
    have hfinish : ∀ superclass, Yields (finish superclass) fun n =>
        ∃ stop name parts, n = .mk (.classDef isDeclaration) ⟨start, stop⟩ (name :: parts) ∧
          name.NamesItself :=
      fun superclass => .behind fun body => .node fun stop => ⟨stop, name, _, rfl, hname⟩
    exact .ite (.behind hfinish) (.behind hfinish)
  refine .ite (yields_bindingIdentifier.bind fun name ⟨text, hname, hbinds⟩ => hbehind name ?_)
    (.bind (Q := fun name => name = Node.absent) (.pure rfl) fun name h => hbehind name ?_)
  · unfold Node.NamesItself
    rw [hname]
    exact hbinds.bound_eq
  · rw [h]
    rfl

end Declarations

end ModuleBundler.Syntax
