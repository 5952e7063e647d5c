import Mathlib.Data.List.Basic
import ModuleBundler.Syntax.Scope

/-!
# Which references are open

`Node.openReferences` walks a tree and passes the names of the scopes it enters on.  This file says
the same without a walk.  For each label, `Label.scopeOf` lists the names that a node declares for
one of its children, and `Label.roleOf` tells the role in which the child stands; `Node.Refers` puts
them together along a path to a reference.

* `Node.mem_openReferences_step` — a node that is no reference has the open references of its
  children, each in the scope that the node makes for it;
* **`Node.mem_openReferences_iff`** — a reference is open exactly if a path leads to it on which no
  scope declares its name.
-/

namespace ModuleBundler.Syntax

/-! ## Scopes and roles of children -/

/-- The names that the body of a function declares; a body that is an expression declares none. -/
def Node.bodyNames (body : Node) : List String :=
  match body.label with
  | .body => functionNames body.children
  | _ => []

/-- The names that are declared for the parameters of a function, which come first, and for its body,
which comes second. -/
def parameterScope (children : List Node) : Nat → Option (List String)
  | 0 => some (children.headD .absent).bound
  | 1 => some ((children.getD 1 .absent).bodyNames ++ (children.headD .absent).bound)
  | _ => none

/-- The names that a node declares for its child at index `i`, none if no reference is looked for
there. -/
def Label.scopeOf (children : List Node) : Label → Nat → Option (List String)
  | .reference _, _ => none
  | .function _ _ _, 0 => none
  | .function form _ _, i + 1 =>
    (parameterScope children.tail i).map
      (· ++ if form == .expression then (children.headD .absent).bound else [])
  | .arrow _ _, i => parameterScope children i
  | .classDef false, _ => some (children.headD .absent).bound
  | .block, _ => some (lexicalNames children)
  | .staticBlock, _ => some (functionNames children)
  | .switchStatement, 0 => some []
  | .switchStatement, _ + 1 =>
    some (lexicalNames (children.tail.flatMap fun c => c.children.drop 1))
  | .forLoop, _ | .forIn, _ | .forOf _, _ => some (headNames (children.headD .absent))
  | .catchClause, _ => some (children.headD .absent).bound
  | _, _ => some []

/-- The role of a node's child at index `i`, of `count` children. -/
def Label.roleOf (count i : Nat) : Label → Role
  | .property .plain true _ => if i + 1 = count then .shorthand else .plain
  | .call _ | .tagged => if i = 0 then .callee else .plain
  | _ => .plain

/-- A reference stands in a node, which itself has a role; `scopes` are the names that are declared
on the way to the reference. -/
inductive Node.Refers : Role → Node → List String → OpenReference → Prop
  | here {role : Role} {name : String} {span : Span} {children : List Node} :
      Refers role (.mk (.reference name) span children) [] ⟨name, span, role⟩
  | within {role : Role} {label : Label} {span : Span} {children : List Node} {i : Nat}
      {child : Node} {names scopes : List String} {r : OpenReference} :
      children[i]? = some child → label.scopeOf children i = some names →
      Refers (label.roleOf children.length i) child scopes r →
      Refers role (.mk label span children) (scopes ++ names) r

/-! ## The children that are walked -/

section Walks

variable {bound : List String} {r : OpenReference} {nodes : List Node}

theorem exists_getElem?_cons {P : Nat → Node → Prop} {n : Node} {rest : List Node} :
    (∃ (i : Nat) (child : Node), (n :: rest)[i]? = some child ∧ P i child) ↔
      P 0 n ∨ ∃ (i : Nat) (child : Node), rest[i]? = some child ∧ P (i + 1) child := by
  constructor
  · rintro ⟨i, child, hchild, h⟩
    cases i with
    | zero =>
      cases hchild
      exact Or.inl h
    | succ i => exact Or.inr ⟨i, child, hchild, h⟩
  · rintro (h | ⟨i, child, hchild, h⟩)
    · exact ⟨0, n, rfl, h⟩
    · exact ⟨i + 1, child, hchild, h⟩

theorem mem_openReferences : r ∈ openReferences bound nodes ↔
    ∃ (i : Nat) (child : Node), nodes[i]? = some child ∧
      r ∈ child.openReferences .plain bound := by
  induction nodes with
  | nil => simp [openReferences]
  | cons n rest ih =>
    rw [openReferences, List.mem_append, ih,
      exists_getElem?_cons (P := fun _ child => r ∈ child.openReferences .plain bound)]

theorem mem_firstOpen {role : Role} : r ∈ firstOpen role bound nodes ↔
    ∃ (i : Nat) (child : Node), nodes[i]? = some child ∧
      r ∈ child.openReferences (if i = 0 then role else .plain) bound := by
  cases nodes with
  | nil => simp [firstOpen]
  | cons n rest =>
    rw [firstOpen, List.mem_append, mem_openReferences, exists_getElem?_cons
      (P := fun i child => r ∈ child.openReferences (if i = 0 then role else .plain) bound)]
    rfl

theorem mem_lastOpen {role : Role} : r ∈ lastOpen role bound nodes ↔
    ∃ (i : Nat) (child : Node), nodes[i]? = some child ∧
      r ∈ child.openReferences (if i + 1 = nodes.length then role else .plain) bound := by
  induction nodes with
  | nil => simp [lastOpen]
  | cons n rest ih =>
    rw [exists_getElem?_cons (P := fun i child =>
      r ∈ child.openReferences (if i + 1 = (n :: rest).length then role else .plain) bound)]
    cases rest with
    | nil => simp [lastOpen]
    | cons m rest =>
      rw [lastOpen, List.mem_append, ih, if_neg (by simp)]
      · simp only [List.length_cons, Nat.add_right_cancel_iff]
      · exact List.cons_ne_nil m rest

theorem mem_arrowOpen : r ∈ arrowOpen bound nodes ↔
    ∃ (i : Nat) (child : Node), nodes[i]? = some child ∧ ∃ names,
      parameterScope nodes i = some names ∧
      r ∈ child.openReferences .plain (names ++ bound) := by
  cases nodes with
  | nil => simp [arrowOpen]
  | cons params rest =>
    rw [exists_getElem?_cons (P := fun i child => ∃ names,
      parameterScope (params :: rest) i = some names ∧
      r ∈ child.openReferences .plain (names ++ bound))]
    cases rest with
    | nil => simp [arrowOpen, parameterScope]
    | cons body rest =>
      rw [exists_getElem?_cons (P := fun i child => ∃ names,
        parameterScope (params :: body :: rest) (i + 1) = some names ∧
        r ∈ child.openReferences .plain (names ++ bound)), arrowOpen]
      simp [parameterScope]
      rfl

theorem mem_functionOpen {form : FunctionForm} {isAsync isGenerator : Bool} :
    r ∈ functionOpen (form == .expression) bound nodes ↔
      ∃ (i : Nat) (child : Node), nodes[i]? = some child ∧ ∃ names,
        (Label.function form isAsync isGenerator).scopeOf nodes i = some names ∧
        r ∈ child.openReferences .plain (names ++ bound) := by
  cases nodes with
  | nil => simp [functionOpen]
  | cons name rest =>
    have hown : (if form == .expression then name.bound ++ bound else bound) =
        (if form == .expression then name.bound else []) ++ bound := by
      split <;> rfl
    rw [exists_getElem?_cons (P := fun i child => ∃ names,
      (Label.function form isAsync isGenerator).scopeOf (name :: rest) i = some names ∧
      r ∈ child.openReferences .plain (names ++ bound)), functionOpen, mem_arrowOpen, hown]
    simp only [Label.scopeOf, reduceCtorEq, false_and, exists_false, false_or, List.tail_cons,
      List.headD_cons, Option.map_eq_some_iff, exists_exists_and_eq_and, List.append_assoc]

theorem mem_switchOpen : r ∈ switchOpen bound nodes ↔
    ∃ (i : Nat) (child : Node), nodes[i]? = some child ∧ ∃ names,
      Label.switchStatement.scopeOf nodes i = some names ∧
      r ∈ child.openReferences .plain (names ++ bound) := by
  cases nodes with
  | nil => simp [switchOpen]
  | cons discriminant cases =>
    rw [exists_getElem?_cons (P := fun i child => ∃ names,
      Label.switchStatement.scopeOf (discriminant :: cases) i = some names ∧
      r ∈ child.openReferences .plain (names ++ bound)), switchOpen, List.mem_append,
      mem_openReferences]
    simp [Label.scopeOf]

end Walks

/-- A node that is no reference has the open references of its children, each in the scope that the
node makes for it. -/
theorem Node.mem_openReferences_step {role : Role} {bound : List String} {label : Label}
    {span : Span} {children : List Node} {r : OpenReference}
    (hlabel : ∀ name, label ≠ .reference name) :
    r ∈ (Node.mk label span children).openReferences role bound ↔
      ∃ (i : Nat) (child : Node), children[i]? = some child ∧ ∃ names,
        label.scopeOf children i = some names ∧
        r ∈ child.openReferences (label.roleOf children.length i) (names ++ bound) := by
  have huniform : ∀ names, r ∈ Syntax.openReferences (names ++ bound) children ↔
      ∃ (i : Nat) (child : Node), children[i]? = some child ∧ ∃ names',
        some names = some names' ∧ r ∈ child.openReferences .plain (names' ++ bound) := by
    intro names
    rw [mem_openReferences]
    simp only [Option.some.injEq, exists_eq_left']
  cases label with
  | reference name => exact absurd rfl (hlabel name)
  | property kind shorthand computed =>
    cases kind with
    | plain =>
      cases shorthand with
      | true => exact mem_lastOpen.trans (by simp [Label.scopeOf, Label.roleOf])
      | false => exact huniform []
    | _ => exact huniform []
  | call optional => exact mem_firstOpen.trans (by simp [Label.scopeOf, Label.roleOf])
  | tagged => exact mem_firstOpen.trans (by simp [Label.scopeOf, Label.roleOf])
  | function form isAsync isGenerator => exact mem_functionOpen
  | arrow isAsync isExpression => exact mem_arrowOpen
  | classDef isDeclaration =>
    cases isDeclaration
    · exact huniform _
    · exact huniform []
  | block => exact huniform _
  | staticBlock => exact huniform _
  | switchStatement => exact mem_switchOpen
  | forLoop => exact huniform _
  | forIn => exact huniform _
  | forOf isAwait => exact huniform _
  | catchClause => exact huniform _
  | _ => exact huniform []

/-! ## Paths to references -/

/-- What holds of a node whenever it holds of all its children holds of every node. -/
theorem Node.induct_children {P : Node → Prop}
    (h : ∀ label span children, (∀ child ∈ children, P child) → P (.mk label span children)) :
    ∀ n, P n
  | .mk label span children => h label span children fun child _ => induct_children h child

/-- A reference is open exactly if neither the given names nor a scope on the way to it has its
name. -/
theorem Node.mem_openReferences_iff {role : Role} {bound : List String} {n : Node}
    {r : OpenReference} : r ∈ n.openReferences role bound ↔
      ∃ scopes, n.Refers role scopes r ∧ r.name ∉ scopes ∧ r.name ∉ bound := by
  induction n using Node.induct_children generalizing role bound with
  | h label span children ih =>
    by_cases hlabel : ∃ name, label = .reference name
    · obtain ⟨name, rfl⟩ := hlabel
      rw [openReferences]
      constructor
      · intro hr
        split at hr
        · cases hr
        · rename_i hnotMem
          rw [List.mem_singleton.1 hr]
          exact ⟨[], .here, List.not_mem_nil, fun hmem => hnotMem (List.contains_iff_mem.2 hmem)⟩
      · rintro ⟨scopes, hrefers, -, hbound⟩
        cases hrefers with
        | here =>
          rw [if_neg fun hmem => hbound (List.contains_iff_mem.1 hmem)]
          exact List.mem_singleton_self _
        | within _ hnames _ => cases hnames
    · rw [mem_openReferences_step fun name hname => hlabel ⟨name, hname⟩]
      constructor
      · rintro ⟨i, child, hchild, names, hnames, hr⟩
        obtain ⟨scopes, hrefers, hscopes, hrest⟩ := (ih child (List.mem_of_getElem? hchild)).1 hr
        rw [List.mem_append, not_or] at hrest
        refine ⟨scopes ++ names, .within hchild hnames hrefers, ?_, hrest.2⟩
        rw [List.mem_append, not_or]
        exact ⟨hscopes, hrest.1⟩
      · rintro ⟨scopes, hrefers, hscopes, hbound⟩
        cases hrefers with
        | here => exact absurd ⟨_, rfl⟩ hlabel
        | @within _ _ _ _ i child names scopes _ hchild hnames hrefers =>
          rw [List.mem_append, not_or] at hscopes
          refine ⟨i, child, hchild, names, hnames, ?_⟩
          refine (ih child (List.mem_of_getElem? hchild)).2 ⟨scopes, hrefers, hscopes.1, ?_⟩
          rw [List.mem_append, not_or]
          exact ⟨hscopes.2, hbound⟩

/-- A reference is open in a node of its own exactly if no scope on the way to it declares its name. -/
theorem Node.mem_openReferences_nil_iff {role : Role} {n : Node} {r : OpenReference} :
    r ∈ n.openReferences role [] ↔ ∃ scopes, n.Refers role scopes r ∧ r.name ∉ scopes := by
  rw [mem_openReferences_iff]
  simp only [List.not_mem_nil, not_false_eq_true, and_true]

end ModuleBundler.Syntax
