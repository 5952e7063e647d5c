import Mathlib.Data.List.Forall2
import ModuleBundler.Proofs.LoaderForm.Boundary
import ModuleBundler.Proofs.Syntax.Expression

/-!
# The items of a module

To the module that it stands in, a top-level statement is an import, an export of one of several
forms, or something else.  `Item` says which, with nothing but names in it, and `Means` relates a
statement to its item by the shape of its tree.

* `yields_importDeclaration`, `yields_exportDeclaration` — what the grammar reads as an import or an
  export is one of the items;
* **`exists_items`** — so is each top-level statement of a program that was parsed.
-/

namespace ModuleBundler.LoaderForm

open ModuleBundler.Syntax ModuleBundler.Text Parse Grammar

/-! ## Items -/

/-- What a top-level statement is to its module. -/
inductive Item where
  /-- An import from a source; it can be without bindings. -/
  | imports (source : String) (bindings : List ImportBinding)
  /-- An export list with a source: each name in it, and the name to export it under. -/
  | reexports (source : String) (names : List (String × String))
  /-- An export of everything that a source exports, if not as one object under a name. -/
  | reexportsAll (source : String) (exported : Option String)
  /-- An export list of the module's own names, and the names to export them under. -/
  | lists (names : List (String × String))
  /-- An exported declaration of names. -/
  | declares (names : List String)
  /-- A default export, with the name that it declares. -/
  | default (name : Option String)
  | other

/-- A node is a string literal of a text. -/
def IsLiteral (n : Node) (text : String) : Prop :=
  ∃ wellFormed raw, n.label = .string text wellFormed raw

/-- What an import specifier binds. -/
inductive Imports : Node → ImportBinding → Prop
  | named {span place : Span} {imported : Node} {name localName : String} :
      imported.nameText? = some name →
      Imports (.mk .importNamed span [imported, .mk (.binding localName) place []])
        ⟨localName, .named name⟩
  | default {span : Span} {binding : Node} {localName : String} :
      binding.binding? = some localName →
      Imports (.mk .importDefault span [binding]) ⟨localName, .named "default"⟩
  | all {span : Span} {binding : Node} {localName : String} :
      binding.binding? = some localName →
      Imports (.mk .importNamespace span [binding]) ⟨localName, .all⟩

/-- The name in an export specifier, and the name to export it under. -/
inductive Exports : Node → String × String → Prop
  | specifier {span : Span} {name exported : Node} {pair : String × String} :
      name.nameText? = some pair.1 → exported.nameText? = some pair.2 →
      Exports (.mk .exportSpecifier span [name, exported]) pair

/-- The name that what stands behind `export default` declares; a value declares none. -/
inductive DefaultNamed : Node → Option String → Prop
  | function {isAsync isGenerator : Bool} {span : Span} {name : Node} {parts : List Node} :
      DefaultNamed (.mk (.function .defaultExport isAsync isGenerator) span (name :: parts))
        name.binding?
  | classDef {span : Span} {name : Node} {parts : List Node} :
      DefaultNamed (.mk (.classDef true) span (name :: parts)) name.binding?
  | value {n : Node} : n.label.isDefaultDeclaration = false → DefaultNamed n none

/-- What a top-level statement is to its module, by the shape of its tree. -/
inductive Means : Node → Item → Prop
  | imports {clause : Bool} {span : Span} {specifiers attributes : List Node} {literal : Node}
      {source : String} {bindings : List ImportBinding} :
      List.Forall₂ Imports specifiers bindings → IsLiteral literal source →
      (∀ n ∈ attributes, n.label = .importAttribute) →
      Means (.mk (.importDecl clause) span (specifiers ++ literal :: attributes))
        (.imports source bindings)
  | reexports {span : Span} {specifiers attributes : List Node} {literal : Node}
      {source : String} {names : List (String × String)} :
      List.Forall₂ Exports specifiers names → IsLiteral literal source →
      (∀ n ∈ attributes, n.label = .importAttribute) →
      Means (.mk .exportNames span (specifiers ++ literal :: attributes)) (.reexports source names)
  | reexportsAs {span : Span} {attributes : List Node} {alias_ literal : Node}
      {source exported : String} :
      alias_.nameText? = some exported → IsLiteral literal source →
      Means (.mk .exportAll span (alias_ :: literal :: attributes))
        (.reexportsAll source (some exported))
  | reexportsAll {span : Span} {attributes : List Node} {literal : Node} {source : String} :
      IsLiteral literal source →
      Means (.mk .exportAll span (.absent :: literal :: attributes)) (.reexportsAll source none)
  | lists {span : Span} {specifiers : List Node} {names : List (String × String)} :
      List.Forall₂ Exports specifiers names → Means (.mk .exportNames span specifiers) (.lists names)
  | declaresVariables {span place : Span} {kind : VariableKind} {declarators : List Node}
      {names : List String} :
      BindsEach declarators names →
      Means (.mk .exportDecl span [.mk (.variables kind) place declarators]) (.declares names)
  | declaresFunction {span place : Span} {isAsync isGenerator : Bool} {name : Node}
      {parts : List Node} :
      name.NamesItself →
      Means (.mk .exportDecl span
          [.mk (.function .declaration isAsync isGenerator) place (name :: parts)])
        (.declares name.binding?.toList)
  | declaresClass {span place : Span} {name : Node} {parts : List Node} :
      name.NamesItself →
      Means (.mk .exportDecl span [.mk (.classDef true) place (name :: parts)])
        (.declares name.binding?.toList)
  | default {offset : Nat} {span : Span} {value : Node} {name : Option String} :
      DefaultNamed value name → Means (.mk (.exportDefault offset) span [value]) (.default name)
  | other {n : Node} : isModuleItem n = false → Means n .other

/-! ## Imports that are read -/

theorem exists_forall₂ {α β : Type} {R : α → β → Prop} {l : List α} (h : ∀ a ∈ l, ∃ b, R a b) :
    ∃ l', List.Forall₂ R l l' := by
  induction l with
  | nil => exact ⟨[], .nil⟩
  | cons a l ih =>
    obtain ⟨b, hb⟩ := h a List.mem_cons_self
    obtain ⟨l', hl'⟩ := ih fun c hc => h c (List.mem_cons_of_mem a hc)
    exact ⟨b :: l', .cons hb hl'⟩

theorem yields_stringLiteral : Yields stringLiteral fun n => ∃ text, IsLiteral n text := by
  refine .behind fun t => ?_
  split
  · exact .leaf fun _ => ⟨_, _, _, rfl⟩
  · exact .unexpected

theorem yields_moduleName : Yields moduleName fun n => ∃ name, n.nameText? = some name := by
  have hname : ∀ {n : Node} {text}, IsLiteral n text → n.nameText? = some text := by
    rintro n text ⟨wellFormed, raw, hlabel⟩
    rw [Node.nameText?, hlabel]
  refine .behind fun t => ?_
  split
  · refine yields_stringLiteral.bind fun n ⟨text, hn⟩ => ?_
    exact .ite (.behind fun _ => .pure ⟨text, hname hn⟩) (.pure ⟨text, hname hn⟩)
  · refine .behind fun t => ?_
    split
    · exact .nameLeaf fun text _ => ⟨text, rfl⟩
    · exact .unexpected

theorem yields_importAttributes :
    Yields importAttributes fun items => ∀ n ∈ items, n.label = .importAttribute := by
  have hattribute : Yields importAttribute fun n => n.label = .importAttribute := by
    refine .behind fun start => .behind fun t => ?_
    dsimp only
    split
    · exact .behind fun _ => .behind fun _ => .behind fun _ => .node fun _ => rfl
    · exact .behind fun _ => .behind fun _ => .behind fun _ => .node fun _ => rfl
  refine .behind fun _ => .behind fun _ => .behind fun _ => ?_
  refine .ite (.pure fun _ hn => absurd hn List.not_mem_nil) (.behind fun _ => .behind fun _ => ?_)
  exact (Yields.commaList _ hattribute).bind fun ⟨items, _⟩ hitems =>
    .behind fun _ => .behind fun _ => .pure hitems

theorem yields_importSpecifier : Yields importSpecifier fun n => ∃ b, Imports n b := by
  refine .behind fun start => .behind fun first => yields_moduleName.bind fun name ⟨text, hname⟩ =>
    .behind fun _ => ?_
  extract_lets finish
  have hfinish : ∀ localToken localName, Yields (finish (name, localToken, localName)) fun n =>
      ∃ b, Imports n b := by
    intro localToken localName
    unfold finish
    dsimp only
    split
    · exact .ite .fail (.node fun _ => ⟨_, .named hname⟩)
    · exact .fail
  exact .ite (.behind fun _ => .behind fun _ => hfinish _ _) (hfinish _ _)

theorem yields_importNamespace : Yields importNamespace fun n => ∃ b, Imports n b :=
  .behind fun _ => .behind fun _ => .behind fun _ =>
    yields_bindingIdentifier.bind fun _ ⟨_, hname, _⟩ => .node fun _ => ⟨_, .all hname⟩

theorem yields_importNames : Yields importNames fun items => ∀ n ∈ items, ∃ b, Imports n b :=
  .behind fun _ => ((Yields.commaList _ yields_importSpecifier).permitting _).bind
    fun ⟨_, _⟩ hitems => .behind fun _ => .pure hitems

theorem yields_importClause : Yields importClause fun items => ∀ n ∈ items, ∃ b, Imports n b := by
  have hone : Yields (do return [← importNamespace]) fun items => ∀ n ∈ items, ∃ b, Imports n b :=
    yields_importNamespace.bind fun _ hn => .pure fun _ hm => List.mem_singleton.1 hm ▸ hn
  refine .behind fun start => .behind fun _ => ?_
  extract_lets others
  have hothers : ∀ u, Yields (others u) fun items => ∀ n ∈ items, ∃ b, Imports n b := fun _ =>
    .behind fun _ => .ite hone
      (.behind fun _ => .ite yields_importNames (.pure fun _ hn => absurd hn List.not_mem_nil))
  refine .ite (yields_bindingIdentifier.bind fun name ⟨_, hname, _⟩ => ?_) (hothers ())
  refine .bind (Q := fun n => ∃ b, Imports n b) (.node fun _ => ⟨_, .default hname⟩)
    fun first hfirst => .behind fun _ => .ite (.behind fun _ => .ite ?_ ?_) ?_
  · refine yields_importNamespace.bind fun second hsecond => .pure fun n hn => ?_
    rcases List.mem_cons.1 hn with rfl | hn
    · exact hfirst
    · rw [List.mem_singleton.1 hn]
      exact hsecond
  · exact .behind fun _ => .ite (yields_importNames.bind fun _ hitems =>
      .pure (List.forall_mem_cons.2 ⟨hfirst, hitems⟩)) (.bind (Q := fun _ => False) .unexpected
        fun _ h => h.elim)
  · exact .pure fun n hn => List.mem_singleton.1 hn ▸ hfirst

theorem yields_importDeclaration : Yields importDeclaration fun n => ∃ item, Means n item := by
  refine .behind fun start => .behind fun _ => .behind fun t => ?_
  extract_lets isBare behind
  have hbehind : ∀ specifiers : List Node, (∀ n ∈ specifiers, ∃ b, Imports n b) →
      Yields (behind specifiers) fun n => ∃ item, Means n item := by
    intro specifiers hspecifiers
    obtain ⟨bindings, hbindings⟩ := exists_forall₂ hspecifiers
    exact yields_stringLiteral.bind fun _ ⟨_, hliteral⟩ => yields_importAttributes.bind
      fun _ hattributes => .behind fun _ => .node fun _ =>
        ⟨_, .imports hbindings hliteral hattributes⟩
  refine .ite (.bind (Q := fun specifiers => ∀ n ∈ specifiers, ∃ b, Imports n b) ?_ hbehind) ?_
  · exact .pure fun _ hn => absurd hn List.not_mem_nil
  · exact yields_importClause.bind fun _ hitems => .behind fun _ =>
      .bind (Q := fun specifiers => ∀ n ∈ specifiers, ∃ b, Imports n b) (.pure hitems) hbehind

/-! ## Exports that are read -/

theorem yields_exportSpecifier : Yields exportSpecifier fun n => ∃ pair, Exports n pair := by
  refine .behind fun start => yields_moduleName.bind fun name ⟨text, hname⟩ => .behind fun _ => ?_
  extract_lets finish
  have hfinish : ∀ exported : Node, (∃ text, exported.nameText? = some text) →
      Yields (finish exported) fun n => ∃ pair, Exports n pair :=
    fun _ ⟨other, hother⟩ => .node fun _ => ⟨(text, other), .specifier hname hother⟩
  exact .ite (yields_moduleName.bind hfinish)
    (.bind (Q := fun n => ∃ text, n.nameText? = some text) (.pure ⟨text, hname⟩) hfinish)

/-- A local name stays the same when it becomes a reference. -/
theorem yields_exportReference {name : Node} {text : String} (h : name.nameText? = some text) :
    Yields (exportReference name) fun n => n.nameText? = some text := by
  unfold exportReference
  split
  · exact .behind fun _ => .pure h
  · rename_i word hlabel
    have hword : word = text := by
      rw [Node.nameText?, hlabel] at h
      exact Option.some.inj h
    rw [hword]
    exact .ite (.behind fun _ => .pure rfl) (.pure rfl)
  · exact .pure h

theorem yields_exportReferences {items : List Node} (h : ∀ n ∈ items, ∃ pair, Exports n pair) :
    Yields (exportReferences items) fun items => ∀ n ∈ items, ∃ pair, Exports n pair := by
  induction items with
  | nil => exact .pure h
  | cons n rest ih =>
    obtain ⟨pair, hpair⟩ := h n List.mem_cons_self
    cases hpair with
    | specifier hname hexported =>
      refine (yields_exportReference hname).bind fun _ hname =>
        (ih fun m hm => h m (List.mem_cons_of_mem _ hm)).bind fun _ hrest => .pure ?_
      exact List.forall_mem_cons.2 ⟨⟨_, .specifier hname hexported⟩, hrest⟩

theorem yields_exportNames {start : Nat} :
    Yields (exportNames start) fun n => ∃ item, Means n item := by
  refine .behind fun _ => ((Yields.commaList _ yields_exportSpecifier).permitting _).bind
    fun ⟨items, _⟩ hitems => .behind fun _ => .behind fun _ => .behind fun _ => .ite ?_ ?_
  · obtain ⟨names, hnames⟩ := exists_forall₂ hitems
    exact yields_stringLiteral.bind fun _ ⟨_, hliteral⟩ => yields_importAttributes.bind
      fun _ hattributes => .behind fun _ => .node fun _ =>
        ⟨_, .reexports hnames hliteral hattributes⟩
  · refine (yields_exportReferences hitems).bind fun _ hitems => .behind fun _ => .node fun _ => ?_
    obtain ⟨names, hnames⟩ := exists_forall₂ hitems
    exact ⟨_, .lists hnames⟩

theorem yields_exportAll {start : Nat} :
    Yields (exportAll start) fun n => ∃ item, Means n item := by
  refine .behind fun _ => .behind fun _ => ?_
  extract_lets behind
  have hbehind : ∀ alias_ : Node, alias_ = .absent ∨ (∃ text, alias_.nameText? = some text) →
      Yields (behind alias_) fun n => ∃ item, Means n item := by
    intro alias_ halias
    refine .behind fun _ => yields_stringLiteral.bind fun _ ⟨_, hliteral⟩ => .behind fun _ =>
      .behind fun _ => .node fun _ => ?_
    rcases halias with rfl | ⟨text, htext⟩
    · exact ⟨_, .reexportsAll hliteral⟩
    · exact ⟨_, .reexportsAs htext hliteral⟩
  exact .ite (yields_moduleName.bind fun _ h => hbehind _ (Or.inr h))
    (.bind (Q := fun n => n = Node.absent) (.pure rfl) fun _ h => hbehind _ (Or.inl h))

section Declarations

variable {sub : Goal → Parse Node}

theorem yields_defaultValue (hvalue : Yields (sub .assignment) fun n =>
    n.label.isDefaultDeclaration = false) {decorations : List Node} :
    Yields (defaultValue sub decorations) fun n => ∃ name, DefaultNamed n name := by
  refine .behind fun start => .behind fun _ => ?_
  have hclass : ∀ decorations, Yields (classDefinition sub start true decorations) fun n =>
      ∃ name, DefaultNamed n name := fun _ s n t _ hok => by
    obtain ⟨_, _, _, rfl, -⟩ := yields_classDefinition s n t trivial hok
    exact ⟨_, .classDef⟩
  have hfunction : ∀ isAsync, Yields (function sub start isAsync .defaultExport) fun n =>
      ∃ name, DefaultNamed n name := fun _ s n t _ hok => by
    obtain ⟨_, _, _, _, _, rfl, -⟩ := yields_function s n t trivial hok
    exact ⟨_, .function⟩
  refine .ite (hclass _) (.behind fun _ => .ite ?_ (.behind fun _ => .ite (hfunction _)
    (.behind fun _ => .ite (.behind fun _ => hfunction _) ?_)))
  · exact .behind fun _ => .behind fun _ => .ite (hclass _) .unexpected
  · exact hvalue.bind fun _ hlabel => .behind fun _ => .pure ⟨none, .value hlabel⟩

theorem yields_exportDefault (hvalue : Yields (sub .assignment) fun n =>
    n.label.isDefaultDeclaration = false) {start : Nat} {decorations : List Node} :
    Yields (exportDefault sub start decorations) fun n => ∃ item, Means n item :=
  .behind fun _ => .behind fun _ => (yields_defaultValue hvalue).bind fun _ ⟨_, hname⟩ =>
    .node fun _ => ⟨_, .default hname⟩

theorem yields_declarator (hpattern : Yields (sub .pattern) fun n => ∃ names, Binds n names)
    {kind : VariableKind} : Yields (declarator sub kind) fun n => ∃ names, Binds n names := by
  refine .behind fun start => hpattern.bind fun pattern ⟨names, hnames⟩ => .behind fun _ => ?_
  extract_lets finish
  have hfinish : ∀ value, Yields (finish value) fun n => ∃ names, Binds n names :=
    fun _ => .node fun _ => ⟨names, .declarator hnames⟩
  exact .ite (.behind hfinish) (.behind hfinish)

/-- The declarators of a statement bind names, one after the other. -/
theorem yields_variableStatement (hpattern : Yields (sub .pattern) fun n => ∃ names, Binds n names)
    {kind : VariableKind} {position : StatementPlace} :
    Yields (variableStatement sub kind position) fun n => ∃ place declarators names,
      n = .mk (.variables kind) place declarators ∧ BindsEach declarators names := by
  have hdeclarators : ∀ {start}, Yields (declarators sub start kind false) fun n =>
      ∃ names, BindsEach n.children names := by
    intro start
    unfold declarators
    extract_lets one
    have hone : Yields one fun n => ∃ names, Binds n names :=
      (yields_declarator hpattern).bind fun d hd => .ite (.behind fun _ => .pure hd) (.pure hd)
    refine hone.bind fun first hfirst => .bind (Q := fun items => ∀ n ∈ items, ∃ names, Binds n names)
      (.iterate (fun n hn => List.mem_singleton.1 hn ▸ hfirst) fun items hitems => ?_)
      fun items hitems => .node fun _ => exists_bindsEach fun n hn => hitems n (List.mem_reverse.1 hn)
    exact .behind fun _ => .ite (hone.bind fun n hn => .pure (List.forall_mem_cons.2 ⟨hn, hitems⟩))
      (.pure hitems)
  refine .behind fun start => .behind fun _ => hdeclarators.bind fun n ⟨names, hnames⟩ =>
    .behind fun _ => .bind (Q := fun n => ∃ place declarators names,
      n = .mk (.variables kind) place declarators ∧ BindsEach declarators names)
      (.node fun _ => ⟨_, _, names, rfl, hnames⟩) fun n hn => ?_
  exact .ite (.behind fun _ => .pure hn) (.pure hn)

theorem yields_functionStatement {start : Nat} {isAsync : Bool} {position : StatementPlace} :
    Yields (functionStatement sub start isAsync position) fun n => ∃ isGenerator stop name parts,
      n = .mk (.function .declaration isAsync isGenerator) ⟨start, stop⟩ (name :: parts) ∧
        name.NamesItself := by
  refine yields_function.bind fun n ⟨isGenerator, stop, name, params, body, hn, hname⟩ => ?_
  have hfound : ∃ isGenerator stop name parts,
      n = .mk (.function .declaration isAsync isGenerator) ⟨start, stop⟩ (name :: parts) ∧
        name.NamesItself := ⟨isGenerator, stop, name, [params, body], hn, hname⟩
  refine .ite ?_ (.pure hfound)
  split
  · exact .behind fun _ => .pure hfound
  · exact .behind fun _ => .pure hfound
  · exact .pure hfound

theorem yields_classStatement {start : Nat} {decorations : List Node} {position : StatementPlace} :
    Yields (classStatement sub start decorations position) fun n => ∃ stop name parts,
      n = .mk (.classDef true) ⟨start, stop⟩ (name :: parts) ∧ name.NamesItself :=
  yields_classDefinition.bind fun _ hn => .ite (.behind fun _ => .pure hn) (.pure hn)

variable (hpattern : Yields (sub .pattern) fun n => ∃ names, Binds n names)
include hpattern

theorem yields_exportedDeclaration {decorations : List Node} :
    Yields (exportedDeclaration sub decorations) fun d =>
      ∃ item, ∀ span, Means (.mk .exportDecl span [d]) item := by
  have hvariables : ∀ kind, Yields (variableStatement sub kind .list) fun d =>
      ∃ item, ∀ span, Means (.mk .exportDecl span [d]) item := fun kind s d t _ hok => by
    obtain ⟨_, _, names, rfl, hnames⟩ := yields_variableStatement hpattern s d t trivial hok
    exact ⟨_, fun _ => .declaresVariables hnames⟩
  have hfunction : ∀ start isAsync, Yields (functionStatement sub start isAsync .list) fun d =>
      ∃ item, ∀ span, Means (.mk .exportDecl span [d]) item := fun start isAsync s d t _ hok => by
    obtain ⟨_, _, _, _, rfl, hname⟩ := yields_functionStatement s d t trivial hok
    exact ⟨_, fun _ => .declaresFunction hname⟩
  have hclass : ∀ start decorations, Yields (classStatement sub start decorations .list) fun d =>
      ∃ item, ∀ span, Means (.mk .exportDecl span [d]) item := fun start more s d t _ hok => by
    obtain ⟨_, _, _, rfl, hname⟩ := yields_classStatement s d t trivial hok
    exact ⟨_, fun _ => .declaresClass hname⟩
  refine .behind fun start => .behind fun _ => .ite (hvariables _) <| .behind fun _ =>
    .ite (hvariables _) <| .behind fun _ => .ite (hvariables _) <| .behind fun _ =>
    .ite (hfunction _ _) <| .behind fun _ => .ite (hclass _ _) <| .behind fun _ =>
    .ite (.behind fun _ => hfunction _ _) <| .behind fun _ => .ite ?_ .unexpected
  exact .behind fun more => .behind fun _ => .ite (hclass _ _) .unexpected

variable (hvalue : Yields (sub .assignment) fun n => n.label.isDefaultDeclaration = false)
include hvalue

theorem yields_exportDeclaration {decorations : List Node} :
    Yields (exportDeclaration sub decorations) fun n => ∃ item, Means n item :=
  .behind fun _ => .behind fun _ => .behind fun _ => .ite (yields_exportDefault hvalue) <|
    .behind fun _ => .ite yields_exportAll <| .behind fun _ => .ite yields_exportNames <|
    (yields_exportedDeclaration hpattern).bind fun _ ⟨item, hitem⟩ => .node fun _ => ⟨item, hitem _⟩

end Declarations

/-! ## Statements that are read -/

/-- What is read is no import or export, and ends where the previous token ended. -/
abbrev EndsPlain (p : Parse Node) : Prop := Ends p fun n => isModuleItem n = false

section Statements

variable {sub : Goal → Parse Node}

/-! ### Statements that are no imports and exports -/

theorem plain_forLoop {start : Nat} {isAwait : Bool} {first : Node} :
    EndsPlain (forLoop sub start isAwait first) := by
  unfold forLoop
  dsimp only
  repeat' first
    | exact .node fun _ => rfl
    | refine .ite ?_ ?_
    | refine .behind fun _ => ?_
    | split

theorem plain_forEach {start : Nat} {isAwait : Bool} {left : Node} :
    EndsPlain (forEach sub start isAwait left) := by
  unfold forEach
  refine .behind fun isIn => .behind fun _ => ?_
  cases isIn
  all_goals
    dsimp only
    repeat' first
      | exact .node fun _ => rfl
      | refine .ite ?_ ?_
      | refine .behind fun _ => ?_

theorem plain_forStatement : EndsPlain (forStatement sub) := by
  refine .behind fun start => .behind fun _ => .behind fun isAwait => ?_
  extract_lets behind
  have hbehind : ∀ u, EndsPlain (behind u) := by
    intro u
    refine .behind fun _ => .behind fun _ => .ite plain_forLoop (.behind fun kind => ?_)
    split
    · exact .behind fun _ => .behind fun _ => .behind fun first => .behind fun _ => .behind fun _ =>
        .ite plain_forEach plain_forLoop
    · refine .behind fun _ => .ite plain_forLoop (.behind fun firstToken => .behind fun follower =>
        .behind fun first => .behind fun _ => .behind fun _ => .ite (.behind fun target => ?_)
        plain_forLoop)
      extract_lets _ checked
      have hchecked : ∀ u, EndsPlain (checked u) := fun _ =>
        .ite (.behind fun _ => plain_forEach) plain_forEach
      exact .ite (.behind hchecked) (hchecked ())
  exact .ite (.behind fun _ => .ite (.behind fun _ => .behind fun _ => .behind hbehind)
    (.behind hbehind)) (hbehind ())

variable (sub) in
/-- Most statements begin with a word of their own. -/
theorem plain_wordStatement {p : Parse Node} (h : p = ifStatement sub ∨ p = doWhile sub ∨
    p = whileLoop sub ∨ p = withStatement sub ∨ p = switchStatement sub ∨ p = throwStatement sub ∨
    p = tryStatement sub ∨ p = returnStatement sub ∨ p = jump .continueStatement ∨
    p = jump .breakStatement) : EndsPlain p := by
  rcases h with rfl | rfl | rfl | rfl | rfl | rfl | rfl | rfl | rfl | rfl
  all_goals
    refine .behind fun _ => ?_
    repeat' first
      | exact .node fun _ => rfl
      | refine .ite ?_ ?_
      | refine .behind fun _ => ?_

theorem plain_expressionStatement {start : Nat} {e : Node} :
    EndsPlain (expressionStatement start e) :=
  .behind fun _ => .node fun _ => rfl

theorem plain_expressionOrLabeled : EndsPlain (expressionOrLabeled sub) := by
  refine .behind fun start => .behind fun e => ?_
  split
  · exact .behind fun _ => .ite (.behind fun _ => .node fun _ => rfl) plain_expressionStatement
  · exact plain_expressionStatement

variable {position : StatementPlace}

theorem plain_function {start : Nat} {isAsync : Bool} {form : FunctionForm} :
    EndsPlain (function sub start isAsync form) :=
  .behind fun _ => .behind fun _ => .behind fun _ => .behind fun _ => .node fun _ => rfl

theorem plain_classDefinition {start : Nat} {isDeclaration : Bool} {decorations : List Node} :
    EndsPlain (classDefinition sub start isDeclaration decorations) := by
  refine .behind fun _ => .behind fun _ => .behind fun _ => ?_
  extract_lets behind
  have hbehind : ∀ name, EndsPlain (behind name) := by
    refine fun _ => .behind fun _ => ?_
    extract_lets finish
    have hfinish : ∀ superclass, EndsPlain (finish superclass) :=
      fun _ => .behind fun _ => .node fun _ => rfl
    exact .ite (.behind hfinish) (.behind hfinish)
  exact .ite (.behind hbehind) (.behind hbehind)

theorem plain_classStatement {start : Nat} {decorations : List Node} :
    EndsPlain (classStatement sub start decorations position) :=
  plain_classDefinition.bind fun _ =>
    .ite (fun _ => Ends.kept_report.bind fun _ => .pure fun _ => id) fun _ => .pure fun _ => id

theorem plain_functionStatement {start : Nat} {isAsync : Bool} :
    EndsPlain (functionStatement sub start isAsync position) := by
  refine plain_function.bind fun n => .ite (fun _ => ?_) fun _ => .pure fun _ => id
  split
  · exact Ends.kept_report.bind fun _ => .pure fun _ => id
  · exact Ends.kept_report.bind fun _ => .pure fun _ => id
  · exact .pure fun _ => id

theorem plain_variableStatement {kind : VariableKind} :
    EndsPlain (variableStatement sub kind position) := by
  refine .behind fun _ => .behind fun _ => .behind fun _ => .behind fun _ =>
    .bind (Ends.node (Q := fun n => isModuleItem n = false) fun _ => rfl) fun _ => ?_
  exact .ite (fun _ => Ends.kept_report.bind fun _ => .pure fun _ => id) fun _ => .pure fun _ => id

theorem plain_letStatement : EndsPlain (letStatement sub position) :=
  .behind fun _ => .behind fun _ => .ite (.behind fun _ => plain_expressionStatement) <|
    .ite (.behind fun _ => plain_expressionStatement) <|
    .ite (.behind fun _ => plain_expressionStatement) plain_variableStatement

/-! ### All statements -/

/-- A statement is an import, an export with or without decorators before it, or no module item. -/
theorem leads_statement {P : ParseState → Prop} {D : List Node → ParseState → Prop}
    {Q : Node → ParseState → Prop} (himport : Leads (fun s => P s ∧ AtWord s) importDeclaration Q)
    (hnone : ∀ s, P s → D [] s) (hdecorators : Leads P (decorators sub) D)
    (hexport : ∀ decorations, Leads (fun s => D decorations s ∧ AtWord s)
      (exportDeclaration sub decorations) Q) :
    Leads P (statement sub position) fun n t =>
      (isModuleItem n = false ∧ n.span.stop = t.prevStop) ∨ Q n t := by
  have hplain : ∀ {P : ParseState → Prop} {p : Parse Node}, EndsPlain p → Leads P p fun n t =>
      (isModuleItem n = false ∧ n.span.stop = t.prevStop) ∨ Q n t :=
    fun hp s n t _ hok => .inl (hp s n t trivial hok)
  refine leads_token.bind fun t => ?_
  dsimp only
  split
  · exact hplain (.behind fun _ => .behind fun _ => .behind fun _ => .behind fun _ =>
      .node fun _ => rfl)
  · exact hplain (.leaf fun _ => rfl)
  · refine Leads.mono (P := P) ?_ (fun _ hs => hs.1) fun _ _ => id
    refine hdecorators.bind fun decorations => (Steady.atWord _).leads.bind fun _ =>
      .ite (fun _ => hplain plain_classStatement) fun _ => leads_atWord.bind fun _ =>
      .ite (fun hfound => ?_) fun _ => .unexpected
    exact (hexport decorations).mono (fun _ hs => ⟨hs.1, hs.2 hfound⟩) fun _ _ => .inr
  · rename_i escaped hkind
    split
    · exact hplain (plain_wordStatement sub (by simp))
    · exact hplain (plain_wordStatement sub (by simp))
    · exact hplain (plain_wordStatement sub (by simp))
    · exact hplain plain_forStatement
    · exact hplain (plain_wordStatement sub (by simp))
    · exact hplain (plain_wordStatement sub (by simp))
    · exact hplain (plain_wordStatement sub (by simp))
    · exact hplain (plain_wordStatement sub (by simp))
    · exact hplain (plain_wordStatement sub (by simp))
    · exact hplain (plain_wordStatement sub (by simp))
    · exact hplain (.behind fun _ => .behind fun _ => .node fun _ => rfl)
    · exact hplain plain_classStatement
    · exact (hexport []).mono (fun s hs => ⟨hnone s hs.1, _, escaped, hs.2 ▸ hkind⟩) fun _ _ => .inr
    · exact hplain (plain_wordStatement sub (by simp))
    · exact hplain plain_variableStatement
    · exact hplain plain_variableStatement
    · exact hplain plain_functionStatement
    · exact .ite (fun _ => hplain plain_expressionOrLabeled) fun _ => hplain plain_letStatement
    · exact hplain (.behind fun _ =>
        .ite (.behind fun _ => plain_functionStatement) plain_expressionOrLabeled)
    · exact (Steady.lookahead _).leads.bind fun _ =>
        .ite (fun _ => hplain plain_expressionOrLabeled) fun _ =>
        himport.mono (fun s hs => ⟨hs.1, _, escaped, hs.2 ▸ hkind⟩) fun _ _ => .inr
    · exact hplain plain_expressionOrLabeled
  · exact hplain plain_expressionOrLabeled

/-- Every statement that the grammar reads is one of the items. -/
theorem yields_statement (hpattern : Yields (sub .pattern) fun n => ∃ names, Binds n names)
    (hvalue : Yields (sub .assignment) fun n => n.label.isDefaultDeclaration = false) :
    Yields (statement sub position) fun n => ∃ item, Means n item := by
  refine Leads.mono (leads_statement (D := fun _ _ => True) yields_importDeclaration.leads (fun _ => id)
    (Yields.any _) fun decorations => (yields_exportDeclaration hpattern hvalue).leads) (fun _ => id)
    fun n s hn => ?_
  exact hn.elim (fun hplain => ⟨.other, .other hplain.1⟩) id

theorem yields_statementsWithDirectives {stop : Parse Bool}
    (hsub : Yields (sub (.statement .list)) fun n => ∃ item, Means n item) :
    Yields (statementsWithDirectives sub stop) fun items => ∀ n ∈ items, ∃ item, Means n item := by
  refine .bind (Q := fun state : List Node × Bool => ∀ n ∈ state.1, ∃ item, Means n item)
    (.iterate (fun _ hn => absurd hn List.not_mem_nil) ?_)
    fun ⟨items, _⟩ hitems => .pure fun n hn => hitems n (List.mem_reverse.1 hn)
  rintro ⟨items, directives⟩ hitems
  refine .behind fun _ => .ite (.pure hitems) (hsub.bind fun n hn => ?_)
  split
  · exact .pure (List.forall_mem_cons.2 ⟨⟨.other, .other rfl⟩, hitems⟩)
  · exact .pure (List.forall_mem_cons.2 ⟨hn, hitems⟩)

end Statements

theorem yields_program (depth : Nat) :
    Yields (program depth) fun n =>
      n.label = .program ∧ ∃ items, List.Forall₂ Means n.children items := by
  have hstatement : Yields (goal depth (.statement .list)) fun n => ∃ item, Means n item := by
    cases depth with
    | zero => exact .unexpected
    | succ depth =>
      refine yields_statement (binds_of_pattern depth) fun s n t _ hok => ?_
      exact (leads_goal depth s.token.span.start .assignment rfl s n t rfl hok).label_eq
  refine .behind fun t => ?_
  extract_lets behind
  have hbehind : ∀ hashbang, isModuleItem hashbang = false → Yields (behind hashbang) fun n =>
      n.label = .program ∧ ∃ items, List.Forall₂ Means n.children items := by
    refine fun hashbang hplain => (yields_statementsWithDirectives hstatement).bind
      fun items hitems => .behind fun s => .pure ⟨rfl, ?_⟩
    exact exists_forall₂ (List.forall_mem_cons.2 ⟨⟨.other, .other hplain⟩, hitems⟩)
  exact .ite (.bind (Q := fun n => isModuleItem n = false) (.leaf fun _ => rfl) hbehind)
    (.bind (Q := fun n => isModuleItem n = false) (.pure rfl) hbehind)

/-- Each top-level statement of a program that was parsed is one of the items. -/
theorem exists_items {text : List Char} {program : Node} (h : parse text = .ok program) :
    program.label = .program ∧ ∃ items, List.Forall₂ Means program.children items := by
  obtain ⟨-, t, hprogram⟩ := parse_ok h
  exact yields_program _ _ program t trivial hprogram

end ModuleBundler.LoaderForm
