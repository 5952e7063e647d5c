import ModuleBundler.Proofs.LoaderForm.Item
import ModuleBundler.Proofs.LoaderForm.Reference
import ModuleBundler.Proofs.LoaderForm.Source
import ModuleBundler.Proofs.Syntax.EarlyError

/-!
# Imported names

A module that is accepted imports each local name once, because a second import of the name is an early
error.  So what stands for an imported name is what the one import of it selects.

* `Means.brings` — the walk for early errors meets the imported names of the items;
* **`nodup_localNames`** — so they are different;
* `exists_items_of_ofSource` — this and the items are what every source gives that is accepted.
-/

namespace ModuleBundler.LoaderForm

open ModuleBundler.Syntax

/-- The local names that an item imports. -/
def Item.localNames : Item → List String
  | .imports _ bindings => bindings.map (·.localName)
  | _ => []

section Walks

variable {up : List Frame} {w : Walk}

theorem boundNames_of_binding {n : Node} {name : String} (h : n.binding? = some name) :
    n.boundNames = [⟨name, n.span⟩] := by
  obtain ⟨label, span, children⟩ := n
  cases label <;> cases h
  rfl

theorem Imports.brings {n : Node} {b : ImportBinding} (h : Imports n b) (hw : w.scopes ≠ []) :
    w.Brings [b.localName] (n.walk up w) := by
  obtain ⟨span, hdeclared⟩ : ∃ span, w.declareOutside n = w.declare .imported ⟨b.localName, span⟩ := by
    cases h with
    | named _ => exact ⟨_, rfl⟩
    | @default _ binding name hname =>
      refine ⟨binding.span, ?_⟩
      show w.declareAll .imported binding.boundNames = _
      rw [boundNames_of_binding hname]
      rfl
    | @all _ binding name hname =>
      refine ⟨binding.span, ?_⟩
      show w.declareAll .imported binding.boundNames = _
      rw [boundNames_of_binding hname]
      rfl
  have hgrown := n.walk_grown up w
  rw [hdeclared] at hgrown
  exact (Walk.brings_declare hw _).trans hgrown.brings

theorem brings_specifiers {specifiers : List Node} {bindings : List ImportBinding}
    (h : List.Forall₂ Imports specifiers bindings) (hw : w.scopes ≠ []) (label : Label)
    (parent : Node) (slot : Nat) :
    w.Brings (bindings.map (·.localName)) (walkAll label parent up slot specifiers w) := by
  induction h generalizing w slot with
  | nil =>
    rw [walkAll]
    exact (Walk.Grown.refl w).brings
  | cons hn _ ih =>
    rw [walkAll]
    have hfirst : w.Brings [_] (Node.walk (⟨label, parent, slot⟩ :: up) _ w) := hn.brings hw
    exact hfirst.trans (ih (hfirst.grown.scopes_ne hw) (slot + 1))

/-- The walk meets the names that an item imports. -/
theorem Means.brings {n : Node} {item : Item} (h : Means n item) (hw : w.scopes ≠ []) :
    w.Brings item.localNames (n.walk up w) := by
  have hother : w.Brings [] (n.walk up w) :=
    ((Walk.grown_declareOutside w n).trans (n.walk_grown up w)).brings
  cases h with
  | @imports clause span specifiers attributes literal source bindings hspecifiers _ _ =>
    -- the specifiers import the names, and the source and its attributes follow
    have hspecified : w.Brings _ (walkAll _ _ up 0 specifiers w) :=
      brings_specifiers hspecifiers hw (.importDecl clause)
        (.mk (.importDecl clause) span (specifiers ++ literal :: attributes)) 0
    have hrest := walkAll_grown (.importDecl clause)
      (.mk (.importDecl clause) span (specifiers ++ literal :: attributes)) up
      (0 + specifiers.length) (literal :: attributes) (walkAll (.importDecl clause)
        (.mk (.importDecl clause) span (specifiers ++ literal :: attributes)) up 0 specifiers w)
    rw [← walkAll_append] at hrest
    have hbrings := hspecified.trans (hrest.trans ⟨keepsEach_refl _, fun hnil =>
      (List.append_eq_nil_iff.1 hnil).2⟩ : Walk.Grown _ (Walk.leave _ up
        (.mk (.importDecl clause) span (specifiers ++ literal :: attributes)))).brings
    rw [List.append_nil] at hbrings
    rw [Node.walk]
    exact hbrings
  | _ => exact hother

theorem brings_items {nodes : List Node} {items : List Item} (h : List.Forall₂ Means nodes items)
    (hw : w.scopes ≠ []) (label : Label) (parent : Node) (slot : Nat) :
    w.Brings (items.flatMap Item.localNames) (walkAll label parent up slot nodes w) := by
  induction h generalizing w slot with
  | nil =>
    rw [walkAll]
    exact (Walk.Grown.refl w).brings
  | cons hn _ ih =>
    rw [walkAll, List.flatMap_cons]
    have hfirst : w.Brings _ (Node.walk (⟨label, parent, slot⟩ :: up) _ w) := hn.brings hw
    exact hfirst.trans (ih (hfirst.grown.scopes_ne hw) (slot + 1))

end Walks

/-- A module that is accepted imports each local name once. -/
theorem nodup_localNames {program : Node} {items : List Item} (hlabel : program.label = .program)
    (h : List.Forall₂ Means program.children items) (hfaults : earlyFaults program = []) :
    (items.flatMap Item.localNames).Nodup := by
  obtain ⟨label, span, children⟩ := program
  cases hlabel
  have hbrings : Walk.Brings ⟨[⟨.module, [], []⟩], []⟩ _ (walkAll _ _ [] 0 children _) :=
    brings_items h (List.cons_ne_nil _ _) .program (.mk .program span children) 0
  refine hbrings.nodup ?_
  have hwalk := (List.append_eq_nil_iff.1 hfaults).1
  rw [List.reverse_eq_nil_iff, Node.walk] at hwalk
  exact (List.append_eq_nil_iff.1 hwalk).2

theorem earlyFaults_of_checkedProgram {text : List Char} {program : Node}
    (h : checkedProgram text = .ok program) : earlyFaults program = [] := by
  have hparse := parse_of_checkedProgram h
  unfold checkedProgram at h
  rw [hparse] at h
  dsimp only [bind, Except.bind] at h
  split at h
  · assumption
  · cases h

/-- The program of a source that is accepted is a list of items, which import different names. -/
theorem exists_items_of_ofSource {source : String} {form : LoaderForm}
    (h : ofSource source = .ok form) : ∃ program items,
      checkedProgram source.toList = .ok program ∧ form = ofProgram source.toList program ∧
        List.Forall₂ Means program.children items ∧ (items.flatMap Item.localNames).Nodup := by
  obtain ⟨program, hprogram, rfl⟩ := exists_program_of_ofSource h
  obtain ⟨hlabel, items, hitems⟩ := exists_items (parse_of_checkedProgram hprogram)
  exact ⟨program, items, hprogram, rfl, hitems,
    nodup_localNames hlabel hitems (earlyFaults_of_checkedProgram hprogram)⟩

/-- The specifiers and the exported names of a source that is accepted. -/
def namesOf (source : String) : Option (List String × List String) :=
  (ofSource source).toOption.map fun form => (form.requested, form.exported)

theorem exists_form_of_namesOf {source : String} {requested exported : List String}
    (h : namesOf source = some (requested, exported)) :
    ∃ form, ofSource source = .ok form ∧ form.requested = requested ∧ form.exported = exported := by
  obtain ⟨form, hform, hnames⟩ := Option.map_eq_some_iff.1 h
  cases hsource : ofSource source with
  | error d =>
    rw [hsource] at hform
    cases hform
  | ok made =>
    rw [hsource] at hform
    cases hform
    exact ⟨form, rfl, congrArg Prod.fst hnames, congrArg Prod.snd hnames⟩

end ModuleBundler.LoaderForm
