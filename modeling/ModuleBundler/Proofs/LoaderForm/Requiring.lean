import ModuleBundler.Proofs.LoaderForm.Placement

/-!
# What is read from where

The lines that load modules, the getters, the lines that forward everything and the places of imported
names are written at different times, and what they have in common is the variables for the modules.
`Requiring` says that they fit together: whatever is read from another module is read from the variable
that is declared for the very item that requests it.

* `loads_eq` — the header loads what the items request, one after the other;
* `getElem?_loads` — the line of an item is found by the count of the items before it;
* **`requiring_of_ofSource`** — the law holds for every source that is accepted.
-/

namespace ModuleBundler.LoaderForm

open ModuleBundler.Syntax ModuleBundler.Text

/-! ## The lines that load -/

/-- An item requests a module. -/
def Item.requests (item : Item) : Bool := item.source?.isSome

/-- What the line of an item loads, if the item requests a module. -/
def Item.load? (holder : String) (item : Item) : Option LoadLine :=
  item.source?.map fun source => ⟨if item.keeps then some holder else none, source⟩

/-- The lines of a header that load modules. -/
def loadLines (program : Node) : List LoadLine := (header program).filterMap loadLine?

/-- Where some of the entries give a value, the value of an entry is found by the count of those before
it. -/
theorem getElem?_flatten_mapIdx {α β : Type} {p : α → Bool} {f : Nat → α → Option β}
    (hp : ∀ i a, (f i a).isSome = p a) {l : List α} {i : Nat} {a : α} (h : l[i]? = some a)
    (ha : p a = true) :
    ((l.mapIdx fun i a => (f i a).toList).flatten)[(l.take i).countP p]? = f i a := by
  induction l generalizing f i with
  | nil => cases h
  | cons b l ih =>
    rw [List.mapIdx_cons, List.flatten_cons]
    cases i with
    | zero =>
      cases h
      obtain ⟨value, hvalue⟩ := Option.isSome_iff_exists.1 ((hp 0 a).trans ha)
      rw [hvalue]
      rfl
    | succ i =>
      have hrest := ih (f := fun i => f (i + 1)) (fun i => hp (i + 1)) (i := i) h
      have hlength : (f 0 b).toList.length = if p b then 1 else 0 := by
        rw [← hp 0 b]
        cases f 0 b <;> rfl
      rw [List.take_succ_cons, List.countP_cons, Nat.add_comm, ← hlength,
        List.getElem?_append_right (Nat.le_add_right _ _), Nat.add_sub_cancel_left, hrest]

/-- The specifiers that are required are the sources that the header loads. -/
theorem sources_eq_loads (program : Node) :
    (requests program).map (·.source) = (loadLines program).map (·.source) := by
  unfold loadLines
  rw [loadLines_header, List.map_map]
  rfl

section Programs

variable {program : Node} {items : List Item} (h : List.Forall₂ Means program.children items)
include h

/-- The header loads what the items request, one after the other. -/
theorem loads_eq : loadLines program =
    (items.mapIdx fun i item => (item.load? (holderAt items i)).toList).flatten := by
  have hflat : loadLines program = (requests program).flatMap fun r => [r.load] := by
    unfold loadLines
    rw [loadLines_header, List.map_eq_flatMap]
  rw [hflat]
  refine flatMap_requests h (f := fun holder item => (item.load? holder).toList)
    fun item span holder holder' hholder => ?_
  rcases item with ⟨source, _ | ⟨b, more⟩⟩ | _ | ⟨source, _ | exported⟩ | _ | _ | _ | _
  all_goals first | rfl | rw [hholder rfl]; rfl

/-- The variable of an item that imports names is declared by the line that loads its source. -/
theorem mem_loadLines_of_imports {i : Nat} {source : String} {b : ImportBinding}
    {bindings : List ImportBinding} (hitem : items[i]? = some (.imports source (b :: bindings))) :
    ⟨some (holderAt items i), source⟩ ∈ loadLines program := by
  rw [loads_eq h]
  obtain ⟨hi, hget⟩ := List.getElem?_eq_some_iff.1 hitem
  refine List.mem_flatten.2 ⟨_, List.mem_mapIdx.2 ⟨i, hi, rfl⟩, ?_⟩
  rw [hget]
  exact List.mem_singleton_self _

/-- The line that loads the source of an item is found by the count of the items before it that request a
module. -/
theorem getElem?_loads {i : Nat} {item : Item} {source : String} (hitem : items[i]? = some item)
    (hsource : item.source? = some source) :
    (loadLines program)[(items.take i).countP Item.requests]? =
      some ⟨if item.keeps then some (holderAt items i) else none, source⟩ := by
  have hrequests : item.requests = true := by
    unfold Item.requests
    rw [hsource]
    rfl
  have hload := getElem?_flatten_mapIdx (f := fun i item => item.load? (holderAt items i))
    (fun _ _ => Option.isSome_map) hitem hrequests
  rw [loads_eq h, hload]
  unfold Item.load?
  rw [hsource]
  rfl

/-- A reference is written over if an item imports its name and no scope around it declares the name. -/
theorem mem_referenceEdits_iff_importedAs (hnames : (items.flatMap Item.localNames).Nodup) {e : Edit} :
    e ∈ referenceEdits program ↔ ∃ r scopes i value, program.Refers .plain scopes r ∧
      r.name ∉ scopes ∧ ImportedAs items i r.name value ∧
        e = ⟨r.span, (referenceText r value).toList⟩ := by
  rw [mem_referenceEdits_iff]
  constructor
  · rintro ⟨r, scopes, value, hrefers, hopen, hvalue, rfl⟩
    obtain ⟨i, hi⟩ := (lookup_imports_iff h hnames).1 hvalue
    exact ⟨r, scopes, i, value, hrefers, hopen, hi, rfl⟩
  · rintro ⟨r, scopes, i, value, hrefers, hopen, hi, rfl⟩
    exact ⟨r, scopes, value, hrefers, hopen, (lookup_imports_iff h hnames).2 ⟨i, hi⟩, rfl⟩

omit h in
theorem countP_keepsModule {nodes : List Node} {items : List Item} (h : List.Forall₂ Means nodes items) :
    nodes.countP keepsModule = items.countP Item.keeps := by
  have hkeeps : ∀ {n item}, Means n item → keepsModule n = item.keeps := by
    intro n item hn
    unfold keepsModule
    rw [hn.requestOf_eq, item.keeps_eq]
    cases item.request? <;> rfl
  induction h with
  | nil => rfl
  | cons hn _ ih => rw [List.countP_cons, List.countP_cons, ih, hkeeps hn]

/-- The variables that the header declares have the next numbers. -/
theorem holders_eq : (loadLines program).filterMap (·.holder) =
    (List.range (items.countP Item.keeps)).map moduleVariable := by
  unfold loadLines
  rw [loadLines_header, holders_load, ← countP_keepsModule h, List.range_eq_range']
  exact holders_requestsFrom 0 program.children

end Programs

/-! ## The law -/

/-- The lines and places of a loader form that have to do with other modules fit together. -/
structure Requiring (text : List Char) (program : Node) (items : List Item) (form : LoaderForm) :
    Prop where
  /-- The specifiers are the sources of the items that request a module, in their order. -/
  requested_eq : form.requested = items.filterMap Item.source?
  /-- The lines of the header come first: the getters, and then the lines of the items, each with the
  variable of the item. -/
  code_eq : form.code = endLines ("\"use strict\";" :: (publishedNames program).map getterLine ++
    (items.mapIdx fun i item => item.lines (holderAt items i)).flatten) ++
      String.ofList (applyEdits text (edits text program))
  /-- There are as many lines that load a module. -/
  length_eq : (loadLines program).length = form.requested.length
  /-- The specifier and the line of an item are found by the count of the items before it that request
  a module; the line declares the variable of the item if the item keeps the module. -/
  place : ∀ i item source, items[i]? = some item → item.source? = some source →
    form.requested[(items.take i).countP Item.requests]? = some source ∧
      (loadLines program)[(items.take i).countP Item.requests]? =
        some ⟨if item.keeps then some (holderAt items i) else none, source⟩
  /-- The variables have the next numbers, in the order of the lines that declare them. -/
  holders_eq : (loadLines program).filterMap (·.holder) =
    (List.range (items.countP Item.keeps)).map moduleVariable
  /-- Each of them is declared once. -/
  holders_nodup : ((loadLines program).filterMap (·.holder)).Nodup
  /-- No variable is shared. -/
  holder_injective : ∀ i j item item', items[i]? = some item → items[j]? = some item' →
    item.keeps = true → item'.keeps = true → holderAt items i = holderAt items j → i = j
  /-- A getter reads the variable of the item that exports from another module, or what stands for a
  name of the module. -/
  getters : ∃ value, (∀ name, StandsFor items name (value name)) ∧ publishedNames program =
    (items.mapIdx fun i item => item.forwarded (holderAt items i)).flatten ++
      items.flatMap (Item.published value)
  /-- One item imports a name, and so one text stands for it. -/
  imported : ∀ i j name value value', ImportedAs items i name value →
    ImportedAs items j name value' → i = j ∧ value = value'
  /-- A reference is written over if no scope on the way to it declares its name and an item imports the
  name, and what is written reads the variable of that item. -/
  references : ∀ e, e ∈ referenceEdits program ↔ ∃ r scopes i value,
    program.Refers .plain scopes r ∧ r.name ∉ scopes ∧ ImportedAs items i r.name value ∧
      e = ⟨r.span, (referenceText r value).toList⟩

/-- In the loader form of every source that is accepted, whatever is read from another module is read
from the variable of the item that requests it. -/
theorem requiring_of_ofSource {source : String} {form : LoaderForm}
    (h : ofSource source = .ok form) : ∃ program items,
      checkedProgram source.toList = .ok program ∧ form = ofProgram source.toList program ∧
        List.Forall₂ Means program.children items ∧ Requiring source.toList program items form := by
  obtain ⟨program, items, hprogram, rfl, hitems, hnames⟩ := exists_items_of_ofSource h
  have hsources : (ofProgram source.toList program).requested = (loadLines program).map (·.source) :=
    sources_eq_loads program
  refine ⟨program, items, hprogram, rfl, hitems, sources_eq hitems, ?_, ?_, ?_,
    holders_eq hitems, ?_, ?_, ⟨_, standsFor_lookup hitems hnames, publishedNames_eq hitems⟩, ?_, ?_⟩
  case refine_1 =>
    rw [← lines_eq hitems]
    rfl
  case refine_2 => rw [hsources, List.length_map]
  case refine_3 =>
    intro i item specifier hitem hspecifier
    have hload := getElem?_loads hitems hitem hspecifier
    refine ⟨?_, hload⟩
    rw [hsources, List.getElem?_map, hload]
    rfl
  case refine_4 =>
    unfold loadLines
    rw [loadLines_header, holders_load]
    exact nodup_holders program
  case refine_5 =>
    intro i j item item' hi hj hkeeps hkeeps' hsame
    exact holderAt_injective hi hj hkeeps hkeeps' hsame
  case refine_6 =>
    intro i j name value value' hi hj
    exact hi.unique hnames hj
  case refine_7 =>
    intro e
    exact mem_referenceEdits_iff_importedAs hitems hnames

/-- A statement without a variable stands before two that have one: `import './b.js'`. -/
def mixedSource : String :=
  "import './b.js';\nexport * from './a.js';\nimport x from './a.js';\nexport \x7bx\x7d;\nx();\n"

theorem mixedSource_requiring : ∃ form, ofSource mixedSource = .ok form ∧
    form.requested = ["./b.js", "./a.js", "./a.js"] ∧ form.exported = ["x"] ∧
    ∃ program items, checkedProgram mixedSource.toList = .ok program ∧
      form = ofProgram mixedSource.toList program ∧ List.Forall₂ Means program.children items ∧
        Requiring mixedSource.toList program items form := by
  have hnames : namesOf mixedSource = some (["./b.js", "./a.js", "./a.js"], ["x"]) := by
    decide +kernel
  obtain ⟨form, hform, hrequested, hexported⟩ := exists_form_of_namesOf hnames
  exact ⟨form, hform, hrequested, hexported, requiring_of_ofSource hform⟩

end ModuleBundler.LoaderForm
