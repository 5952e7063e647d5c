import ModuleBundler.Proofs.LoaderForm.Imported

/-!
# Items in their places

Loader form goes through the statements of a program and counts those that keep a module in a variable.
Said of the items of the program, every item has the variable whose number is the count of the items
before it that keep a module (`holderAt`), and what loader form collects from the requests is what the
items give with these variables, one after the other.

* `Means.requestOf_eq` and `Means.localExports_eq` — what a statement gives follows from its item;
* **`flatMap_requests`** — what all requests of a program give follows from the items;
* `imports_eq` and `publishedNames_eq` — so do the imported and the exported names, and
  **`lookup_imports_iff`** says what stands for an imported name.
-/

namespace ModuleBundler.LoaderForm

open ModuleBundler.Syntax ModuleBundler.Text

/-! ## What an item gives -/

namespace Item

/-- The source that an item requests. -/
def source? : Item → Option String
  | .imports source _ | .reexports source _ | .reexportsAll source _ => some source
  | _ => none

/-- The module that an item requests is kept in a variable: every one, but that of an import without
bindings. -/
def keeps : Item → Bool
  | .imports _ bindings => !bindings.isEmpty
  | .reexports .. | .reexportsAll .. => true
  | _ => false

/-- What an item asks of another module, and which. -/
def request? : Item → Option (String × Request)
  | .imports source [] => some (source, .load)
  | .imports source (b :: more) => some (source, .bind (b :: more))
  | .reexports source names => some (source, .reexport names)
  | .reexportsAll source (some exported) => some (source, .reexportAs exported)
  | .reexportsAll source none => some (source, .reexportAll)
  | _ => none

/-- The imported names of an item, and what stands for each, with the module in `holder`. -/
def imported (holder : String) : Item → List NamedValue
  | .imports _ bindings => bindings.map fun b => ⟨b.localName, b.selection.read holder⟩
  | _ => []

/-- The names that an item exports from the module in `holder`, and what each reads. -/
def forwarded (holder : String) : Item → List NamedValue
  | .reexports _ names => names.map fun p => ⟨p.2, readProperty holder p.1⟩
  | .reexportsAll _ (some exported) => [⟨exported, holder⟩]
  | _ => []

/-- The names that an item exports from its own module, and what each reads; `value` is what stands
for a name of the module. -/
def published (value : String → String) : Item → List NamedValue
  | .lists names => names.map fun p => ⟨p.2, value p.1⟩
  | .declares names => names.map fun name => ⟨name, name⟩
  | .default name => [⟨"default", name.getD defaultName⟩]
  | _ => []

/-- The lines that load the module that an item requests. -/
def lines (holder : String) : Item → List String
  | .imports source [] => [requireCall source]
  | .imports source _ | .reexports source _ | .reexportsAll source (some _) =>
    ["var " ++ holder ++ " = " ++ requireCall source]
  | .reexportsAll source none =>
    ["var " ++ holder ++ " = " ++ requireCall source, forwardAll holder]
  | _ => []

end Item

/-- How many of the items before the `i`-th one keep a module. -/
def keptBefore (items : List Item) (i : Nat) : Nat := (items.take i).countP Item.keeps

/-- The variable for the module that the `i`-th item requests. -/
def holderAt (items : List Item) (i : Nat) : String := moduleVariable (keptBefore items i)

/-! ## What a statement gives -/

theorem filterMap_eq_of_forall₂ {α β : Type} {R : α → β → Prop} {f : α → Option β}
    (hf : ∀ a b, R a b → f a = some b) {l : List α} {l' : List β} (h : List.Forall₂ R l l') :
    l.filterMap f = l' := by
  induction h with
  | nil => rfl
  | cons hab _ ih => rw [List.filterMap_cons_some (hf _ _ hab), ih]

section Statements

variable {n literal : Node} {source : String}

theorem importBinding_of_imports {b : ImportBinding} (h : Imports n b) :
    importBinding n = some b := by
  cases h with
  | named hname =>
    simp only [importBinding, Node.label, Node.child, Node.children, List.getD_cons_zero, hname]
    rfl
  | default hname | all hname =>
    simp only [importBinding, Node.label, Node.child, Node.children, List.getD_cons_zero, hname]
    rfl

theorem exportPair_of_exports {pair : String × String} (h : Exports n pair) :
    exportPair n = some pair := by
  cases h with
  | specifier hname hexported =>
    simp only [exportPair, Node.label, Node.child, Node.children, List.getD_cons_zero,
      List.getD_cons_succ, hname, hexported]

theorem sourceOf_append {specifiers rest : List Node}
    (h : ∀ n ∈ specifiers, ∀ text wellFormed raw, n.label ≠ .string text wellFormed raw)
    (hliteral : IsLiteral literal source) :
    sourceOf (specifiers ++ literal :: rest) = some source := by
  obtain ⟨wellFormed, raw, hlabel⟩ := hliteral
  induction specifiers with
  | nil => simp only [sourceOf, List.nil_append, List.findSome?_cons, hlabel]
  | cons m specifiers ih =>
    have hm := h m List.mem_cons_self
    have hrest := ih fun m hm => h m (List.mem_cons_of_mem _ hm)
    unfold sourceOf at hrest ⊢
    rw [List.cons_append, List.findSome?_cons]
    split
    · rename_i hsome
      split at hsome
      · rename_i hstring
        exact absurd hstring (hm _ _ _)
      · cases hsome
    · exact hrest

theorem sourceOf_eq_none {specifiers : List Node}
    (h : ∀ n ∈ specifiers, ∀ text wellFormed raw, n.label ≠ .string text wellFormed raw) :
    sourceOf specifiers = none := by
  refine List.findSome?_eq_none_iff.2 fun n hn => ?_
  split
  · rename_i hstring
    exact absurd hstring (h n hn _ _ _)
  · rfl

theorem Imports.ne_string {b : ImportBinding} (h : Imports n b) (text : String) (wellFormed : Bool)
    (raw : String) : n.label ≠ .string text wellFormed raw := by
  cases h <;> exact fun heq => by cases heq

theorem Exports.ne_string {pair : String × String} (h : Exports n pair) (text : String)
    (wellFormed : Bool) (raw : String) : n.label ≠ .string text wellFormed raw := by
  cases h
  exact fun heq => by cases heq

theorem forall_of_forall₂ {α β : Type} {R : α → β → Prop} {P : α → Prop} (hP : ∀ a b, R a b → P a)
    {l : List α} {l' : List β} (h : List.Forall₂ R l l') : ∀ a ∈ l, P a := by
  induction h with
  | nil => exact fun _ ha => absurd ha List.not_mem_nil
  | cons hab _ ih => exact List.forall_mem_cons.2 ⟨hP _ _ hab, ih⟩

/-- The pairs of an export list do not depend on what follows the specifiers. -/
theorem filterMap_exportPair {specifiers attributes : List Node} {names : List (String × String)}
    (h : List.Forall₂ Exports specifiers names) (hliteral : IsLiteral literal source)
    (hattributes : ∀ n ∈ attributes, n.label = .importAttribute) :
    (specifiers ++ literal :: attributes).filterMap exportPair = names := by
  obtain ⟨wellFormed, raw, hlabel⟩ := hliteral
  have hnone : (literal :: attributes).filterMap exportPair = [] := by
    refine List.filterMap_eq_nil_iff.2 (List.forall_mem_cons.2 ⟨?_, fun n hn => ?_⟩)
    · simp only [exportPair, hlabel]
    · simp only [exportPair, hattributes n hn]
  rw [List.filterMap_append, hnone, List.append_nil,
    filterMap_eq_of_forall₂ (fun _ _ h => exportPair_of_exports h) h]

theorem filterMap_importBinding {specifiers attributes : List Node} {bindings : List ImportBinding}
    (h : List.Forall₂ Imports specifiers bindings) (hliteral : IsLiteral literal source)
    (hattributes : ∀ n ∈ attributes, n.label = .importAttribute) :
    (specifiers ++ literal :: attributes).filterMap importBinding = bindings := by
  obtain ⟨wellFormed, raw, hlabel⟩ := hliteral
  have hnone : (literal :: attributes).filterMap importBinding = [] := by
    refine List.filterMap_eq_nil_iff.2 (List.forall_mem_cons.2 ⟨?_, fun n hn => ?_⟩)
    · simp only [importBinding, hlabel]
    · simp only [importBinding, hattributes n hn]
  rw [List.filterMap_append, hnone, List.append_nil,
    filterMap_eq_of_forall₂ (fun _ _ h => importBinding_of_imports h) h]

/-- What a statement requests is what its item does. -/
theorem Means.requestOf_eq {item : Item} (h : Means n item) : requestOf n = item.request? := by
  cases h with
  | @imports _ _ specifiers attributes _ source bindings hbindings hliteral hattributes =>
    simp only [requestOf, Node.label, Node.children,
      sourceOf_append (forall_of_forall₂ (fun _ _ h => h.ne_string) hbindings) hliteral,
      filterMap_importBinding hbindings hliteral hattributes, Option.map_some]
    cases bindings <;> rfl
  | reexports hnames hliteral hattributes =>
    simp only [requestOf, Node.label, Node.children,
      sourceOf_append (forall_of_forall₂ (fun _ _ h => h.ne_string) hnames) hliteral,
      filterMap_exportPair hnames hliteral hattributes, Option.map_some]
    rfl
  | @reexportsAs _ attributes _ literal source exported hname hliteral =>
    have hsource : sourceOf ([] ++ literal :: attributes) = some source :=
      sourceOf_append (fun _ hn => absurd hn List.not_mem_nil) hliteral
    simp only [requestOf, Node.label, Node.children, Node.child, List.drop_succ_cons,
      List.drop_zero, List.getD_cons_zero, hname]
    rw [List.nil_append] at hsource
    rw [hsource]
    rfl
  | @reexportsAll _ attributes literal source hliteral =>
    have hsource : sourceOf ([] ++ literal :: attributes) = some source :=
      sourceOf_append (fun _ hn => absurd hn List.not_mem_nil) hliteral
    simp only [requestOf, Node.label, Node.children, Node.child, List.drop_succ_cons,
      List.drop_zero, List.getD_cons_zero]
    rw [List.nil_append] at hsource
    rw [hsource]
    rfl
  | lists hnames =>
    simp only [requestOf, Node.label, Node.children,
      sourceOf_eq_none (forall_of_forall₂ (fun _ _ h => h.ne_string) hnames), Option.map_none]
    rfl
  | declaresVariables _ => rfl
  | declaresFunction _ => rfl
  | declaresClass _ => rfl
  | default _ => rfl
  | other hplain => exact requestOf_of_plain hplain

/-- An import and an export of everything request something. -/
theorem Means.requestOf_ne_none {item : Item} (h : Means n item)
    (hlabel : (∃ clause, n.label = .importDecl clause) ∨ n.label = .exportAll) :
    requestOf n ≠ none := by
  have hrequest : item.request? ≠ none := by
    cases h with
    | @imports _ _ _ _ _ _ bindings => cases bindings <;> exact Option.some_ne_none _
    | reexportsAs | reexportsAll => exact Option.some_ne_none _
    | other hplain =>
      rcases hlabel with ⟨clause, hlabel⟩ | hlabel <;> rw [isModuleItem, hlabel] at hplain <;>
        cases hplain
    | _ => rcases hlabel with ⟨clause, hlabel⟩ | hlabel <;> cases hlabel
  rw [h.requestOf_eq]
  exact hrequest

/-- A default export reads the name that it declares, or the one that is made up. -/
theorem DefaultNamed.published_eq {name : Option String} (h : DefaultNamed n name) :
    (match DefaultForm.of n with
      | .declared name => [⟨"default", name⟩]
      | _ => [⟨"default", defaultName⟩] : List NamedValue) =
      [⟨"default", name.getD defaultName⟩] := by
  cases h with
  | @function _ _ _ own _ | @classDef _ own _ =>
    cases hown : own.binding? with
    | none => simp only [DefaultForm.of, Node.label, Node.child, Node.children, List.getD_cons_zero,
        hown, Option.getD_none]
    | some text => simp only [DefaultForm.of, Node.label, Node.child, Node.children,
        List.getD_cons_zero, hown, Option.getD_some]
  | value hlabel =>
    have hform : DefaultForm.of n = .value := by
      unfold DefaultForm.of
      split <;> simp_all [Label.isDefaultDeclaration]
    rw [hform, Option.getD_none]

/-- The names that a statement exports from its own module are those of its item. -/
theorem Means.localExports_eq {item : Item} (h : Means n item) (imports : List NamedValue) :
    localExports imports n = item.published fun name => (lookup imports name).getD name := by
  have hnames : ∀ {bound : List BoundName} {names : List String}, bound.map (·.name) = names →
      (bound.map fun b => (⟨b.name, b.name⟩ : NamedValue)) = names.map fun name => ⟨name, name⟩ := by
    rintro bound _ rfl
    rw [List.map_map]
    rfl
  cases h with
  | imports _ _ _ => rfl
  | reexports hnames hliteral hattributes =>
    simp only [localExports, Node.label, Node.children,
      sourceOf_append (forall_of_forall₂ (fun _ _ h => h.ne_string) hnames) hliteral]
    rfl
  | reexportsAs _ _ => rfl
  | reexportsAll _ => rfl
  | lists hnames =>
    simp only [localExports, Node.label, Node.children,
      sourceOf_eq_none (forall_of_forall₂ (fun _ _ h => h.ne_string) hnames),
      filterMap_eq_of_forall₂ (fun _ _ h => exportPair_of_exports h) hnames]
    rfl
  | declaresVariables hbinds => exact hnames hbinds.bound_eq
  | declaresFunction hname => exact hnames hname
  | declaresClass hname => exact hnames hname
  | default hname =>
    exact hname.published_eq
  | other hplain => exact localExports_of_plain imports hplain

end Statements

/-! ## What the items give, one after the other -/

theorem Item.source?_eq (item : Item) : item.source? = item.request?.map (·.1) := by
  cases item with
  | imports source bindings => cases bindings <;> rfl
  | reexportsAll source exported => cases exported <;> rfl
  | _ => rfl

theorem Item.keeps_eq (item : Item) :
    item.keeps = (item.request?.map fun r => r.2.needsVariable).getD false := by
  cases item with
  | imports source bindings => cases bindings <;> rfl
  | reexportsAll source exported => cases exported <;> rfl
  | _ => rfl

theorem keptBefore_cons (item : Item) (items : List Item) (i : Nat) :
    keptBefore (item :: items) (i + 1) = (if item.keeps then 1 else 0) + keptBefore items i := by
  unfold keptBefore
  rw [List.take_succ_cons, List.countP_cons, Nat.add_comm]

section Requests

variable {β : Type} {g : PlacedRequest → List β} {f : String → Item → List β}

/-- What is collected from the requests follows from the items, if it does from each of them; a
request that keeps no module has no variable. -/
theorem flatMap_requestsFrom
    (hg : ∀ (item : Item) span holder holder', (item.keeps = true → holder' = holder) →
      (item.request?.elim [] fun r => g ⟨span, r.1, r.2, holder'⟩) = f holder item)
    {nodes : List Node} {items : List Item} (h : List.Forall₂ Means nodes items) (next : Nat) :
    (requestsFrom next nodes).flatMap g =
      (items.mapIdx fun i item => f (moduleVariable (next + keptBefore items i)) item).flatten := by
  induction h generalizing next with
  | nil => rfl
  | @cons n item nodes items hn _ ih =>
    have hnext : ∀ i, next + keptBefore (item :: items) (i + 1) =
        next + (if item.keeps then 1 else 0) + keptBefore items i := by
      intro i
      rw [keptBefore_cons, Nat.add_assoc]
    rw [requestsFrom, hn.requestOf_eq, List.mapIdx_cons, List.flatten_cons]
    simp only [hnext]
    rw [← ih, item.keeps_eq]
    have hfirst := hg item n.span (moduleVariable next)
    rw [item.keeps_eq] at hfirst
    cases hrequest : item.request? with
    | none =>
      rw [hrequest] at hfirst
      have hnil : f (moduleVariable next) item = [] := (hfirst _ fun _ => rfl).symm
      show _ = f (moduleVariable next) item ++ _
      rw [hnil]
      rfl
    | some request =>
      rw [hrequest] at hfirst
      simp only [Option.map_some, Option.getD_some, Option.elim_some] at hfirst ⊢
      split
      · rw [List.flatMap_cons, hfirst _ fun _ => rfl]
        rfl
      · rename_i hneeded
        rw [List.flatMap_cons, hfirst _ fun h => absurd h hneeded]
        rfl

theorem sources_requestsFrom {nodes : List Node} {items : List Item}
    (h : List.Forall₂ Means nodes items) (next : Nat) :
    (requestsFrom next nodes).map (·.source) = items.filterMap Item.source? := by
  induction h generalizing next with
  | nil => rfl
  | @cons n item nodes items hn _ ih =>
    rw [requestsFrom, hn.requestOf_eq, List.filterMap_cons, item.source?_eq]
    cases item.request? with
    | none => exact ih next
    | some request =>
      dsimp only [Option.map_some]
      split <;> rw [List.map_cons, ih]

end Requests

section Programs

variable {program : Node} {items : List Item} (h : List.Forall₂ Means program.children items)
include h

/-- What is collected from the requests of a program follows from its items. -/
theorem flatMap_requests {β : Type} {g : PlacedRequest → List β} {f : String → Item → List β}
    (hg : ∀ (item : Item) span holder holder', (item.keeps = true → holder' = holder) →
      (item.request?.elim [] fun r => g ⟨span, r.1, r.2, holder'⟩) = f holder item) :
    (requests program).flatMap g =
      (items.mapIdx fun i item => f (holderAt items i) item).flatten := by
  have hfrom := flatMap_requestsFrom hg h 0
  simp only [Nat.zero_add] at hfrom
  exact hfrom

/-- The specifiers that are required are the sources of the items. -/
theorem sources_eq : (requests program).map (·.source) = items.filterMap Item.source? :=
  sources_requestsFrom h 0

theorem lines_eq : (requests program).flatMap PlacedRequest.lines =
    (items.mapIdx fun i item => item.lines (holderAt items i)).flatten := by
  refine flatMap_requests h (f := Item.lines) fun item span holder holder' hholder => ?_
  rcases item with ⟨source, _ | ⟨b, more⟩⟩ | _ | ⟨source, _ | exported⟩ | _ | _ | _ | _
  all_goals first | rfl | rw [hholder rfl]; rfl

theorem imports_eq : imports program =
    (items.mapIdx fun i item => item.imported (holderAt items i)).flatten := by
  refine flatMap_requests h (f := Item.imported) fun item span holder holder' hholder => ?_
  rcases item with ⟨source, _ | ⟨b, more⟩⟩ | _ | ⟨source, _ | exported⟩ | _ | _ | _ | _
  all_goals first | rfl | rw [hholder rfl]; rfl

theorem exports_eq : (requests program).flatMap PlacedRequest.exports =
    (items.mapIdx fun i item => item.forwarded (holderAt items i)).flatten := by
  refine flatMap_requests h (f := Item.forwarded) fun item span holder holder' hholder => ?_
  rcases item with ⟨source, _ | ⟨b, more⟩⟩ | _ | ⟨source, _ | exported⟩ | _ | _ | _ | _
  all_goals first | rfl | rw [hholder rfl]; rfl

/-- The names that a program exports: first those that its items export from other modules, then those
that they export from the module itself. -/
theorem publishedNames_eq : publishedNames program =
    (items.mapIdx fun i item => item.forwarded (holderAt items i)).flatten ++
      items.flatMap (Item.published fun name => (lookup (imports program) name).getD name) := by
  have hown : ∀ {nodes items}, List.Forall₂ Means nodes items →
      nodes.flatMap (localExports (imports program)) =
        items.flatMap (Item.published fun name => (lookup (imports program) name).getD name) := by
    intro nodes items h
    induction h with
    | nil => rfl
    | cons hn _ ih => rw [List.flatMap_cons, List.flatMap_cons, hn.localExports_eq, ih]
  unfold publishedNames
  rw [exports_eq h, hown h]

end Programs

/-! ## What stands for an imported name -/

theorem map_flatten_mapIdx {α β γ : Type} {f : Nat → α → List β} {g : β → γ} {k : α → List γ}
    (h : ∀ i a, (f i a).map g = k a) (l : List α) :
    ((l.mapIdx f).flatten).map g = l.flatMap k := by
  induction l generalizing f with
  | nil => rfl
  | cons a l ih =>
    rw [List.mapIdx_cons, List.flatten_cons, List.map_append, h, ih fun i => h (i + 1),
      List.flatMap_cons]

/-- Where names are different, each stands for the value of its entry. -/
theorem lookup_eq_some_iff {values : List NamedValue} (h : (values.map (·.name)).Nodup)
    {name text : String} : lookup values name = some text ↔ ⟨name, text⟩ ∈ values := by
  have hsound : ∀ {text}, lookup values name = some text → ⟨name, text⟩ ∈ values := by
    intro text hlookup
    unfold lookup at hlookup
    obtain ⟨v, hfind, rfl⟩ := Option.map_eq_some_iff.1 hlookup
    have hname : v.name = name := by simpa using List.find?_some hfind
    rw [← hname]
    exact List.mem_reverse.1 (List.mem_of_find?_eq_some hfind)
  refine ⟨hsound, fun hmem => ?_⟩
  obtain ⟨found, hfound⟩ : ∃ found, lookup values name = some found := by
    rw [← Option.isSome_iff_exists]
    unfold lookup
    rw [Option.isSome_map, List.find?_isSome]
    exact ⟨_, List.mem_reverse.2 hmem, beq_self_eq_true _⟩
  have hsame := List.inj_on_of_nodup_map h (hsound hfound) hmem rfl
  rw [hfound, (NamedValue.mk.inj hsame).2]

/-- The `i`-th item imports a name, and a text reads what is imported from the variable of the item. -/
def ImportedAs (items : List Item) (i : Nat) (name text : String) : Prop :=
  ∃ source bindings, items[i]? = some (.imports source bindings) ∧
    ∃ b ∈ bindings, b.localName = name ∧ b.selection.read (holderAt items i) = text

theorem mem_imported_iff {items : List Item} {v : NamedValue} :
    v ∈ (items.mapIdx fun i item => item.imported (holderAt items i)).flatten ↔
      ∃ i, ImportedAs items i v.name v.value := by
  simp only [List.mem_flatten, List.mem_mapIdx]
  constructor
  · rintro ⟨_, ⟨i, hi, rfl⟩, hv⟩
    cases hitem : items[i] with
    | imports source bindings =>
      rw [hitem] at hv
      obtain ⟨b, hb, rfl⟩ := List.mem_map.1 hv
      exact ⟨i, source, bindings, by rw [List.getElem?_eq_getElem hi, hitem], b, hb, rfl, rfl⟩
    | _ =>
      rw [hitem] at hv
      cases hv
  · rintro ⟨i, source, bindings, hitem, b, hb, hname, hvalue⟩
    obtain ⟨hi, hget⟩ := List.getElem?_eq_some_iff.1 hitem
    refine ⟨_, ⟨i, hi, rfl⟩, ?_⟩
    rw [hget]
    exact List.mem_map.2 ⟨b, hb, by rw [hname, hvalue]⟩

/-- A local name is imported by one item, and what stands for it reads what that item imports under
the name. -/
theorem lookup_imports_iff {program : Node} {items : List Item}
    (h : List.Forall₂ Means program.children items) (hnames : (items.flatMap Item.localNames).Nodup)
    {name text : String} :
    lookup (imports program) name = some text ↔ ∃ i, ImportedAs items i name text := by
  have hmap : (imports program).map (·.name) = items.flatMap Item.localNames := by
    rw [imports_eq h]
    refine map_flatten_mapIdx (fun i item => ?_) items
    cases item with
    | imports source bindings => exact List.map_map
    | _ => rfl
  rw [lookup_eq_some_iff (hmap ▸ hnames), imports_eq h, mem_imported_iff]

/-- One item imports a local name, and one text reads it. -/
theorem ImportedAs.unique {items : List Item} (hnames : (items.flatMap Item.localNames).Nodup)
    {i j : Nat} {name text other : String} (hi : ImportedAs items i name text)
    (hj : ImportedAs items j name other) : i = j ∧ text = other := by
  obtain ⟨source, bindings, hitem, b, hb, hname, rfl⟩ := hi
  obtain ⟨source', bindings', hitem', b', hb', hname', rfl⟩ := hj
  obtain ⟨hlt, hget⟩ := List.getElem?_eq_some_iff.1 hitem
  obtain ⟨hlt', hget'⟩ := List.getElem?_eq_some_iff.1 hitem'
  obtain ⟨heach, hapart⟩ := List.nodup_flatMap.1 hnames
  have hlocal : name ∈ (items[i]).localNames := hget ▸ List.mem_map.2 ⟨b, hb, hname⟩
  have hlocal' : name ∈ (items[j]).localNames := hget' ▸ List.mem_map.2 ⟨b', hb', hname'⟩
  have hdisjoint := List.pairwise_iff_getElem.1 hapart
  rcases Nat.lt_trichotomy i j with hij | rfl | hji
  · exact absurd hlocal' (hdisjoint i j hlt hlt' hij hlocal)
  · cases hget.symm.trans hget'
    have hnodup : (bindings.map (·.localName)).Nodup :=
      heach (.imports source bindings) (List.mem_of_getElem? hitem)
    rw [List.inj_on_of_nodup_map hnodup hb hb' (hname.trans hname'.symm)]
    exact ⟨rfl, rfl⟩
  · exact absurd hlocal (hdisjoint j i hlt' hlt hji hlocal')

/-- A text stands for a name of the module: what reads it, if an item imports the name, and else the
name itself. -/
def StandsFor (items : List Item) (name text : String) : Prop :=
  (∃ i, ImportedAs items i name text) ∨ ((∀ i value, ¬ ImportedAs items i name value) ∧ text = name)

theorem standsFor_lookup {program : Node} {items : List Item}
    (h : List.Forall₂ Means program.children items) (hnames : (items.flatMap Item.localNames).Nodup)
    (name : String) : StandsFor items name ((lookup (imports program) name).getD name) := by
  cases hlookup : lookup (imports program) name with
  | some text => exact .inl ((lookup_imports_iff h hnames).1 hlookup)
  | none =>
    refine .inr ⟨fun i value hvalue => ?_, rfl⟩
    rw [(lookup_imports_iff h hnames).2 ⟨i, hvalue⟩] at hlookup
    cases hlookup

/-! ## The variables of items -/

theorem keptBefore_lt {items : List Item} {i j : Nat} {item : Item} (hitem : items[i]? = some item)
    (hkeeps : item.keeps = true) (h : i < j) : keptBefore items i < keptBefore items j := by
  have htake : (items.take (i + 1)).countP Item.keeps = keptBefore items i + 1 := by
    rw [List.take_add_one, hitem, List.countP_append, Option.toList_some,
      List.countP_cons_of_pos hkeeps, List.countP_nil]
    rfl
  rw [← Nat.succ_le_iff, Nat.succ_eq_add_one, ← htake]
  exact (List.take_sublist_take_left h).countP_le

/-- Items that keep a module have different variables. -/
theorem holderAt_injective {items : List Item} {i j : Nat} {item item' : Item}
    (hi : items[i]? = some item) (hj : items[j]? = some item') (hkeeps : item.keeps = true)
    (hkeeps' : item'.keeps = true) (h : holderAt items i = holderAt items j) : i = j := by
  have hcount := moduleVariable_injective h
  rcases Nat.lt_trichotomy i j with hij | rfl | hji
  · exact absurd hcount (Nat.ne_of_lt (keptBefore_lt hi hkeeps hij))
  · rfl
  · exact absurd hcount.symm (Nat.ne_of_lt (keptBefore_lt hj hkeeps' hji))

end ModuleBundler.LoaderForm
