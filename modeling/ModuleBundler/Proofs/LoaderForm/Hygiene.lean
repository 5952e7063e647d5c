import ModuleBundler.Proofs.LoaderForm.Publishing
import ModuleBundler.Proofs.LoaderForm.Requiring

/-!
# Names that loader form makes up

Loader form keeps requested modules in variables and reads them where the source has an imported
name, and it gives a name to a default export that has none.  Its own names do not get into each other's
way, nor in that of the names that it finds outside:

* `nodup_madeUp` — the name of a default export is declared once at most;
* `begins_read` — what is written for an imported name begins with the variable of the item that imports it;
* **`madeUp_of_ofSource`** — so the names that are made up are declared once, hide no name from outside, and
  are what is read (`MadeUp`).

It does not look at the names that the source declares, though, and a scope of the source that
declares a made-up name takes it away from the places in it that read an imported one
(`not_holdersSeen_of_parameter`).  Nothing else does:

* **`readFromOutside_of_ofSource`** — what is written for a reference reads the variable from outside of the
  scopes on the way to the reference, exactly if none of them declares the variable.

The scopes here are those of the source.  That the grammar finds the same ones in what is written is not
shown.
-/

namespace ModuleBundler.LoaderForm

open ModuleBundler.Syntax ModuleBundler.Text

/-! ## Made-up names are different -/

/-- The names that the module around a loader form gives it, or that it takes from the world. -/
def outerNames : List String := ["require", "exports", "Object"]

theorem defaultName_ne_moduleVariable (i : Nat) : defaultName ≠ moduleVariable i :=
  ne_moduleVariable (by decide) i

/-- No made-up name hides a name from outside. -/
theorem notMem_outerNames (i : Nat) :
    moduleVariable i ∉ outerNames ∧ defaultName ∉ outerNames := by
  refine ⟨?_, by decide⟩
  intro hmem
  have hletters : ∀ name ∈ outerNames, name.toList.take 5 ≠ "__dep".toList := by decide
  exact hletters _ hmem (take_moduleVariable i)

/-- The name that loader form makes up for an item. -/
def Item.madeUp? : Item → Option String
  | .default none => some defaultName
  | _ => none

/-- The names that loader form declares by itself: the variables of its header, and the name of a default
export that has none. -/
def madeUpNames (program : Node) (items : List Item) : List String :=
  (loadLines program).filterMap (·.holder) ++ items.filterMap Item.madeUp?

/-- A name is made up for a default export only. -/
theorem eq_defaultName_of_mem_madeUp {items : List Item} {name : String}
    (h : name ∈ items.filterMap Item.madeUp?) :
    name = defaultName ∧ "default" ∈ items.flatMap Item.ownNames := by
  obtain ⟨item, hitem, hname⟩ := List.mem_filterMap.1 h
  unfold Item.madeUp? at hname
  split at hname
  · cases hname
    exact ⟨rfl, List.mem_flatMap.2 ⟨_, hitem, List.mem_singleton_self _⟩⟩
  · cases hname

/-- Of different exported names, one at most is that of a default export. -/
theorem nodup_madeUp {items : List Item} (h : (items.flatMap Item.ownNames).Nodup) :
    (items.filterMap Item.madeUp?).Nodup := by
  induction items with
  | nil => exact List.nodup_nil
  | cons item items ih =>
    rw [List.flatMap_cons] at h
    obtain ⟨-, hrest, hapart⟩ := List.nodup_append.1 h
    rw [List.filterMap_cons]
    split
    · exact ih hrest
    · rename_i name hname
      refine List.nodup_cons.2 ⟨fun hmem => ?_, ih hrest⟩
      have hfirst : name ∈ [item].filterMap Item.madeUp? := by
        rw [List.filterMap_cons_some hname]
        exact List.mem_cons_self
      obtain ⟨-, hown⟩ := eq_defaultName_of_mem_madeUp hfirst
      rw [List.flatMap_singleton] at hown
      exact hapart _ hown _ (eq_defaultName_of_mem_madeUp hmem).2 rfl

/-- What reads a selection of a module begins with the variable of the module. -/
theorem begins_read (i : Nat) (s : Selection) : ∃ rest,
    Begins (s.read (moduleVariable i)).toList (.word (moduleVariable i) false) rest := by
  have hholder : IsName (moduleVariable i) := isName_moduleVariable i
  cases s with
  | all =>
    have hends : NameEnds [] := trivial
    have hbegins := hholder.begins hends
    rw [List.append_nil] at hbegins
    exact ⟨[], hbegins⟩
  | named name =>
    unfold Selection.read readProperty
    dsimp only
    split
    · rw [String.toList_append, String.toList_append, List.append_assoc]
      exact ⟨_, hholder.begins (nameEnds_cons (by decide) (by decide) _)⟩
    · rw [String.toList_append, String.toList_append, String.toList_append, List.append_assoc,
        List.append_assoc]
      exact ⟨_, hholder.begins (nameEnds_cons (by decide) (by decide) _)⟩

/-! ## Names that are made up and read -/

/-- The names that loader form makes up fit together. -/
structure MadeUp (program : Node) (items : List Item) : Prop where
  /-- Each of them is declared once. -/
  nodup : (madeUpNames program items).Nodup
  /-- None of them hides a name from outside. -/
  outer : ∀ name ∈ madeUpNames program items, name ∉ outerNames
  /-- What is written for an imported name begins with one of them: the variable of the item. -/
  read : ∀ i name text, ImportedAs items i name text →
    holderAt items i ∈ madeUpNames program items ∧
      ∃ rest, Begins text.toList (.word (holderAt items i) false) rest

/-- The variable of an item that imports a name is one of them. -/
theorem holderAt_mem_madeUpNames {program : Node} {items : List Item}
    (hitems : List.Forall₂ Means program.children items) {i : Nat} {name text : String}
    (h : ImportedAs items i name text) : holderAt items i ∈ madeUpNames program items := by
  obtain ⟨source, bindings, hitem, b, hb, -, -⟩ := h
  obtain ⟨b', more, rfl⟩ := List.exists_cons_of_ne_nil (List.ne_nil_of_mem hb)
  exact List.mem_append_left _
    (List.mem_filterMap.2 ⟨_, mem_loadLines_of_imports hitems hitem, rfl⟩)

/-- The names that loader form makes up fit together for every source that is accepted. -/
theorem madeUp_of_ofSource {source : String} {form : LoaderForm} (h : ofSource source = .ok form) :
    ∃ program items, checkedProgram source.toList = .ok program ∧
      form = ofProgram source.toList program ∧ List.Forall₂ Means program.children items ∧
        MadeUp program items := by
  obtain ⟨program, items, hprogram, rfl, hitems, -⟩ := exists_items_of_ofSource h
  have hholders := holders_eq hitems
  have hexported : (items.flatMap Item.ownNames).Nodup := by
    have hnodup := nodup_publishedNames hitems (parse_of_checkedProgram hprogram)
    rw [names_publishedNames hitems] at hnodup
    exact (List.nodup_append.1 hnodup).2.1
  have hcases : ∀ name ∈ madeUpNames program items,
      (∃ i, name = moduleVariable i) ∨ name = defaultName := by
    intro name hname
    rcases List.mem_append.1 hname with hholder | hdefault
    · rw [hholders] at hholder
      obtain ⟨i, -, rfl⟩ := List.mem_map.1 hholder
      exact .inl ⟨i, rfl⟩
    · exact .inr (eq_defaultName_of_mem_madeUp hdefault).1
  refine ⟨program, items, hprogram, rfl, hitems, ?_, ?_, ?_⟩
  case refine_1 =>
    refine List.nodup_append.2 ⟨?_, nodup_madeUp hexported, fun a ha b hb => ?_⟩
    · rw [hholders]
      exact List.Nodup.map (fun _ _ => moduleVariable_injective) List.nodup_range
    · rw [hholders] at ha
      obtain ⟨i, -, rfl⟩ := List.mem_map.1 ha
      rw [(eq_defaultName_of_mem_madeUp hb).1]
      exact (defaultName_ne_moduleVariable i).symm
  case refine_2 =>
    intro name hname
    rcases hcases name hname with ⟨i, rfl⟩ | rfl
    · exact (notMem_outerNames i).1
    · exact (notMem_outerNames 0).2
  case refine_3 =>
    intro i name text himported
    refine ⟨holderAt_mem_madeUpNames hitems himported, ?_⟩
    obtain ⟨_, _, _, b, _, _, rfl⟩ := himported
    exact begins_read (keptBefore items i) b.selection

/-- An imported name is exported as the default. -/
def defaultSource : String := "import \x7ba\x7d from './a.js';\nexport default a;\n"

theorem defaultSource_madeUp : ∃ form, ofSource defaultSource = .ok form ∧
    form.requested = ["./a.js"] ∧ form.exported = ["default"] ∧
    ∃ program items, checkedProgram defaultSource.toList = .ok program ∧
      form = ofProgram defaultSource.toList program ∧ List.Forall₂ Means program.children items ∧
        MadeUp program items := by
  have hnames : namesOf defaultSource = some (["./a.js"], ["default"]) := by decide +kernel
  obtain ⟨form, hform, hrequested, hexported⟩ := exists_form_of_namesOf hnames
  exact ⟨form, hform, hrequested, hexported, madeUp_of_ofSource hform⟩

/-! ## Scopes around a reference -/

/-- A text that stands in scopes, and begins with a word, reads this word from outside of them. -/
def ReadsFrom (scopes : List String) (text : String) : Prop :=
  ∀ name rest, Begins text.toList (.word name false) rest → name ∉ scopes

theorem readsFrom_read_iff {scopes : List String} (i : Nat) (s : Selection) :
    ReadsFrom scopes (s.read (moduleVariable i)) ↔ moduleVariable i ∉ scopes := by
  obtain ⟨rest, hbegins⟩ := begins_read i s
  constructor
  · exact fun h => h _ rest hbegins
  · intro h name rest' hname
    obtain ⟨hkind, -⟩ := hname.unique hbegins
    cases hkind
    exact h

/-- What is written for the references to imported names reads the variables of the items from outside of the
scopes that stand around the references. -/
def ReadFromOutside (program : Node) (items : List Item) : Prop :=
  ∀ scopes r i text, program.Refers .plain scopes r → r.name ∉ scopes →
    ImportedAs items i r.name text → ReadsFrom scopes text

/-- In a source that is accepted, imported names are read from outside exactly if no scope around a reference
to one declares the variable of its item; so they are where no scope declares a made-up name. -/
theorem readFromOutside_of_ofSource {source : String} {form : LoaderForm}
    (h : ofSource source = .ok form) :
    ∃ program items, checkedProgram source.toList = .ok program ∧
      form = ofProgram source.toList program ∧ List.Forall₂ Means program.children items ∧
      (ReadFromOutside program items ↔ ∀ scopes r i text, program.Refers .plain scopes r →
        r.name ∉ scopes → ImportedAs items i r.name text → holderAt items i ∉ scopes) ∧
      ((∀ scopes r, program.Refers .plain scopes r → ∀ name ∈ madeUpNames program items,
        name ∉ scopes) → ReadFromOutside program items) := by
  obtain ⟨program, items, hprogram, hform, hitems, -⟩ := exists_items_of_ofSource h
  have hreads : ∀ {scopes i name text}, ImportedAs items i name text →
      (ReadsFrom scopes text ↔ holderAt items i ∉ scopes) := by
    rintro scopes i name text ⟨_, _, _, b, _, _, rfl⟩
    exact readsFrom_read_iff (keptBefore items i) b.selection
  refine ⟨program, items, hprogram, hform, hitems, ?_, fun hnames scopes r i text hr _ himported => ?_⟩
  · exact forall_congr' fun scopes => forall_congr' fun r => forall_congr' fun i =>
      forall_congr' fun text => imp_congr_right fun _ => imp_congr_right fun _ =>
        imp_congr_right hreads
  · exact (hreads himported).2 (hnames scopes r hr _ (holderAt_mem_madeUpNames hitems himported))

/-! ## Places that read a variable -/

/-- The references that are replaced by a text that reads the variable of a request. -/
def readersOf (program : Node) (r : PlacedRequest) : List OpenReference :=
  (program.openReferences .plain []).filter fun reference =>
    r.imports.any fun v => v.name == reference.name

/-- From every place of the loader form of a source that reads the variable of a request for an
imported name, that variable is seen: the loader form has at least as many references to it that no
scope inside it binds. -/
def HoldersSeen (source : String) : Prop :=
  ∀ program, checkedProgram source.toList = .ok program →
    ∃ lowered, parse (ofProgram source.toList program).code.toList = .ok lowered ∧
      ∀ r ∈ requests program, (readersOf program r).length ≤
        (lowered.openReferences .plain []).countP fun reference => reference.name == r.holder

/-- For each request of a text, how many places read its variable, and from how many it is seen, for
a program whose edits come in the order of the text. -/
def holderCounts (text : List Char) : Option (List (Nat × Nat)) :=
  match checkedProgram text with
  | .error _ => none
  | .ok program =>
    if (edits text program).Pairwise (fun a b => Edit.le a b) then
      (parse ((header program).flatMap (fun line => line.toList ++ ['\n'])
          ++ applyInOrder 0 text (edits text program))).toOption.map fun lowered =>
        (requests program).map fun r => ((readersOf program r).length,
          (lowered.openReferences .plain []).countP fun reference => reference.name == r.holder)
    else none

theorem HoldersSeen.counts {source : String} {counts : List (Nat × Nat)} (h : HoldersSeen source)
    (hcounts : holderCounts source.toList = some counts) : ∀ c ∈ counts, c.1 ≤ c.2 := by
  unfold holderCounts at hcounts
  split at hcounts
  · cases hcounts
  rename_i program hprogram
  split at hcounts
  · rename_i hsorted
    obtain ⟨lowered, hlowered, hseen⟩ := h program hprogram
    rw [toList_code_of_sorted hsorted] at hlowered
    rw [hlowered] at hcounts
    cases hcounts
    intro c hc
    obtain ⟨r, hr, rfl⟩ := List.mem_map.1 hc
    exact hseen r hr
  · cases hcounts

/-- A parameter has the name that is made up for the first request, `import {f} from './f.js'`. -/
def shadowingSource : String :=
  "import \x7bf\x7d from './f.js';\nfunction g(__dep0) \x7b\n  return f;\n\x7d\n"

/-- The parameter `__dep0` captures the variable that the body reads for `f`. -/
theorem not_holdersSeen_of_parameter : ¬ HoldersSeen shadowingSource := by
  intro hseen
  have hcounts : holderCounts shadowingSource.toList = some [(1, 0)] := by decide +kernel
  exact absurd (hseen.counts hcounts (1, 0) (List.mem_singleton_self _)) (by decide)

end ModuleBundler.LoaderForm
