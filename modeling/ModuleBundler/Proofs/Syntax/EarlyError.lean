import Mathlib.Data.List.Forall2
import ModuleBundler.Syntax.EarlyError

/-!
# What the walk for early errors remembers

The walk over a program declares names in scopes and notes faults.  It forgets neither: behind every
node, each scope that was open before it is open again and knows all imported names that it knew
(`Scope.Keeps`), and no fault is taken back.

* **`Node.walk_grown`** — so the walk over a node makes a `Walk` grow (`Walk.Grown`);
* `Walk.Brings` — a part of the walk imports names, if it ends without a fault: different ones, which
  were not imported before.  The declaration of an imported name is such a part (`brings_declare`), and
  parts can be put together (`Brings.trans`).
-/

namespace ModuleBundler.Syntax

/-! ## Imported names of a scope -/

/-- Among declared names, an imported one. -/
def HasImported (names : List Declared) (name : String) : Prop :=
  ∃ d, findName name names = some d ∧ Declares.imported ∈ d.by_

theorem findName_cons (name : String) (d : Declared) (names : List Declared) :
    findName name (d :: names) = if d.name == name then some d else findName name names := by
  unfold findName
  rw [List.find?_cons]
  cases d.name == name <;> rfl

theorem HasImported.addName {names : List Declared} {name : String} (h : HasImported names name)
    (d : Declared) : HasImported (addName d names) name := by
  induction names with
  | nil =>
    obtain ⟨e, hfind, -⟩ := h
    cases hfind
  | cons e rest ih =>
    obtain ⟨found, hfind, himported⟩ := h
    rw [findName_cons] at hfind
    unfold Syntax.addName
    by_cases hname : (e.name == name) = true
    · rw [if_pos hname] at hfind
      cases hfind
      split
      · exact ⟨{ e with by_ := d.by_ ++ e.by_ }, by rw [findName_cons, if_pos hname],
          List.mem_append_right _ himported⟩
      · exact ⟨e, by rw [findName_cons, if_pos hname], himported⟩
    · rw [if_neg hname] at hfind
      split
      · exact ⟨found, by rw [findName_cons, if_neg hname, hfind], himported⟩
      · obtain ⟨more, hmore, hmem⟩ := ih ⟨found, hfind, himported⟩
        exact ⟨more, by rw [findName_cons, if_neg hname, hmore], hmem⟩

/-- A name that is declared as an imported one is one. -/
theorem hasImported_addName (names : List Declared) (name : String) (offset : Nat) :
    HasImported (addName ⟨name, [.imported], offset⟩ names) name := by
  induction names with
  | nil => exact ⟨_, by rw [addName, findName_cons, if_pos (beq_self_eq_true name)], by simp⟩
  | cons e rest ih =>
    unfold addName
    split
    · rename_i hname
      exact ⟨_, by rw [findName_cons, if_pos hname], List.mem_cons_self⟩
    · rename_i hname
      obtain ⟨d, hfind, himported⟩ := ih
      exact ⟨d, by rw [findName_cons, if_neg hname, hfind], himported⟩

/-! ## The walk -/

/-- A scope becomes another one, with all imported names that it had. -/
def Scope.Keeps (s t : Scope) : Prop :=
  ∀ name, HasImported s.names name → HasImported t.names name

theorem keepsEach_refl (scopes : List Scope) : List.Forall₂ Scope.Keeps scopes scopes :=
  List.forall₂_same.2 fun _ _ _ => id

theorem keepsEach_trans {first second third : List Scope}
    (h : List.Forall₂ Scope.Keeps first second) (h' : List.Forall₂ Scope.Keeps second third) :
    List.Forall₂ Scope.Keeps first third := by
  induction h generalizing third with
  | nil =>
    cases h'
    exact .nil
  | cons hscope _ ih =>
    cases h' with
    | cons hscope' hrest => exact .cons (fun name h => hscope' name (hscope name h)) (ih hrest)

theorem keepsEach_hoist (b : BoundName) (found : Bool) (scopes : List Scope) :
    List.Forall₂ Scope.Keeps scopes (hoist b found scopes).1 := by
  induction scopes generalizing found with
  | nil => exact .nil
  | cons s rest ih =>
    unfold hoist
    dsimp only
    split
    · exact .cons (fun _ => id) (ih _)
    · exact .cons (fun _ h => h.addName _) (keepsEach_refl rest)

namespace Walk

/-- A walk goes on: the same scopes are open and keep their imported names, and faults stay. -/
structure Grown (w v : Walk) : Prop where
  scopes : List.Forall₂ Scope.Keeps w.scopes v.scopes
  faults : v.faults = [] → w.faults = []

variable {u v w : Walk}

namespace Grown

theorem refl (w : Walk) : w.Grown w := ⟨keepsEach_refl _, id⟩

theorem trans (h : u.Grown v) (h' : v.Grown w) : u.Grown w :=
  ⟨keepsEach_trans h.scopes h'.scopes, fun hw => h.faults (h'.faults hw)⟩

theorem scopes_ne (h : v.Grown w) (hv : v.scopes ≠ []) : w.scopes ≠ [] := by
  intro hw
  have hscopes := h.scopes
  rw [hw] at hscopes
  exact hv (List.forall₂_nil_right_iff.1 hscopes)

theorem foldl {α : Type} {f : Walk → α → Walk} (h : ∀ (w : Walk) a, w.Grown (f w a))
    (l : List α) (w : Walk) : w.Grown (l.foldl f w) := by
  induction l generalizing w with
  | nil => exact .refl w
  | cons a l ih => exact (h w a).trans (ih _)

theorem report (w : Walk) (cause : Cause) (offset : Nat) : w.Grown (w.report cause offset) :=
  ⟨keepsEach_refl _, fun h => absurd h (List.cons_ne_nil _ _)⟩

theorem declare (w : Walk) (by_ : Declares) (b : BoundName) : w.Grown (w.declare by_ b) := by
  unfold Walk.declare
  split
  · exact .refl w
  · rename_i s rest hscopes
    extract_lets noted
    have hnoted : w.Grown noted := by
      unfold noted
      split
      · split
        · exact .report w _ _
        · exact .refl w
      · exact .refl w
    refine ⟨?_, hnoted.faults⟩
    rw [hscopes]
    exact .cons (fun _ h => h.addName _) (keepsEach_refl rest)

theorem declareVar (w : Walk) (b : BoundName) : w.Grown (w.declareVar b) := by
  have hhoist : w.Grown { w with scopes := (hoist b false w.scopes).1 } :=
    ⟨keepsEach_hoist b false w.scopes, id⟩
  unfold Walk.declareVar
  split
  rename_i scopes fault heq
  rw [heq] at hhoist
  dsimp only
  split
  · exact hhoist.trans (.report _ _ _)
  · exact hhoist

theorem declareAll (w : Walk) (by_ : Declares) (names : List BoundName) :
    w.Grown (w.declareAll by_ names) := foldl (fun w b => .declare w by_ b) names w

/-- A scope that is opened and closed leaves nothing behind. -/
theorem closeScope {kind : ScopeKind} (h : (w.openScope kind).Grown v) : w.Grown v.closeScope := by
  refine ⟨?_, h.faults⟩
  have hscopes := h.scopes
  unfold Walk.openScope at hscopes
  unfold Walk.closeScope
  cases hv : v.scopes with
  | nil =>
    rw [hv] at hscopes
    cases hscopes
  | cons s rest =>
    rw [hv] at hscopes
    cases hscopes with
    | cons _ hrest => exact hrest

end Grown

/-- What a node declares around itself. -/
def declareOutside (w : Walk) (n : Node) : Walk :=
  match n.label with
  | .function .declaration .. | .function .defaultExport .. =>
    w.declareAll .function (n.child 0).boundNames
  | .classDef true => w.declareAll .class_ (n.child 0).boundNames
  | .declarator kind =>
    match kind with
    | .var => n.boundNames.foldl Walk.declareVar w
    | _ => w.declareAll .lexical n.boundNames
  | .importNamed | .importDefault | .importNamespace =>
    w.declareAll .imported (n.children.getLastD .absent).boundNames
  | _ => w

/-- What a node declares inside of its scope. -/
def declareInside (w : Walk) (n : Node) : Walk :=
  match n.label with
  | .params => w.declareAll .parameter n.boundNames
  | .catchClause =>
    match (n.child 0).binding? with
    | some _ => w.declareAll .catchName (n.child 0).boundNames
    | none => w.declareAll .catchPattern (n.child 0).boundNames
  | _ => w

theorem enter_eq (w : Walk) (up : List Frame) (n : Node) : w.enter up n =
    (match opensScope up n.label with
      | some kind => (w.declareOutside n).openScope kind
      | none => w.declareOutside n).declareInside n := rfl

theorem grown_declareOutside (w : Walk) (n : Node) : w.Grown (w.declareOutside n) := by
  unfold declareOutside
  split
  · exact .declareAll _ _ _
  · exact .declareAll _ _ _
  · exact .declareAll _ _ _
  · split
    · exact .foldl Grown.declareVar _ w
    · exact .declareAll _ _ _
  · exact .declareAll _ _ _
  · exact .declareAll _ _ _
  · exact .declareAll _ _ _
  · exact .refl w

theorem grown_declareInside (w : Walk) (n : Node) : w.Grown (w.declareInside n) := by
  unfold declareInside
  split
  · exact .declareAll _ _ _
  · split <;> exact .declareAll _ _ _
  · exact .refl w

/-- A node is left with the scopes with which it was entered. -/
theorem grown_leave {up : List Frame} {n : Node} (h : (w.enter up n).Grown v) :
    (w.declareOutside n).Grown (v.leave up n) := by
  have hnoted : v.Grown { v with faults := (nodeFaults up n).reverse ++ v.faults } :=
    ⟨keepsEach_refl _, fun hnil => (List.append_eq_nil_iff.1 hnil).2⟩
  rw [enter_eq] at h
  unfold leave
  cases hscope : opensScope up n.label with
  | none =>
    rw [hscope] at h
    exact ((grown_declareInside _ n).trans h).trans hnoted
  | some kind =>
    rw [hscope] at h
    exact (((grown_declareInside _ n).trans h).trans hnoted).closeScope

end Walk

mutual

/-- Behind a node, the walk has grown. -/
theorem Node.walk_grown (up : List Frame) : ∀ (n : Node) (w : Walk),
    (w.declareOutside n).Grown (n.walk up w)
  | .mk label span children, w => by
    rw [Node.walk]
    exact Walk.grown_leave (walkAll_grown label _ up 0 children _)

theorem walkAll_grown (label : Label) (parent : Node) (up : List Frame) (slot : Nat) :
    ∀ (nodes : List Node) (w : Walk), w.Grown (walkAll label parent up slot nodes w)
  | [], w => by
    rw [walkAll]
    exact .refl w
  | n :: rest, w => by
    rw [walkAll]
    exact ((Walk.grown_declareOutside w n).trans (n.walk_grown _ w)).trans
      (walkAll_grown label parent up (slot + 1) rest _)

end

theorem walkAll_append (label : Label) (parent : Node) (up : List Frame) (slot : Nat)
    (first second : List Node) (w : Walk) : walkAll label parent up slot (first ++ second) w =
      walkAll label parent up (slot + first.length) second (walkAll label parent up slot first w) := by
  induction first generalizing slot w with
  | nil => rfl
  | cons n rest ih =>
    rw [List.cons_append, walkAll, ih, walkAll, List.length_cons, Nat.add_assoc, Nat.add_comm 1]

/-! ## Names that are imported -/

namespace Walk

variable {u v w : Walk} {names more : List String}

/-- A name is an imported one of the innermost scope. -/
def HasImport (w : Walk) (name : String) : Prop :=
  ∃ s ∈ w.scopes.head?, HasImported s.names name

/-- Between two moments, a walk imports names: if no fault has been noted, they are different, and
none was imported before. -/
structure Brings (w : Walk) (names : List String) (v : Walk) : Prop where
  grown : w.Grown v
  nodup : v.faults = [] → names.Nodup
  fresh : v.faults = [] → ∀ name ∈ names, ¬ w.HasImport name
  imported : ∀ name ∈ names, v.HasImport name

theorem Grown.hasImport (h : w.Grown v) {name : String} (hname : w.HasImport name) :
    v.HasImport name := by
  obtain ⟨s, hs, himported⟩ := hname
  have hscopes := h.scopes
  unfold HasImport
  cases hw : w.scopes with
  | nil =>
    rw [hw] at hs
    cases hs
  | cons first rest =>
    rw [hw] at hs hscopes
    cases hs
    cases hv : v.scopes with
    | nil =>
      rw [hv] at hscopes
      cases hscopes
    | cons t others =>
      rw [hv] at hscopes
      cases hscopes with
      | cons hkeeps _ => exact ⟨t, rfl, hkeeps name himported⟩

theorem Grown.brings (h : w.Grown v) : w.Brings [] v :=
  ⟨h, fun _ => List.nodup_nil, fun _ _ hname => absurd hname List.not_mem_nil,
    fun _ hname => absurd hname List.not_mem_nil⟩

/-- Parts of a walk that import names can be put together. -/
theorem Brings.trans (h : u.Brings names v) (h' : v.Brings more w) :
    u.Brings (names ++ more) w := by
  refine ⟨h.grown.trans h'.grown, fun hw => ?_, fun hw name hname => ?_, fun name hname => ?_⟩
  · have hv := h'.grown.faults hw
    refine List.nodup_append.2 ⟨h.nodup hv, h'.nodup hw, ?_⟩
    rintro name hname _ hmore rfl
    exact h'.fresh hw name hmore (h.imported name hname)
  · rcases List.mem_append.1 hname with hname | hname
    · exact h.fresh (h'.grown.faults hw) name hname
    · exact fun hu => h'.fresh hw name hname (h.grown.hasImport hu)
  · rcases List.mem_append.1 hname with hname | hname
    · exact h'.grown.hasImport (h.imported name hname)
    · exact h'.imported name hname

/-- The declaration of an imported name imports it, where a scope is open. -/
theorem brings_declare (hw : w.scopes ≠ []) (b : BoundName) :
    w.Brings [b.name] (w.declare .imported b) := by
  refine ⟨.declare w _ b, fun _ => List.pairwise_singleton _ _, fun hfaults name hname hhas => ?_,
    fun name hname => ?_⟩
  · rw [List.mem_singleton.1 hname] at hhas
    obtain ⟨s, hs, d, hfind, himported⟩ := hhas
    unfold declare at hfaults
    cases hscopes : w.scopes with
    | nil => exact hw hscopes
    | cons first rest =>
      rw [hscopes] at hs hfaults
      cases hs
      dsimp only at hfaults
      rw [hfind, Option.orElse_eq_orElse, Option.orElse_eq_or, Option.some_or] at hfaults
      dsimp only at hfaults
      have hcollides : collides s.kind d.by_ .imported = true := by
        unfold collides
        exact List.contains_iff_mem.2 himported
      rw [if_pos hcollides] at hfaults
      cases hfaults
  · rw [List.mem_singleton.1 hname]
    unfold declare
    cases hscopes : w.scopes with
    | nil => exact absurd hscopes hw
    | cons first rest => exact ⟨_, rfl, hasImported_addName _ _ _⟩

end Walk

end ModuleBundler.Syntax
