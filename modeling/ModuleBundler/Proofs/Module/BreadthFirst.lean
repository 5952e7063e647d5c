import Mathlib.Data.List.Induction
import Mathlib.Data.List.Nodup
import Mathlib.Data.Nat.Find
import Mathlib.Logic.Relation
import Mathlib.Tactic.Choose
import ModuleBundler.Module.Graph
import ModuleBundler.Proofs.Appearance

/-!
# Graphs in breadth-first order

A worklist makes graphs of one shape (`ModuleGraph.Discovered`): the ids list the entry and the
targets of all links in order of first appearance, and each module is the entry or the target of a
link of an earlier module.  This alone makes the order breadth first:

* `ModuleGraph.Discovered.reached` and `ModuleGraph.Discovered.closed` — the modules are those that
  a chain of links leads to;
* `ModuleGraph.Discovered.ordered` — the modules behind the entry are ordered by the place of the
  first link to them (`firstImport`);
* `ModuleGraph.Discovered.reachedIn` and `ModuleGraph.Discovered.distances` — no module is further
  from the entry than one behind it.
-/

namespace ModuleBundler

/-! ## Links and distances -/

/-- The targets of a module's links, in the order of the links. -/
def Module.targets (m : Module) : List ModuleId := m.imports.map (·.target)

/-- The place of the first link to a module: the position of the module that has it, and its
position among the links of that module. -/
def firstImport (modules : List Module) (id : ModuleId) : Nat × Nat :=
  let i := modules.findIdx fun m => m.targets.contains id
  (i, (modules[i]?.map fun m => m.targets.idxOf id).getD 0)

/-- The first link to `a` stands before the first link to `b`. -/
def ImportedBefore (modules : List Module) (a b : ModuleId) : Prop :=
  (firstImport modules a).1 < (firstImport modules b).1 ∨
    (firstImport modules a).1 = (firstImport modules b).1 ∧
      (firstImport modules a).2 < (firstImport modules b).2

namespace ModuleGraph

/-- A module of the graph has a link to another. -/
def LinksTo (g : ModuleGraph) (a b : ModuleId) : Prop :=
  ∃ m ∈ g.modules, m.id = a ∧ b ∈ m.targets

/-- A chain of `n` links leads from the entry to a module. -/
inductive ReachedIn (g : ModuleGraph) : Nat → ModuleId → Prop
  | entry : ReachedIn g 0 g.entry
  | link {n : Nat} {a b : ModuleId} :
      ReachedIn g n a → g.LinksTo a b → ReachedIn g (n + 1) b

/-- The shortest chain of links from the entry to a module has `n` links. -/
def Distance (g : ModuleGraph) (id : ModuleId) (n : Nat) : Prop :=
  g.ReachedIn n id ∧ ∀ k, g.ReachedIn k id → n ≤ k

/-- The ids list the entry and the targets of all links in order of first appearance, and each
module is the entry or the target of a link of an earlier module. -/
structure Discovered (g : ModuleGraph) : Prop where
  appearances : FirstAppearances (g.entry :: g.modules.flatMap Module.targets) g.ids
  preceded : ∀ earlier m, earlier ++ [m] <+: g.modules →
    m.id ∈ g.entry :: earlier.flatMap Module.targets

end ModuleGraph

/-! ## The place of the first link -/

section FirstImport

variable {m : Module} {modules : List Module} {id a b : ModuleId}

theorem firstImport_cons_of_mem (h : id ∈ m.targets) :
    firstImport (m :: modules) id = (0, m.targets.idxOf id) := by
  have hfind : (m :: modules).findIdx (fun m => m.targets.contains id) = 0 := by
    rw [List.findIdx_cons, List.contains_iff_mem.2 h]
    rfl
  unfold firstImport
  rw [hfind]
  rfl

theorem firstImport_cons_of_notMem (h : id ∉ m.targets) :
    firstImport (m :: modules) id =
      ((firstImport modules id).1 + 1, (firstImport modules id).2) := by
  have hfind : (m :: modules).findIdx (fun m => m.targets.contains id) =
      modules.findIdx (fun m => m.targets.contains id) + 1 := by
    rw [List.findIdx_cons, Bool.eq_false_iff.2 fun hc => h (List.contains_iff_mem.1 hc)]
    rfl
  unfold firstImport
  rw [hfind]
  rfl

/-- What appears first among all targets is imported first. -/
theorem importedBefore_of_idxOf_lt
    (h : (modules.flatMap Module.targets).idxOf a < (modules.flatMap Module.targets).idxOf b) :
    ImportedBefore modules a b := by
  induction modules with
  | nil => simp at h
  | cons m rest ih =>
    rw [List.flatMap_cons, List.idxOf_append, List.idxOf_append] at h
    by_cases ha : a ∈ m.targets
    · by_cases hb : b ∈ m.targets
      · rw [if_pos ha, if_pos hb] at h
        unfold ImportedBefore
        rw [firstImport_cons_of_mem ha, firstImport_cons_of_mem hb]
        exact Or.inr ⟨rfl, h⟩
      · unfold ImportedBefore
        rw [firstImport_cons_of_mem ha, firstImport_cons_of_notMem hb]
        exact Or.inl (Nat.succ_pos _)
    · by_cases hb : b ∈ m.targets
      · -- then `b` appears before `a`
        rw [if_neg ha, if_pos hb] at h
        have := List.idxOf_lt_length_of_mem hb
        omega
      · rw [if_neg ha, if_neg hb] at h
        have hrest := ih (by omega)
        unfold ImportedBefore at hrest ⊢
        rw [firstImport_cons_of_notMem ha, firstImport_cons_of_notMem hb]
        dsimp only
        omega

/-- The first link to a module is in no module behind one that has a link to it. -/
theorem firstImport_le {earlier later : List Module} (h : id ∈ m.targets) :
    (firstImport (earlier ++ m :: later) id).1 ≤ earlier.length := by
  induction earlier with
  | nil =>
    rw [List.nil_append, firstImport_cons_of_mem h]
    exact Nat.le_refl 0
  | cons e rest ih =>
    rw [List.cons_append, List.length_cons]
    by_cases he : id ∈ e.targets
    · rw [firstImport_cons_of_mem he]
      exact Nat.zero_le _
    · rw [firstImport_cons_of_notMem he]
      exact Nat.succ_le_succ ih

/-- The module with the first link to `id` has a link to `id`. -/
theorem mem_targets_firstImport (h : id ∈ modules.flatMap Module.targets) :
    ∃ m, modules[(firstImport modules id).1]? = some m ∧ id ∈ m.targets := by
  induction modules with
  | nil => simp at h
  | cons m rest ih =>
    by_cases hm : id ∈ m.targets
    · rw [firstImport_cons_of_mem hm]
      exact ⟨m, rfl, hm⟩
    · rw [List.flatMap_cons, List.mem_append] at h
      obtain ⟨m', hget, hm'⟩ := ih (h.resolve_left hm)
      rw [firstImport_cons_of_notMem hm]
      exact ⟨m', hget, hm'⟩

end FirstImport

namespace ModuleGraph.Discovered

open Relation

variable {g : ModuleGraph} {id a b : ModuleId}

/-! ## The modules that are reached -/

/-- A link leads to a module of the graph. -/
theorem closed (h : g.Discovered) (hab : g.LinksTo a b) : b ∈ g.ids := by
  obtain ⟨m, hm, -, hb⟩ := hab
  rw [h.appearances.mem_iff]
  exact List.mem_cons_of_mem _ (List.mem_flatMap.2 ⟨m, hm, hb⟩)

/-- A chain of links leads from the entry to every module. -/
theorem reached (h : g.Discovered) (hid : id ∈ g.ids) :
    ReflTransGen g.LinksTo g.entry id := by
  have hprefix : ∀ earlier, earlier <+: g.modules →
      ∀ m ∈ earlier, ReflTransGen g.LinksTo g.entry m.id := by
    intro earlier
    induction earlier using List.reverseRecOn with
    | nil => intro _ m hm; cases hm
    | append_singleton earlier last ih =>
      intro hpre m hm
      have hbefore := ih ((List.prefix_append _ _).trans hpre)
      rcases List.mem_append.1 hm with hm | hm
      · exact hbefore m hm
      · rw [List.mem_singleton.1 hm]
        rcases List.mem_cons.1 (h.preceded earlier last hpre) with hentry | hlink
        · rw [hentry]
        · obtain ⟨importer, himp, htarget⟩ := List.mem_flatMap.1 hlink
          have hin : importer ∈ g.modules := hpre.subset (List.mem_append_left _ himp)
          exact (hbefore importer himp).tail ⟨importer, hin, rfl, htarget⟩
  obtain ⟨m, hm, rfl⟩ := List.mem_map.1 hid
  exact hprefix g.modules (List.prefix_refl _) m hm

theorem head?_eq (h : g.Discovered) : g.ids.head? = some g.entry := h.appearances.head?_eq

/-! ## The order of the modules -/

theorem ids_eq_cons (h : g.Discovered) : g.ids = g.entry :: g.ids.tail := by
  have hhead := h.head?_eq
  cases hids : g.ids with
  | nil => rw [hids] at hhead; cases hhead
  | cons id rest =>
    rw [hids, List.head?_cons, Option.some.injEq] at hhead
    rw [hhead]
    rfl

theorem ne_entry_of_mem_tail (h : g.Discovered) (hid : id ∈ g.ids.tail) : id ≠ g.entry := by
  have hnodup := h.appearances.nodup
  rw [h.ids_eq_cons] at hnodup
  rintro rfl
  exact (List.nodup_cons.1 hnodup).1 hid

/-- What appears first among the targets is imported first. -/
theorem importedBefore (h : g.Discovered) (ha : a ∈ g.ids.tail) (hb : b ∈ g.ids.tail)
    (hlt : (g.entry :: g.modules.flatMap Module.targets).idxOf a <
      (g.entry :: g.modules.flatMap Module.targets).idxOf b) :
    ImportedBefore g.modules a b := by
  rw [List.idxOf_cons_ne _ (h.ne_entry_of_mem_tail ha).symm,
    List.idxOf_cons_ne _ (h.ne_entry_of_mem_tail hb).symm] at hlt
  exact importedBefore_of_idxOf_lt (Nat.lt_of_succ_lt_succ hlt)

/-- The modules behind the entry stand in the order of the first links to them. -/
theorem ordered (h : g.Discovered) : g.ids.tail.Pairwise (ImportedBefore g.modules) := by
  have hordered := h.appearances.ordered
  rw [h.ids_eq_cons] at hordered
  exact (List.pairwise_cons.1 hordered).2.imp_of_mem fun ha hb hlt => h.importedBefore ha hb hlt

/-- A module stands behind those before it. -/
theorem idxOf_eq_length (h : g.Discovered) {earlier later : List Module} {m : Module}
    (hsplit : g.modules = earlier ++ m :: later) : g.ids.idxOf m.id = earlier.length := by
  have hids : g.ids = earlier.map (·.id) ++ m.id :: later.map (·.id) := by
    unfold ModuleGraph.ids
    rw [hsplit, List.map_append, List.map_cons]
  have hnew : m.id ∉ earlier.map (·.id) := by
    have hnodup := h.appearances.nodup
    rw [hids] at hnodup
    exact fun hc => List.disjoint_of_nodup_append hnodup hc List.mem_cons_self
  rw [hids, List.idxOf_append_of_notMem hnew, List.idxOf_cons_self, List.length_map, Nat.add_zero]

/-- A module behind the entry is imported by an earlier module. -/
theorem firstImport_lt (h : g.Discovered) (hid : id ∈ g.ids.tail) :
    (firstImport g.modules id).1 < g.ids.idxOf id := by
  have hin : id ∈ g.ids := List.mem_of_mem_tail hid
  obtain ⟨m, hm, rfl⟩ := List.mem_map.1 hin
  obtain ⟨earlier, later, hsplit⟩ := List.append_of_mem hm
  have hpre : earlier ++ [m] <+: g.modules := ⟨later, by rw [hsplit, List.append_assoc]; rfl⟩
  have hmem := (List.mem_cons.1 (h.preceded earlier m hpre)).resolve_left
    (h.ne_entry_of_mem_tail hid)
  obtain ⟨importer, himp, htarget⟩ := List.mem_flatMap.1 hmem
  obtain ⟨before, after, rfl⟩ := List.append_of_mem himp
  have hle : (firstImport g.modules m.id).1 ≤ before.length := by
    rw [hsplit, List.append_assoc, List.cons_append]
    exact firstImport_le htarget
  rw [h.idxOf_eq_length hsplit, List.length_append, List.length_cons]
  omega

/-- The first importer of a module stands no later than any other one. -/
theorem firstImport_le_of_linksTo (h : g.Discovered) (hab : g.LinksTo a b) :
    (firstImport g.modules b).1 ≤ g.ids.idxOf a := by
  obtain ⟨m, hm, rfl, hb⟩ := hab
  obtain ⟨earlier, later, hsplit⟩ := List.append_of_mem hm
  rw [h.idxOf_eq_length hsplit, hsplit]
  exact firstImport_le hb

/-- The first importer of a module behind the entry. -/
theorem exists_firstImporter (h : g.Discovered) (hid : id ∈ g.ids.tail) :
    ∃ a ∈ g.ids, g.LinksTo a id ∧ g.ids.idxOf a = (firstImport g.modules id).1 := by
  have hmet := (h.appearances.mem_iff id).1 (List.mem_of_mem_tail hid)
  have htarget := (List.mem_cons.1 hmet).resolve_left (h.ne_entry_of_mem_tail hid)
  obtain ⟨m, hget, hm⟩ := mem_targets_firstImport htarget
  obtain ⟨hlt, hm'⟩ := List.getElem?_eq_some_iff.1 hget
  have hin : m ∈ g.modules := List.mem_of_getElem? hget
  refine ⟨m.id, List.mem_map_of_mem hin, ⟨m, hin, rfl, hm⟩, ?_⟩
  have hlen : (firstImport g.modules id).1 < g.ids.length := by
    unfold ModuleGraph.ids
    rw [List.length_map]
    exact hlt
  have hids : g.ids[(firstImport g.modules id).1] = m.id := by
    rw [← hm']
    exact List.getElem_map _
  rw [← hids]
  exact h.appearances.nodup.idxOf_getElem _ hlen

/-! ## Distances -/

/-- A module that stands before another is no further from the entry. -/
theorem reachedIn (h : g.Discovered) {n : Nat} (hb : g.ReachedIn n b) (ha : a ∈ g.ids)
    (hab : g.ids.idxOf a ≤ g.ids.idxOf b) : ∃ k ≤ n, g.ReachedIn k a := by
  induction hb generalizing a with
  | entry =>
    -- only the entry stands where the entry stands
    rw [h.ids_eq_cons, List.idxOf_cons_self] at hab
    rw [h.ids_eq_cons] at ha
    rcases List.mem_cons.1 ha with rfl | ha
    · exact ⟨0, Nat.le_refl 0, .entry⟩
    · rw [List.idxOf_cons_ne _ (h.ne_entry_of_mem_tail ha).symm] at hab
      omega
  | @link n c b hc hlink ih =>
    by_cases hentry : a = g.entry
    · rw [hentry]
      exact ⟨0, Nat.zero_le _, .entry⟩
    have hatail : a ∈ g.ids.tail := by
      rw [h.ids_eq_cons] at ha
      exact (List.mem_cons.1 ha).resolve_left hentry
    have hbtail : b ∈ g.ids.tail := by
      have hb := h.closed hlink
      rw [h.ids_eq_cons] at hb
      refine (List.mem_cons.1 hb).resolve_left ?_
      rintro rfl
      rw [h.ids_eq_cons, List.idxOf_cons_self,
        List.idxOf_cons_ne _ (Ne.symm hentry)] at hab
      omega
    -- the first importer of `a` is no later than that of `b`, and so no later than `c`
    have hfirst : (firstImport g.modules a).1 ≤ (firstImport g.modules b).1 := by
      rcases Nat.eq_or_lt_of_le hab with heq | hlt
      · rw [(List.idxOf_inj ha).1 heq]
      · rcases h.importedBefore hatail hbtail (h.appearances.idxOf_lt (h.closed hlink) hlt)
          with hlt | ⟨heq, -⟩
        · exact Nat.le_of_lt hlt
        · exact Nat.le_of_eq heq
    have hlast : (firstImport g.modules b).1 ≤ g.ids.idxOf c := h.firstImport_le_of_linksTo hlink
    obtain ⟨x, hx, hxa, hpos⟩ := h.exists_firstImporter hatail
    obtain ⟨k, hk, hreached⟩ := ih hx (by rw [hpos]; exact Nat.le_trans hfirst hlast)
    exact ⟨k + 1, Nat.succ_le_succ hk, hreached.link hxa⟩

/-- Every module is at some distance from the entry. -/
theorem exists_distance (h : g.Discovered) (hid : id ∈ g.ids) : ∃ n, g.Distance id n := by
  have hsome : ∃ n, g.ReachedIn n id := by
    have hchain := h.reached hid
    clear hid
    induction hchain with
    | refl => exact ⟨0, .entry⟩
    | tail _ hlink ih =>
      obtain ⟨n, hn⟩ := ih
      exact ⟨n + 1, hn.link hlink⟩
  classical
  exact ⟨Nat.find hsome, Nat.find_spec hsome, fun k hk => Nat.find_min' hsome hk⟩

/-- The modules stand in the order of their distances from the entry. -/
theorem distances (h : g.Discovered) :
    ∃ distance : ModuleId → Nat, (∀ id ∈ g.ids, g.Distance id (distance id)) ∧
      g.ids.Pairwise fun a b => distance a ≤ distance b := by
  choose! distance hdistance using fun id (hid : id ∈ g.ids) => h.exists_distance hid
  refine ⟨distance, hdistance, ?_⟩
  have hnodup := h.appearances.nodup
  rw [List.pairwise_iff_getElem]
  intro i j hi hj hij
  have hle : g.ids.idxOf g.ids[i] ≤ g.ids.idxOf g.ids[j] := by
    rw [hnodup.idxOf_getElem i hi, hnodup.idxOf_getElem j hj]
    exact Nat.le_of_lt hij
  have hp := hdistance _ (List.getElem_mem hi)
  have hq := hdistance _ (List.getElem_mem hj)
  obtain ⟨k, hk, hreached⟩ := h.reachedIn hq.1 (List.getElem_mem hi) hle
  exact Nat.le_trans (hp.2 k hreached) hk

end ModuleGraph.Discovered

end ModuleBundler
