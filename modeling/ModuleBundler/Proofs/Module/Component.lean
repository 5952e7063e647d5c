import ModuleBundler.Module.Component
import ModuleBundler.Proofs.Module.Cycle

/-!
# Components make the import cycles

`ModuleGraph.circularGroups` goes through numbers: links become edges between places, components of
places are sorted twice, and places become modules again.  Nothing is lost or merged on the way.

* `Digraph.Components` — what is asked of the function that finds the components, and
  `Digraph.Components.isCircular_iff` — which of them have a cycle;
* `ModuleGraph.path_iff` — paths between places are chains of links between modules;
* **`ModuleGraph.circularGroups_listed`** — the groups are the import cycles of the graph, in its order.
-/

namespace ModuleBundler

open Relation

/-! ## Components of a directed graph -/

namespace Digraph

/-- There is an edge between two nodes. -/
def Edge (d : Digraph) (a b : Nat) : Prop := (a, b) ∈ d.edges

/-- The strongly connected components of a directed graph: each node is in one of them, and two nodes
are in the same exactly if paths lead from each of them to the other. -/
structure Components (d : Digraph) (components : List (List Nat)) : Prop where
  nonempty : [] ∉ components
  perm : components.flatten.Perm (List.range d.order)
  together : ∀ component ∈ components, ∀ a ∈ component, ∀ b < d.order,
    b ∈ component ↔ ReflTransGen d.Edge a b ∧ ReflTransGen d.Edge b a

variable {d : Digraph} {components : List (List Nat)} {component : List Nat} {a b : Nat}

namespace Components

variable (h : d.Components components)

include h

theorem exists_iff : (∃ component ∈ components, a ∈ component) ↔ a < d.order := by
  rw [← List.mem_range, ← h.perm.mem_iff, List.mem_flatten]

theorem nodup_flatten : components.flatten.Nodup := h.perm.nodup_iff.2 List.nodup_range

theorem nodup (hcomponent : component ∈ components) : component.Nodup :=
  (List.nodup_flatten.1 h.nodup_flatten).1 component hcomponent

theorem lt_order (hcomponent : component ∈ components) (ha : a ∈ component) : a < d.order :=
  h.exists_iff.1 ⟨component, hcomponent, ha⟩

/-- A component is circular exactly if a path leads from one of its nodes back to it. -/
theorem isCircular_iff (hcomponent : component ∈ components) (ha : a ∈ component) :
    d.isCircular component = true ↔ TransGen d.Edge a a := by
  have hnodup := h.nodup hcomponent
  have htogether := h.together component hcomponent a ha
  unfold isCircular
  rw [Bool.or_eq_true, decide_eq_true_eq]
  match component with
  | [c] =>
    obtain rfl : a = c := List.mem_singleton.1 ha
    have hloop : ([a].head?.any fun n => d.edges.contains (n, n)) = true ↔ d.Edge a a :=
      List.contains_iff_mem
    rw [hloop]
    constructor
    · rintro (hlength | hedge)
      · exact absurd hlength (Nat.lt_irrefl 1)
      · exact .single hedge
    · intro hpath
      -- the path comes back through a node of the component, which is the only one
      obtain ⟨b, hab, hba⟩ := TransGen.head'_iff.1 hpath
      have hb := (htogether b (d.bounded _ hab).2).2 ⟨.single hab, hba⟩
      exact .inr (List.mem_singleton.1 hb ▸ hab)
  | first :: second :: rest =>
    refine iff_of_true (.inl (by simp)) ?_
    obtain ⟨b, hb, hne⟩ : ∃ b ∈ first :: second :: rest, b ≠ a := by
      have hdistinct : first ≠ second := fun heq =>
        (List.nodup_cons.1 hnodup).1 (heq ▸ List.mem_cons_self)
      by_cases hfirst : first = a
      · exact ⟨second, by simp, fun hsecond => hdistinct (hfirst.trans hsecond.symm)⟩
      · exact ⟨first, by simp, hfirst⟩
    obtain ⟨hab, hba⟩ := (htogether b (h.lt_order hcomponent hb)).1 hb
    rcases reflTransGen_iff_eq_or_transGen.1 hab with heq | hab
    · exact absurd heq hne
    · exact hab.trans_left hba

end Components

end Digraph

/-! ## Places of modules -/

namespace ModuleGraph

variable {g : ModuleGraph} {a b : ModuleId} {i j : Nat}

/-- Each place below the number of modules has a module. -/
theorem exists_at (hi : i < g.modules.length) : ∃ a, g.ids[i]? = some a :=
  ⟨_, List.getElem?_eq_getElem (by unfold ids; rwa [List.length_map])⟩

section Places

variable (hg : g.ids.Nodup)

include hg

theorem place?_eq_some_iff : g.place? a = some i ↔ g.ids[i]? = some a := by
  unfold place?
  rw [List.idxOf?_eq_some_iff, List.getElem?_eq_some_iff]
  refine exists_congr fun hi => ⟨And.left, fun ha => ⟨ha, fun j hj heq => ?_⟩⟩
  exact absurd ((hg.getElem_inj_iff).1 (heq.trans ha.symm)) (Nat.ne_of_lt hj)

/-- There is an edge between two places exactly if the one module links to the other. -/
theorem edge_iff (ha : g.ids[i]? = some a) (hb : g.ids[j]? = some b) :
    g.digraph.Edge i j ↔ g.LinksTo a b := by
  unfold Digraph.Edge digraph
  rw [List.mem_eraseDups, List.mem_flatMap]
  constructor
  · rintro ⟨m, hm, he⟩
    obtain ⟨hsource, target, htarget, hplace⟩ := mem_edgesOf_iff.1 he
    rw [place?_eq_some_iff hg, ha] at hsource
    rw [place?_eq_some_iff hg, hb] at hplace
    cases hsource
    cases hplace
    exact ⟨m, hm, rfl, List.mem_eraseDups.1 htarget⟩
  · rintro ⟨m, hm, rfl, htarget⟩
    exact ⟨m, hm, mem_edgesOf_iff.2 ⟨(place?_eq_some_iff hg).2 ha, b, List.mem_eraseDups.2 htarget,
      (place?_eq_some_iff hg).2 hb⟩⟩

/-- A path between places is a chain of links between the modules there. -/
theorem path_iff (ha : g.ids[i]? = some a) (hb : g.ids[j]? = some b) :
    TransGen g.digraph.Edge i j ↔ TransGen g.LinksTo a b := by
  constructor
  · intro h
    induction h generalizing b with
    | single hedge => exact .single ((edge_iff hg ha hb).1 hedge)
    | @tail k j _ hedge ih =>
      obtain ⟨c, hc⟩ := exists_at (g.digraph.bounded _ hedge).1
      exact .tail (ih hc) ((edge_iff hg hc hb).1 hedge)
  · intro h
    induction h using TransGen.head_induction_on generalizing i with
    | single hlink => exact .single ((edge_iff hg ha hb).2 hlink)
    | head hlink hchain ih =>
      obtain ⟨k, hk⟩ := List.mem_iff_getElem?.1 (mem_ids_of_chain hchain)
      exact .head ((edge_iff hg ha hk).2 hlink) (ih hk)

/-- Modules whose places follow each other follow each other in the graph. -/
theorem precedes_of_lt (ha : g.ids[i]? = some a) (hb : g.ids[j]? = some b) (hij : i < j) :
    g.Precedes a b := by
  obtain ⟨hi, rfl⟩ := List.getElem?_eq_some_iff.1 ha
  obtain ⟨hj, rfl⟩ := List.getElem?_eq_some_iff.1 hb
  unfold Precedes
  rwa [hg.idxOf_getElem i hi, hg.idxOf_getElem j hj]

end Places

/-- The modules at some places. -/
def modulesAt (g : ModuleGraph) (places : List Nat) : List ModuleId :=
  places.filterMap fun n => g.ids[n]?

theorem mem_modulesAt {places : List Nat} :
    a ∈ g.modulesAt places ↔ ∃ i ∈ places, g.ids[i]? = some a :=
  List.mem_filterMap

/-! ## The groups that components make -/

/-- Places in ascending order. -/
def sortPlaces (places : List Nat) : List Nat := places.mergeSort fun a b => decide (a ≤ b)

/-- Lists of places in the order of their first ones. -/
def sortByFirst (lists : List (List Nat)) : List (List Nat) :=
  lists.mergeSort fun a b => decide (a.headD 0 ≤ b.headD 0)

theorem mem_sortPlaces {places : List Nat} : i ∈ sortPlaces places ↔ i ∈ places :=
  List.mem_mergeSort

theorem pairwise_sortPlaces {places : List Nat} (h : places.Nodup) :
    (sortPlaces places).Pairwise (· < ·) := by
  have hsorted : (sortPlaces places).Pairwise fun a b => decide (a ≤ b) = true :=
    List.pairwise_mergeSort (fun a b c hab hbc => by simp at *; omega)
      (fun a b => by simp; omega) places
  have hnodup : (sortPlaces places).Nodup := (List.mergeSort_perm places _).nodup_iff.2 h
  exact (hsorted.and hnodup).imp fun ⟨hle, hne⟩ => Nat.lt_of_le_of_ne (of_decide_eq_true hle) hne

theorem pairwise_sortByFirst (lists : List (List Nat)) :
    (sortByFirst lists).Pairwise fun a b => a.headD 0 ≤ b.headD 0 :=
  (List.pairwise_mergeSort (fun a b c hab hbc => by simp at *; omega)
    (fun a b => by simp; omega) lists).imp of_decide_eq_true

section Groups

variable {components : Digraph → List (List Nat)}

/-- The places of the groups, before the modules are looked up. -/
def circularPlaces (components : Digraph → List (List Nat)) (g : ModuleGraph) : List (List Nat) :=
  sortByFirst (((components g.digraph).filter g.digraph.isCircular).map sortPlaces)

theorem circularGroups_eq : g.circularGroups components =
    (g.circularPlaces components).map g.modulesAt := rfl

theorem mem_circularPlaces {places : List Nat} : places ∈ g.circularPlaces components ↔
    ∃ component ∈ components g.digraph,
      g.digraph.isCircular component = true ∧ sortPlaces component = places := by
  unfold circularPlaces sortByFirst
  rw [List.mem_mergeSort, List.mem_map]
  simp only [List.mem_filter, and_assoc]

variable (hg : g.ids.Nodup) (h : g.digraph.Components (components g.digraph))

include h

theorem disjoint_circularPlaces : (g.circularPlaces components).Pairwise List.Disjoint := by
  have hdisjoint := ((List.nodup_flatten.1 h.nodup_flatten).2.filter g.digraph.isCircular)
  refine (List.Perm.pairwise_iff List.disjoint_symm (List.mergeSort_perm _ _)).2 ?_
  refine List.pairwise_map.2 (hdisjoint.imp fun {a b} hab i ha hb => ?_)
  exact hab (mem_sortPlaces.1 ha) (mem_sortPlaces.1 hb)

/-- The places of a group are there, in ascending order, and at least one. -/
theorem places_of_mem {places : List Nat} (hplaces : places ∈ g.circularPlaces components) :
    places ≠ [] ∧ places.Pairwise (· < ·) ∧ ∀ i ∈ places, i < g.modules.length := by
  obtain ⟨component, hcomponent, -, rfl⟩ := mem_circularPlaces.1 hplaces
  refine ⟨fun hnil => h.nonempty ?_, pairwise_sortPlaces (h.nodup hcomponent),
    fun i hi => h.lt_order hcomponent (mem_sortPlaces.1 hi)⟩
  have hlength := (List.mergeSort_perm component fun a b => decide (a ≤ b)).length_eq
  rw [show component.mergeSort (fun a b => decide (a ≤ b)) = [] from hnil] at hlength
  rwa [List.length_eq_zero_iff.1 hlength.symm] at hcomponent

/-- The first place of a group has its first module. -/
theorem head?_modulesAt {places : List Nat} (hplaces : places ∈ g.circularPlaces components)
    (ha : a ∈ (g.modulesAt places).head?) : g.ids[places.headD 0]? = some a := by
  obtain ⟨hne, -, hlt⟩ := places_of_mem h hplaces
  cases places with
  | nil => exact absurd rfl hne
  | cons i rest =>
    obtain ⟨c, hc⟩ := exists_at (hlt i List.mem_cons_self)
    unfold modulesAt at ha
    rw [List.filterMap_cons_some hc] at ha
    exact hc.trans ha

include hg

/-- Two modules are in one group exactly if chains of links lead from each of them to the other. -/
theorem together_circularGroups (a b : ModuleId) :
    (∃ group ∈ g.circularGroups components, a ∈ group ∧ b ∈ group) ↔
      TransGen g.LinksTo a b ∧ TransGen g.LinksTo b a := by
  rw [circularGroups_eq]
  constructor
  · rintro ⟨group, hgroup, ha, hb⟩
    obtain ⟨places, hplaces, rfl⟩ := List.mem_map.1 hgroup
    obtain ⟨component, hcomponent, hcircular, rfl⟩ := mem_circularPlaces.1 hplaces
    obtain ⟨i, hi, hia⟩ := mem_modulesAt.1 ha
    obtain ⟨j, hj, hjb⟩ := mem_modulesAt.1 hb
    rw [mem_sortPlaces] at hi hj
    have hround := (h.isCircular_iff hcomponent hi).1 hcircular
    obtain ⟨hij, hji⟩ := (h.together component hcomponent i hi j (h.lt_order hcomponent hj)).1 hj
    exact ⟨(path_iff hg hia hjb).1 (hround.trans_left hij),
      (path_iff hg hjb hia).1 (TransGen.trans_right hji hround)⟩
  · rintro ⟨hab, hba⟩
    obtain ⟨i, hia⟩ := List.mem_iff_getElem?.1 (mem_ids_of_chain hab)
    obtain ⟨j, hjb⟩ := List.mem_iff_getElem?.1 (mem_ids_of_chain hba)
    have hij := (path_iff hg hia hjb).2 hab
    have hji := (path_iff hg hjb hia).2 hba
    have hlt : ∀ {k : Nat} {c : ModuleId}, g.ids[k]? = some c → k < g.digraph.order := by
      intro k c hk
      obtain ⟨hk, -⟩ := List.getElem?_eq_some_iff.1 hk
      unfold ids at hk
      rwa [List.length_map] at hk
    obtain ⟨component, hcomponent, hi⟩ := h.exists_iff.2 (hlt hia)
    have hj := (h.together component hcomponent i hi j (hlt hjb)).2
      ⟨hij.to_reflTransGen, hji.to_reflTransGen⟩
    have hcircular := (h.isCircular_iff hcomponent hi).2 (hij.trans hji)
    exact ⟨_, List.mem_map_of_mem (mem_circularPlaces.2 ⟨component, hcomponent, hcircular, rfl⟩),
      mem_modulesAt.2 ⟨i, mem_sortPlaces.2 hi, hia⟩, mem_modulesAt.2 ⟨j, mem_sortPlaces.2 hj, hjb⟩⟩

/-- The groups that are made of the components are the import cycles. -/
theorem listsCycles_circularGroups : g.ListsCycles (g.circularGroups components) := by
  have htogether := together_circularGroups hg h
  have hmembers : ∀ places ∈ g.circularPlaces components,
      (g.modulesAt places).Pairwise g.Precedes := by
    intro places hplaces
    refine List.pairwise_filterMap.2 ((places_of_mem h hplaces).2.1.imp ?_)
    exact fun hij a ha b hb => precedes_of_lt hg ha hb hij
  refine ⟨?_, fun a => ?_, htogether, ?_, ?_, ?_⟩
  · intro hnil
    rw [circularGroups_eq] at hnil
    obtain ⟨places, hplaces, hempty⟩ := List.mem_map.1 hnil
    obtain ⟨hne, -, hlt⟩ := places_of_mem h hplaces
    obtain ⟨i, hi⟩ := List.exists_mem_of_ne_nil places hne
    obtain ⟨a, ha⟩ := exists_at (hlt i hi)
    have hmem : a ∈ g.modulesAt places := mem_modulesAt.2 ⟨i, hi, ha⟩
    rw [hempty] at hmem
    exact List.not_mem_nil hmem
  · exact exists_mem_iff_of_together htogether a
  · refine List.nodup_flatten.2 ⟨?_, ?_⟩
    · exact List.forall_mem_map.2 fun places hplaces => nodup_of_precedes (hmembers places hplaces)
    · -- a module is at one place, and a place in one component
      refine List.pairwise_map.2 ((disjoint_circularPlaces h).imp fun {p q} hpq a ha hb => ?_)
      obtain ⟨i, hi, hia⟩ := mem_modulesAt.1 ha
      obtain ⟨j, hj, hja⟩ := mem_modulesAt.1 hb
      have hi' := (place?_eq_some_iff hg).2 hia
      rw [(place?_eq_some_iff hg).2 hja] at hi'
      cases hi'
      exact hpq hi hj
  · exact List.forall_mem_map.2 hmembers
  · refine List.pairwise_map.2 (((pairwise_sortByFirst _).and
      (disjoint_circularPlaces h)).imp_of_mem fun {p q} hp hq ⟨hle, hdisjoint⟩ a ha b hb => ?_)
    have hhead : ∀ {places : List Nat}, places ≠ [] → places.headD 0 ∈ places := by
      intro places hne
      cases places with
      | nil => exact absurd rfl hne
      | cons i rest => exact List.mem_cons_self
    refine precedes_of_lt hg (head?_modulesAt h hp ha) (head?_modulesAt h hq hb)
      (Nat.lt_of_le_of_ne hle fun heq => ?_)
    exact hdisjoint (hhead (places_of_mem h hp).1) (heq ▸ hhead (places_of_mem h hq).1)

/-- The groups of a graph, read off its components, whatever function finds these, are its import
cycles; and they are what following links from each module comes to. -/
theorem circularGroups_listed :
    g.ListsCycles (g.circularGroups components) ∧ g.circularGroups components = g.importCycles := by
  have hgroups := listsCycles_circularGroups hg h
  exact ⟨hgroups, hgroups.unique (listsCycles_importCycles hg)⟩

end Groups

/-- Two modules that import each other, the one under two names; both import a third, which imports
itself and a module that is in no cycle. -/
def nestedCycles : ModuleGraph where
  entry := .ofPath "/a"
  modules :=
    [⟨.ofPath "/a", [⟨"./c", .ofPath "/c"⟩, ⟨"./b", .ofPath "/b"⟩, ⟨"b", .ofPath "/b"⟩], ""⟩,
      ⟨.ofPath "/c", [⟨"./d", .ofPath "/d"⟩, ⟨"./c", .ofPath "/c"⟩], ""⟩,
      ⟨.ofPath "/b", [⟨"./a", .ofPath "/a"⟩, ⟨"./c", .ofPath "/c"⟩], ""⟩,
      ⟨.ofPath "/d", [], ""⟩]

/-- Its components, each behind those that it leads to. -/
def nestedComponents (_ : Digraph) : List (List Nat) := [[3], [1], [2, 0]]

theorem nestedCycles_listed :
    nestedCycles.digraph.Components (nestedComponents nestedCycles.digraph) ∧
    nestedCycles.ListsCycles (nestedCycles.circularGroups nestedComponents) ∧
    nestedCycles.circularGroups nestedComponents =
      [[.ofPath "/a", .ofPath "/b"], [.ofPath "/c"]] := by
  have hg : nestedCycles.ids.Nodup := by decide
  have hedges : nestedCycles.digraph.edges = [(0, 1), (0, 2), (1, 3), (1, 1), (2, 0), (2, 1)] := by
    decide +kernel
  -- no edge leads to a component further back
  have hlevel : ∀ {a b : Nat}, ReflTransGen nestedCycles.digraph.Edge a b →
      [2, 1, 2, 0].getD b 0 ≤ [2, 1, 2, 0].getD a 0 := by
    intro a b h
    induction h with
    | refl => exact Nat.le_refl _
    | @tail b c _ hbc ih =>
      have hstep : ∀ e ∈ nestedCycles.digraph.edges,
          [2, 1, 2, 0].getD e.2 0 ≤ [2, 1, 2, 0].getD e.1 0 := by rw [hedges]; decide
      exact Nat.le_trans (hstep _ hbc) ih
  have hcomponents : nestedCycles.digraph.Components (nestedComponents nestedCycles.digraph) := by
    refine ⟨by decide, by decide, fun component hcomponent a ha b hb => ⟨fun hb => ?_, fun h => ?_⟩⟩
    · have hpairs : ∀ component ∈ nestedComponents nestedCycles.digraph, ∀ a ∈ component,
          ∀ b ∈ component, a = b ∨ (a, b) ∈ nestedCycles.digraph.edges := by rw [hedges]; decide
      have hpath : ∀ a ∈ component, ∀ b ∈ component, ReflTransGen nestedCycles.digraph.Edge a b := by
        intro a ha b hb
        rcases hpairs component hcomponent a ha b hb with rfl | hab
        · exact .refl
        · exact .single hab
      exact ⟨hpath a ha b hb, hpath b hb a ha⟩
    · have hlevels : ∀ component ∈ nestedComponents nestedCycles.digraph, ∀ a ∈ component, ∀ b < 4,
          [2, 1, 2, 0].getD b 0 = [2, 1, 2, 0].getD a 0 → b ∈ component := by decide
      exact hlevels component hcomponent a ha b hb (Nat.le_antisymm (hlevel h.1) (hlevel h.2))
  obtain ⟨hgroups, heq⟩ := circularGroups_listed hg hcomponents
  refine ⟨hcomponents, hgroups, heq.trans ?_⟩
  decide +kernel

end ModuleGraph

end ModuleBundler
