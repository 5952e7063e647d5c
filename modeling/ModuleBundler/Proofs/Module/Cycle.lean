import Mathlib.Data.List.Nodup
import Mathlib.Data.List.Pairwise
import Mathlib.Data.List.Perm.Subperm
import Mathlib.Logic.Relation
import ModuleBundler.Module.Cycle
import ModuleBundler.Proofs.Build.Closed
import ModuleBundler.Proofs.Module.DepthFirst

/-!
# Import cycles

The groups of a graph are what its links make of it: two modules are in one group exactly if chains of
links lead from each of them to the other one (`ModuleGraph.ListsCycles`).  The order of the graph decides
how they are listed.

* `ModuleGraph.mem_reachable_iff` — following links for as many rounds as there are modules comes to all
  that chains of links lead to (`ModuleGraph.Searched` is what a round keeps);
* `ModuleGraph.ListsCycles.unique` — the import cycles of a graph are listed in one way;
* **`ModuleGraph.listsCycles_importCycles`** — and `ModuleGraph.importCycles` lists them.
-/

namespace ModuleBundler

/-- No member is left over twice. -/
theorem nodup_eraseDups {α : Type} [BEq α] [LawfulBEq α] (l : List α) : l.eraseDups.Nodup := by
  induction hn : l.length using Nat.strongRecOn generalizing l with
  | _ n ih =>
    cases l with
    | nil => exact List.nodup_nil
    | cons a rest =>
      rw [List.eraseDups_cons, List.nodup_cons, List.mem_eraseDups, List.mem_filter]
      refine ⟨fun h => by simpa using h.2, ih _ ?_ _ rfl⟩
      rw [← hn, List.length_cons]
      exact Nat.lt_succ_of_le (List.length_filter_le _ _)

namespace ModuleGraph

open Relation

variable {g : ModuleGraph} {a b : ModuleId}

/-! ## What can be reached -/

/-- A module of the graph links to another one. -/
theorem mem_next_iff (hg : g.ids.Nodup) : b ∈ g.next a ↔ g.LinksTo a b ∧ b ∈ g.ids := by
  unfold next
  cases hget : g.get? a with
  | none =>
    refine ⟨fun h => absurd h List.not_mem_nil, ?_⟩
    rintro ⟨⟨m, hm, rfl, -⟩, -⟩
    exact absurd (List.find?_eq_none.1 hget m hm) (by simp)
  | some m =>
    have hm : m ∈ g.modules := List.mem_of_find?_eq_some hget
    obtain rfl : m.id = a := by simpa using List.find?_some hget
    show b ∈ m.dependencies.filter g.contains ↔ _
    rw [List.mem_filter, contains_iff, Module.dependencies, List.mem_eraseDups]
    exact and_congr_left fun _ =>
      ⟨fun hb => ⟨m, hm, rfl, hb⟩, fun hb => mem_targets_of_linksTo hg hm hb⟩

theorem next_subset (g : ModuleGraph) (a : ModuleId) : g.next a ⊆ g.ids := by
  intro b hb
  unfold next at hb
  split at hb
  · exact contains_iff.1 (List.mem_filter.1 hb).2
  · exact absurd hb List.not_mem_nil

/-- A chain of links ends in the graph or goes through it. -/
theorem mem_ids_of_chain (h : TransGen g.LinksTo a b) : a ∈ g.ids := by
  obtain ⟨c, ⟨m, hm, rfl, -⟩, -⟩ := TransGen.head'_iff.1 h
  exact List.mem_map_of_mem hm

/-- Chains of links between modules of the graph. -/
theorem chain_iff (hg : g.ids.Nodup) :
    TransGen (fun a b => b ∈ g.next a) a b ↔ TransGen g.LinksTo a b ∧ b ∈ g.ids := by
  constructor
  · intro h
    refine ⟨TransGen.mono (fun _ _ hab => ((mem_next_iff hg).1 hab).1) _ _ h, ?_⟩
    obtain ⟨c, -, hcb⟩ := TransGen.tail'_iff.1 h
    exact g.next_subset c hcb
  · rintro ⟨h, hb⟩
    induction h using TransGen.head_induction_on with
    | single hab => exact .single ((mem_next_iff hg).2 ⟨hab, hb⟩)
    | head hac hcb ih => exact .head ((mem_next_iff hg).2 ⟨hac, mem_ids_of_chain hcb⟩) ih

/-- A search from a module has come to some modules; where it can go on is its frontier. -/
structure Searched (g : ModuleGraph) (start : ModuleId) (seen frontier : List ModuleId) : Prop where
  nodup : seen.Nodup
  sound : ∀ b ∈ seen, TransGen (fun a b => b ∈ g.next a) start b
  frontier_mem : ∀ a ∈ frontier, a = start ∨ a ∈ seen
  closed : ∀ a, a = start ∨ a ∈ seen → a ∈ frontier ∨ g.next a ⊆ seen

theorem searched_start (g : ModuleGraph) (start : ModuleId) : g.Searched start [] [start] where
  nodup := .nil
  sound := fun _ h => absurd h List.not_mem_nil
  frontier_mem := fun _ h => .inl (List.mem_singleton.1 h)
  closed := by
    rintro a (rfl | h)
    · exact .inl (List.mem_singleton_self _)
    · exact absurd h List.not_mem_nil

section Search

variable {start : ModuleId} {seen frontier found : List ModuleId}

/-- What is found behind the frontier is new. -/
theorem mem_found
    (hfound : (frontier.flatMap g.next).eraseDups.filter (fun id => !seen.contains id) = found) :
    b ∈ found ↔ (∃ a ∈ frontier, b ∈ g.next a) ∧ b ∉ seen := by
  rw [← hfound, List.mem_filter, List.mem_eraseDups, List.mem_flatMap]
  simp

theorem Searched.step (h : g.Searched start seen frontier)
    (hfound : (frontier.flatMap g.next).eraseDups.filter (fun id => !seen.contains id) = found) :
    g.Searched start (seen ++ found) found where
  nodup := by
    refine h.nodup.append (hfound ▸ (nodup_eraseDups _).filter _) fun b hseen hb => ?_
    exact ((mem_found hfound).1 hb).2 hseen
  sound := by
    refine List.forall_mem_append.2 ⟨h.sound, fun b hb => ?_⟩
    obtain ⟨⟨a, ha, hab⟩, -⟩ := (mem_found hfound).1 hb
    rcases h.frontier_mem a ha with rfl | ha
    · exact .single hab
    · exact (h.sound a ha).tail hab
  frontier_mem := fun a ha => .inr (List.mem_append_right _ ha)
  closed := by
    intro a ha
    have hold : a = start ∨ a ∈ seen → g.next a ⊆ seen ++ found := by
      intro ha b hb
      by_cases hseen : b ∈ seen
      · exact List.mem_append_left _ hseen
      · rcases h.closed a ha with hfrontier | hclosed
        · exact List.mem_append_right _ ((mem_found hfound).2 ⟨⟨a, hfrontier, hb⟩, hseen⟩)
        · exact absurd (hclosed hb) hseen
    rcases ha with rfl | ha
    · exact .inr (hold (.inl rfl))
    · rcases List.mem_append.1 ha with ha | ha
      · exact .inr (hold (.inr ha))
      · exact .inl ha

/-- A search that has gone far enough has come to all modules behind its start. -/
theorem Searched.mem_iff (h : g.Searched start seen frontier) {n : Nat}
    (hn : g.modules.length < seen.length + n) :
    b ∈ g.reachFrom n seen frontier ↔ TransGen (fun a b => b ∈ g.next a) start b := by
  induction n generalizing seen frontier with
  | zero =>
    have hsubset : seen ⊆ g.ids := by
      intro b hb
      obtain ⟨c, -, hcb⟩ := TransGen.tail'_iff.1 (h.sound b hb)
      exact g.next_subset c hcb
    have hlength := (List.subperm_of_subset h.nodup hsubset).length_le
    unfold ids at hlength
    rw [List.length_map] at hlength
    omega
  | succ n ih =>
    unfold reachFrom
    generalize hfound :
      (frontier.flatMap g.next).eraseDups.filter (fun id => !seen.contains id) = found
    have hstep := h.step hfound
    cases found with
    | nil =>
      -- nothing is new, so what was seen is closed
      rw [List.append_nil] at hstep
      have hclosed : ∀ a, a = start ∨ a ∈ seen → g.next a ⊆ seen :=
        fun a ha => (hstep.closed a ha).resolve_left List.not_mem_nil
      refine ⟨hstep.sound b, fun hchain => ?_⟩
      clear ih
      induction hchain with
      | single hb => exact hclosed start (.inl rfl) hb
      | tail _ hb ih => exact hclosed _ (.inr ih) hb
    | cons c rest =>
      refine ih hstep ?_
      rw [List.length_append, List.length_cons]
      omega

end Search

/-- Following links from a module comes to those that chains of links lead to. -/
theorem mem_reachable_iff (hg : g.ids.Nodup) :
    b ∈ g.reachable a ↔ TransGen g.LinksTo a b ∧ b ∈ g.ids := by
  rw [← chain_iff hg]
  exact (g.searched_start a).mem_iff (by simp)

/-! ## Groups -/

/-- A module comes before another one in the graph. -/
def Precedes (g : ModuleGraph) (a b : ModuleId) : Prop := g.ids.idxOf a < g.ids.idxOf b

/-- Groups of modules are the import cycles of a graph, in its order. -/
structure ListsCycles (g : ModuleGraph) (groups : List (List ModuleId)) : Prop where
  /-- No group is empty. -/
  nonempty : [] ∉ groups
  /-- The modules in the groups are those that a chain of links leads back to. -/
  mem_iff : ∀ a, (∃ group ∈ groups, a ∈ group) ↔ TransGen g.LinksTo a a
  /-- Modules are in one group exactly if chains of links lead from each of them to the other. -/
  together : ∀ a b, (∃ group ∈ groups, a ∈ group ∧ b ∈ group) ↔
    TransGen g.LinksTo a b ∧ TransGen g.LinksTo b a
  /-- No module is listed twice. -/
  nodup : groups.flatten.Nodup
  /-- The members of a group are in the order of the graph. -/
  members : ∀ group ∈ groups, group.Pairwise g.Precedes
  /-- The groups are in the order of their first members. -/
  ordered : groups.Pairwise fun first second =>
    ∀ a ∈ first.head?, ∀ b ∈ second.head?, g.Precedes a b

/-- A module is in a group with itself if it is in a group. -/
theorem exists_mem_iff_of_together {groups : List (List ModuleId)}
    (h : ∀ a b, (∃ group ∈ groups, a ∈ group ∧ b ∈ group) ↔
      TransGen g.LinksTo a b ∧ TransGen g.LinksTo b a) (a : ModuleId) :
    (∃ group ∈ groups, a ∈ group) ↔ TransGen g.LinksTo a a := by
  simpa only [and_self] using h a a

section Lists

variable {groups groups' : List (List ModuleId)} {group group' : List ModuleId}

theorem nodup_of_precedes (h : group.Pairwise g.Precedes) : group.Nodup :=
  h.imp fun hlt heq => by
    rw [heq] at hlt
    exact Nat.lt_irrefl _ hlt

/-- Modules are listed in the order of the graph in one way. -/
theorem eq_of_precedes (h : group.Pairwise g.Precedes) (h' : group'.Pairwise g.Precedes)
    (hmem : ∀ a, a ∈ group ↔ a ∈ group') : group = group' := by
  have hperm := (List.perm_ext_iff_of_nodup (nodup_of_precedes h) (nodup_of_precedes h')).2 hmem
  exact List.Perm.eq_of_pairwise (fun _ _ _ _ hab hba => absurd hba (Nat.lt_asymm hab)) h h' hperm

namespace ListsCycles

/-- The members of a group are the modules that one of them shares a cycle with. -/
theorem mem_group_iff (h : g.ListsCycles groups) (hgroup : group ∈ groups) (ha : a ∈ group) :
    b ∈ group ↔ TransGen g.LinksTo a b ∧ TransGen g.LinksTo b a := by
  constructor
  · exact fun hb => (h.together a b).1 ⟨group, hgroup, ha, hb⟩
  · intro hab
    obtain ⟨other, hother, ha', hb⟩ := (h.together a b).2 hab
    have hsymm : Std.Symm (List.Disjoint (α := ModuleId)) := ⟨fun _ _ h _ hb ha => h ha hb⟩
    have hdisjoint := (List.nodup_flatten.1 h.nodup).2
    by_cases heq : group = other
    · exact heq ▸ hb
    · exact absurd ha' ((hdisjoint.forall hgroup hother heq) ha)

/-- A group of one list is a group of any other. -/
theorem subset (h : g.ListsCycles groups) (h' : g.ListsCycles groups') : groups ⊆ groups' := by
  intro group hgroup
  obtain ⟨a, ha⟩ := List.exists_mem_of_ne_nil group fun hnil => h.nonempty (hnil ▸ hgroup)
  obtain ⟨group', hgroup', ha'⟩ := (h'.mem_iff a).2 ((h.mem_iff a).1 ⟨group, hgroup, ha⟩)
  have heq : group = group' := eq_of_precedes (h.members group hgroup) (h'.members group' hgroup')
    fun b => (h.mem_group_iff hgroup ha).trans (h'.mem_group_iff hgroup' ha').symm
  exact heq ▸ hgroup'

/-- The order of the groups, as an order of lists that are not empty. -/
theorem nodup_groups (h : g.ListsCycles groups) : groups.Nodup := by
  refine h.ordered.imp_of_mem fun {first second} hfirst _ hlt heq => ?_
  obtain ⟨a, ha⟩ := Option.ne_none_iff_exists'.1
    (mt List.head?_eq_none_iff.1 fun hnil => h.nonempty (hnil ▸ hfirst))
  exact Nat.lt_irrefl _ (hlt a ha a (heq ▸ ha))

/-- The import cycles are listed in one way. -/
theorem unique (h : g.ListsCycles groups) (h' : g.ListsCycles groups') : groups = groups' := by
  have hperm := (List.perm_ext_iff_of_nodup h.nodup_groups h'.nodup_groups).2 fun group =>
    ⟨fun hgroup => h.subset h' hgroup, fun hgroup => h'.subset h hgroup⟩
  refine List.Perm.eq_of_pairwise (fun first second hfirst hsecond hlt hgt => ?_)
    h.ordered h'.ordered hperm
  obtain ⟨a, ha⟩ := Option.ne_none_iff_exists'.1
    (mt List.head?_eq_none_iff.1 fun hnil => h.nonempty (hnil ▸ hfirst))
  obtain ⟨b, hb⟩ := Option.ne_none_iff_exists'.1
    (mt List.head?_eq_none_iff.1 fun hnil => h'.nonempty (hnil ▸ hsecond))
  exact absurd (hgt b hb a ha) (Nat.lt_asymm (hlt a ha b hb))

end ListsCycles

end Lists

/-! ## The groups that are listed -/

/-- The modules that a module imports circularly, in the order of the graph. -/
def circle (g : ModuleGraph) (a : ModuleId) : List ModuleId :=
  g.ids.filter fun b => (g.reachable a).contains b && (g.reachable b).contains a

/-- A circle is listed at its first member. -/
def circleFrom? (g : ModuleGraph) (a : ModuleId) : Option (List ModuleId) :=
  if (g.circle a).head? = some a then some (g.circle a) else none

theorem circleFrom?_eq_some {group : List ModuleId} :
    g.circleFrom? a = some group ↔ (g.circle a).head? = some a ∧ g.circle a = group := by
  unfold circleFrom?
  rw [Option.ite_none_right_eq_some, Option.some_inj]

theorem importCycles_eq (g : ModuleGraph) : g.importCycles = g.ids.filterMap g.circleFrom? := by
  have hrow : ∀ a, circularWith g.reachTable (a, g.reachable a) = g.circle a := by
    intro a
    unfold circularWith reachTable circle
    rw [List.filter_map, List.map_map]
    exact List.map_id _
  unfold importCycles
  dsimp only
  conv_lhs => enter [2]; unfold reachTable
  rw [List.filterMap_map]
  refine List.filterMap_congr fun a _ => ?_
  show (if (circularWith g.reachTable (a, g.reachable a)).head? = some a
    then some (circularWith g.reachTable (a, g.reachable a)) else none) = g.circleFrom? a
  unfold circleFrom?
  rw [hrow]

theorem pairwise_precedes (hg : g.ids.Nodup) : g.ids.Pairwise g.Precedes := by
  refine List.pairwise_iff_getElem.2 fun i j hi hj hij => ?_
  unfold Precedes
  rw [hg.idxOf_getElem i hi, hg.idxOf_getElem j hj]
  exact hij

section Circles

variable (hg : g.ids.Nodup)

include hg

theorem mem_circle_iff : b ∈ g.circle a ↔ TransGen g.LinksTo a b ∧ TransGen g.LinksTo b a := by
  unfold circle
  rw [List.mem_filter, Bool.and_eq_true, List.contains_iff_mem, List.contains_iff_mem,
    mem_reachable_iff hg, mem_reachable_iff hg]
  exact ⟨fun h => ⟨h.2.1.1, h.2.2.1⟩, fun h => ⟨mem_ids_of_chain h.2, ⟨h.1, mem_ids_of_chain h.2⟩,
    h.2, mem_ids_of_chain h.1⟩⟩

/-- The members of a circle have the same circle. -/
theorem circle_eq (h : b ∈ g.circle a) : g.circle b = g.circle a := by
  obtain ⟨hab, hba⟩ := (mem_circle_iff hg).1 h
  refine eq_of_precedes ((pairwise_precedes hg).filter _) ((pairwise_precedes hg).filter _) fun c => ?_
  rw [mem_circle_iff hg, mem_circle_iff hg]
  exact ⟨fun ⟨hbc, hcb⟩ => ⟨hab.trans hbc, hcb.trans hba⟩,
    fun ⟨hac, hca⟩ => ⟨hba.trans hac, hca.trans hab⟩⟩

/-- The circles with a member are listed. -/
theorem mem_importCycles_iff {group : List ModuleId} :
    group ∈ g.importCycles ↔ ∃ a ∈ group, g.circle a = group := by
  rw [importCycles_eq, List.mem_filterMap]
  constructor
  · rintro ⟨a, -, h⟩
    obtain ⟨hhead, rfl⟩ := circleFrom?_eq_some.1 h
    exact ⟨a, List.mem_of_mem_head? hhead, rfl⟩
  · rintro ⟨a, ha, rfl⟩
    obtain ⟨first, hfirst⟩ := Option.ne_none_iff_exists'.1
      (mt List.head?_eq_none_iff.1 (List.ne_nil_of_mem ha))
    have hmem := List.mem_of_mem_head? hfirst
    refine ⟨first, (List.mem_filter.1 hmem).1, ?_⟩
    exact circleFrom?_eq_some.2 ⟨by rw [circle_eq hg hmem, hfirst], circle_eq hg hmem⟩

/-- The groups that are listed are the import cycles. -/
theorem listsCycles_importCycles : g.ListsCycles g.importCycles := by
  have hcircle : ∀ a, TransGen g.LinksTo a a → g.circle a ∈ g.importCycles ∧ a ∈ g.circle a := by
    intro a h
    have ha := (mem_circle_iff hg).2 ⟨h, h⟩
    exact ⟨(mem_importCycles_iff hg).2 ⟨a, ha, rfl⟩, ha⟩
  have hgroup : ∀ {group}, group ∈ g.importCycles → ∀ a ∈ group, g.circle a = group := by
    intro group hgroup a ha
    obtain ⟨c, -, rfl⟩ := (mem_importCycles_iff hg).1 hgroup
    exact circle_eq hg ha
  have htogether : ∀ a b, (∃ group ∈ g.importCycles, a ∈ group ∧ b ∈ group) ↔
      TransGen g.LinksTo a b ∧ TransGen g.LinksTo b a := by
    intro a b
    constructor
    · rintro ⟨group, hmem, ha, hb⟩
      rw [← hgroup hmem a ha] at hb
      exact (mem_circle_iff hg).1 hb
    · intro h
      obtain ⟨hmem, ha⟩ := hcircle a (h.1.trans h.2)
      exact ⟨_, hmem, ha, (mem_circle_iff hg).2 h⟩
  have hordered := pairwise_precedes hg
  refine ⟨?_, fun a => ?_, htogether, ?_, ?_, ?_⟩
  · intro hnil
    obtain ⟨a, ha, -⟩ := (mem_importCycles_iff hg).1 hnil
    exact List.not_mem_nil ha
  · exact exists_mem_iff_of_together htogether a
  · refine List.nodup_flatten.2 ⟨fun group hmem => ?_, ?_⟩
    · obtain ⟨a, -, rfl⟩ := (mem_importCycles_iff hg).1 hmem
      exact hg.filter _
    · rw [importCycles_eq, List.pairwise_filterMap]
      refine hordered.imp fun {a b} hab first hfirst second hsecond c hc hc' => ?_
      obtain ⟨ha, rfl⟩ := circleFrom?_eq_some.1 hfirst
      obtain ⟨hb, rfl⟩ := circleFrom?_eq_some.1 hsecond
      -- circles with a common member have one first member
      rw [← circle_eq hg hc, circle_eq hg hc', hb] at ha
      rw [Option.some.inj ha] at hab
      exact Nat.lt_irrefl _ hab
  · intro group hmem
    obtain ⟨a, -, rfl⟩ := (mem_importCycles_iff hg).1 hmem
    exact hordered.filter _
  · rw [importCycles_eq, List.pairwise_filterMap]
    refine hordered.imp fun {a b} hab first hfirst second hsecond c hc d hd => ?_
    obtain ⟨ha, rfl⟩ := circleFrom?_eq_some.1 hfirst
    obtain ⟨hb, rfl⟩ := circleFrom?_eq_some.1 hsecond
    obtain rfl : c = a := Option.some.inj (hc.symm.trans ha)
    obtain rfl : d = b := Option.some.inj (hd.symm.trans hb)
    exact hab

end Circles

end ModuleGraph

end ModuleBundler
