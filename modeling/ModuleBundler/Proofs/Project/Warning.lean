import Mathlib.Data.List.Chain
import ModuleBundler.Project.Bundling
import ModuleBundler.Proofs.Module.Component

/-!
# What a warning about a cycle shows

A warning names the members of a group in the order of the graph, then the first of them again, with an
arrow from each to the next one.  That order is not made from the links, so an arrow need not be a link.

* `GoesRound` — a chain leads through all members of a group and back to where it begins;
* `ModuleGraph.isChain_cycleChain_iff` — the arrows lead from each member to the one that comes next in
  the graph (`ModuleGraph.Follows`);
* **`ModuleGraph.circularGroups_shown`** — an arrow stands for a chain of links inside of the group, and
  all arrows are links exactly if each member links to the one that comes next, as it does in a group
  of one or two.
-/

namespace ModuleBundler

open Relation

/-! ## Going round -/

/-- A chain goes round a group in steps: it ends where it begins, it has the members of the group and
nothing else, and one step leads from each of its places to the next. -/
structure GoesRound {α : Type} (step : α → α → Prop) (group chain : List α) : Prop where
  closed : ∃ a inner, chain = a :: (inner ++ [a])
  only : ∀ a ∈ chain, a ∈ group
  all : ∀ a ∈ group, a ∈ chain
  steps : chain.IsChain step

/-- Whoever is on a chain that goes round can be reached from all others on it. -/
theorem GoesRound.reaches {α : Type} {step : α → α → Prop} {group chain : List α}
    (h : GoesRound step group chain) {a b : α} (ha : a ∈ group) (hb : b ∈ group) :
    ReflTransGen step a b := by
  obtain ⟨first, inner, rfl⟩ := h.closed
  have hpairs : (first :: (inner ++ [first])).Pairwise (ReflTransGen step) :=
    List.isChain_iff_pairwise.1 (h.steps.imp fun _ _ => .single)
  obtain ⟨hfrom, hinner⟩ := List.pairwise_cons.1 hpairs
  have hto : ∀ c ∈ inner, ReflTransGen step c first := fun c hc =>
    (List.pairwise_append.1 hinner).2.2 c hc first (List.mem_singleton_self _)
  have hback : ReflTransGen step a first := by
    rcases List.mem_cons.1 (h.all a ha) with rfl | ha
    · exact .refl
    · rcases List.mem_append.1 ha with ha | ha
      · exact hto a ha
      · rw [List.mem_singleton.1 ha]
  rcases List.mem_cons.1 (h.all b hb) with rfl | hb
  · exact hback
  · exact hback.trans (hfrom b hb)

/-- The modules that the text of a group names, one behind the other. -/
def cycleChain (group : List ModuleId) : List ModuleId := group ++ group.take 1

section Chain

variable {group : List ModuleId} {step : ModuleId → ModuleId → Prop}

/-- The chain of a group ends where it begins, and has the members of the group. -/
theorem goesRound_cycleChain_iff (hgroup : group ≠ []) :
    GoesRound step group (cycleChain group) ↔ (cycleChain group).IsChain step := by
  refine ⟨GoesRound.steps, fun hsteps => ⟨?_, fun a ha => ?_, fun a => List.mem_append_left _, hsteps⟩⟩
  · obtain ⟨first, rest, rfl⟩ := List.exists_cons_of_ne_nil hgroup
    exact ⟨first, rest, rfl⟩
  · exact (List.mem_append.1 ha).elim id List.mem_of_mem_take

end Chain

namespace ModuleGraph

variable {g : ModuleGraph} {group : List ModuleId} {a b : ModuleId}

/-! ## The order of the members -/

/-- A member of a group is followed by the member that comes next in the graph, and the last one by the
first one. -/
inductive Follows (g : ModuleGraph) (group : List ModuleId) : ModuleId → ModuleId → Prop
  | next {a b : ModuleId} : a ∈ group → b ∈ group → g.Precedes a b →
      (∀ c ∈ group, g.Precedes a c → ¬ g.Precedes c b) → Follows g group a b
  | around {a b : ModuleId} : a ∈ group → b ∈ group → (∀ c ∈ group, ¬ g.Precedes a c) →
      (∀ c ∈ group, ¬ g.Precedes c b) → Follows g group a b

/-- Of two parts of a list in the order of the graph, nothing in the second precedes anything in the
first. -/
theorem not_precedes_of_append {first second : List ModuleId}
    (h : (first ++ second).Pairwise g.Precedes) (ha : a ∈ first) (hb : b ∈ second) :
    ¬ g.Precedes b a :=
  Nat.lt_asymm ((List.pairwise_append.1 h).2.2 a ha b hb)

/-- In a list in the order of the graph, a member stands behind those that precede it. -/
theorem mem_of_precedes {before after : List ModuleId}
    (h : (before ++ a :: after).Pairwise g.Precedes) (hb : b ∈ before ++ a :: after)
    (hab : g.Precedes a b) : b ∈ after := by
  rcases List.mem_append.1 hb with hb | hb
  · exact absurd hab (not_precedes_of_append h hb List.mem_cons_self)
  · rcases List.mem_cons.1 hb with rfl | hb
    · exact absurd hab (Nat.lt_irrefl _)
    · exact hb

/-- Members that stand next to each other follow each other. -/
theorem follows_of_append {before after : List ModuleId}
    (h : (before ++ a :: b :: after).Pairwise g.Precedes) :
    g.Follows (before ++ a :: b :: after) a b := by
  have hrest := List.pairwise_cons.1 (List.pairwise_append.1 h).2.1
  refine .next (by simp) (by simp) (hrest.1 b List.mem_cons_self) fun c hc hac hcb => ?_
  rcases List.mem_cons.1 (mem_of_precedes h hc hac) with rfl | hc
  · exact Nat.lt_irrefl _ hcb
  · exact Nat.lt_asymm ((List.pairwise_cons.1 hrest.2).1 c hc) hcb

/-- The last member is followed by the first one. -/
theorem follows_of_last {before rest : List ModuleId} (h : (b :: rest).Pairwise g.Precedes)
    (hlast : b :: rest = before ++ [a]) : g.Follows (b :: rest) a b := by
  refine .around (hlast ▸ by simp) List.mem_cons_self (fun c hc hac => ?_) fun c hc hcb => ?_
  · rw [hlast] at h hc
    exact List.not_mem_nil (mem_of_precedes h hc hac)
  · rcases List.mem_cons.1 hc with rfl | hc
    · exact Nat.lt_irrefl _ hcb
    · exact Nat.lt_asymm ((List.pairwise_cons.1 h).1 c hc) hcb

/-- A member that none precedes is the first one. -/
theorem take_one_of_first (h : group.Pairwise g.Precedes) (hb : b ∈ group)
    (hfirst : ∀ c ∈ group, ¬ g.Precedes c b) : group.take 1 = [b] := by
  obtain ⟨front, rest, rfl⟩ := List.append_of_mem hb
  cases front with
  | nil => rfl
  | cons c front =>
    have hcb := (List.pairwise_append.1 h).2.2 c List.mem_cons_self b List.mem_cons_self
    exact absurd hcb (hfirst c (by simp))

/-- What follows a member is what the text of the group names next. -/
theorem follows_iff (h : group.Pairwise g.Precedes) :
    g.Follows group a b ↔ ∃ before after, cycleChain group = before ++ a :: b :: after := by
  constructor
  · rintro (⟨ha, hb, hab, hnone⟩ | ⟨ha, hb, hlast, hfirst⟩)
    · obtain ⟨before, rest, rfl⟩ := List.append_of_mem ha
      have hb' := mem_of_precedes h hb hab
      cases rest with
      | nil => exact absurd hb' List.not_mem_nil
      | cons c after =>
        -- what stands right behind `a` is `b`, because nothing is between them
        rcases List.mem_cons.1 hb' with rfl | hb'
        · exact ⟨before, after ++ (before ++ a :: b :: after).take 1, by simp [cycleChain]⟩
        · have hrest := List.pairwise_cons.1 (List.pairwise_append.1 h).2.1
          have hcb := (List.pairwise_cons.1 hrest.2).1 b hb'
          exact absurd hcb (hnone c (by simp) (hrest.1 c List.mem_cons_self))
    · have hhead := take_one_of_first h hb hfirst
      obtain ⟨before, after, rfl⟩ := List.append_of_mem ha
      have hafter : after = [] := by
        refine List.eq_nil_iff_forall_not_mem.2 fun c hc => hlast c (by simp [hc]) ?_
        exact (List.pairwise_cons.1 (List.pairwise_append.1 h).2.1).1 c hc
      exact ⟨before, [], by rw [cycleChain, hhead, hafter]; simp⟩
  · rintro ⟨before, after, hchain⟩
    cases group with
    | nil => cases before <;> cases hchain
    | cons first rest =>
      have hchain : first :: rest ++ [first] = before ++ a :: b :: after := hchain
      -- the last arrow leads back to the first member, the others are inside of the group
      rcases List.eq_nil_or_concat' after with rfl | ⟨front, last, rfl⟩
      · rw [List.append_cons before a [b]] at hchain
        obtain ⟨hlast, hb⟩ := List.append_inj' hchain rfl
        obtain rfl : first = b := List.singleton_inj.1 hb
        exact follows_of_last h hlast
      · rw [← List.cons_append, ← List.cons_append, ← List.append_assoc] at hchain
        obtain ⟨hmembers, -⟩ := List.append_inj' hchain rfl
        rw [hmembers] at h ⊢
        exact follows_of_append h

/-- The arrows of a group lead from each member to the one that follows it. -/
theorem isChain_cycleChain_iff {step : ModuleId → ModuleId → Prop} (h : group.Pairwise g.Precedes) :
    (cycleChain group).IsChain step ↔ ∀ a b, g.Follows group a b → step a b := by
  rw [List.isChain_iff_forall_rel_of_append_cons_cons]
  constructor
  · intro hsteps a b hab
    obtain ⟨before, after, hchain⟩ := (follows_iff h).1 hab
    exact hsteps hchain
  · intro hsteps a b before after hchain
    exact hsteps a b ((follows_iff h).2 ⟨before, after, hchain⟩)

/-! ## Links inside of a group -/

/-- A module of a group links to another one of it, or to itself. -/
def LinksWithin (g : ModuleGraph) (group : List ModuleId) (a b : ModuleId) : Prop :=
  a ∈ group ∧ b ∈ group ∧ g.LinksTo a b

/-- A chain of links between two members of a group does not leave the group. -/
theorem ListsCycles.chain_within {groups : List (List ModuleId)} (h : g.ListsCycles groups)
    (hgroup : group ∈ groups) (ha : a ∈ group) (hb : b ∈ group) :
    TransGen (g.LinksWithin group) a b := by
  obtain ⟨hab, -⟩ := (h.mem_group_iff hgroup ha).1 hb
  induction hab using TransGen.head_induction_on with
  | @single a hlink => exact .single ⟨ha, hb, hlink⟩
  | @head a c hlink hchain ih =>
    -- the next module leads back to `a` through `b`
    have hback := ((h.mem_group_iff hgroup hb).1 ha).1
    have hc := (h.mem_group_iff hgroup ha).2 ⟨.single hlink, hchain.trans hback⟩
    exact .head ⟨ha, hc, hlink⟩ (ih hc)

/-- If a group has no other members than two, a chain of links from the one to the other is a link. -/
theorem linksTo_of_chain_within (h : TransGen (g.LinksWithin group) a b)
    (hgroup : ∀ c ∈ group, c = a ∨ c = b) : g.LinksTo a b := by
  have hend : ∀ c, TransGen (g.LinksWithin group) a c → c = b → g.LinksTo a b := by
    intro c hchain
    induction hchain with
    | single hlink =>
      rintro rfl
      exact hlink.2.2
    | tail _ hlink ih =>
      rintro rfl
      rcases hgroup _ hlink.1 with rfl | rfl
      · exact hlink.2.2
      · exact ih rfl
  exact hend b h rfl

/-- Two members of a group of at most two link to each other, and one alone links to itself. -/
theorem isChain_cycleChain_of_length_le (hlength : group.length ≤ 2)
    (hwithin : ∀ a ∈ group, ∀ b ∈ group, TransGen (g.LinksWithin group) a b) :
    (cycleChain group).IsChain g.LinksTo := by
  match group with
  | [] => exact .nil
  | [a] =>
    have ha := List.mem_singleton_self a
    have hlink := linksTo_of_chain_within (hwithin a ha a ha) (by simp)
    exact List.isChain_cons_cons.2 ⟨hlink, .singleton _⟩
  | [a, b] =>
    have hab := linksTo_of_chain_within (hwithin a (by simp) b (by simp)) (by simp)
    have hba := linksTo_of_chain_within (hwithin b (by simp) a (by simp)) (by simp [or_comm])
    exact List.isChain_cons_cons.2 ⟨hab, List.isChain_cons_cons.2 ⟨hba, .singleton _⟩⟩

/-! ## What is shown -/

/-- The groups that warnings are about are those that are made of the components. -/
theorem circularGroups_eq_importCycles {components : Digraph → List (List Nat)} (hg : g.ids.Nodup)
    (h : g.digraph.Components (components g.digraph)) :
    g.circularGroups components = g.importCycles :=
  (listsCycles_circularGroups hg h).unique (listsCycles_importCycles hg)

/-- The warnings about a graph name its groups, each with an arrow from one module to the next.  What is
named goes round the group; an arrow stands for a chain of links inside of it.  All arrows are links
exactly if every member links to the one that follows it in the graph; in a group of one or two they
are. -/
theorem circularGroups_shown {components : Digraph → List (List Nat)} (hg : g.ids.Nodup)
    (h : g.digraph.Components (components g.digraph)) :
    (g.warnings = (g.circularGroups components).map fun group =>
      "Circular dependency detected: " ++ " -> ".intercalate ((cycleChain group).map ModuleId.text)) ∧
    ∀ group ∈ g.circularGroups components,
      GoesRound (TransGen (g.LinksWithin group)) group (cycleChain group) ∧
      (GoesRound g.LinksTo group (cycleChain group) ↔
        ∀ a b, g.Follows group a b → g.LinksTo a b) ∧
      (group.length ≤ 2 → GoesRound g.LinksTo group (cycleChain group)) := by
  have hgroups := listsCycles_circularGroups hg h
  refine ⟨?_, fun group hgroup => ?_⟩
  · rw [circularGroups_eq_importCycles hg h]
    rfl
  · have hne : group ≠ [] := fun hnil => hgroups.nonempty (hnil ▸ hgroup)
    have hordered := hgroups.members group hgroup
    have hwithin : ∀ a ∈ group, ∀ b ∈ group, TransGen (g.LinksWithin group) a b :=
      fun a ha b hb => hgroups.chain_within hgroup ha hb
    simp only [goesRound_cycleChain_iff hne]
    refine ⟨(isChain_cycleChain_iff hordered).2 fun a b hab => ?_,
      isChain_cycleChain_iff hordered, fun hlength => ?_⟩
    · cases hab with
      | next ha hb => exact hwithin a ha b hb
      | around ha hb => exact hwithin a ha b hb
    · exact isChain_cycleChain_of_length_le hlength hwithin

/-! ## Two orders of the same links -/

/-- A graph with a cycle through all of its modules is one component. -/
theorem components_of_goesRound (hg : g.modules ≠ []) {chain : List Nat}
    (h : GoesRound g.digraph.Edge (List.range g.modules.length) chain) :
    g.digraph.Components [List.range g.modules.length] := by
  have hreaches : ∀ a < g.modules.length, ∀ b < g.modules.length,
      ReflTransGen g.digraph.Edge a b := fun a ha b hb =>
    h.reaches (List.mem_range.2 ha) (List.mem_range.2 hb)
  refine ⟨?_, ?_, fun component hcomponent a ha b hb => ?_⟩
  · simpa using hg
  · simp [digraph]
  · rw [List.mem_singleton.1 hcomponent, List.mem_range] at ha ⊢
    exact iff_of_true hb ⟨hreaches a ha b hb, hreaches b hb a ha⟩

/-- All modules of a graph, as one component. -/
def wholeComponent (d : Digraph) : List (List Nat) := [List.range d.order]

/-- The first of three modules links to both others, the third to the second, and the second to the
first.  The cycle through all of them leaves the first for the third. -/
def crossedCycle : ModuleGraph where
  entry := .ofPath "/a"
  modules :=
    [⟨.ofPath "/a", [⟨"./b", .ofPath "/b"⟩, ⟨"./c", .ofPath "/c"⟩], ""⟩,
      ⟨.ofPath "/b", [⟨"./a", .ofPath "/a"⟩], ""⟩,
      ⟨.ofPath "/c", [⟨"./b", .ofPath "/b"⟩], ""⟩]

/-- The same modules, found in the order of the cycle because the first names the third before the
second. -/
def straightCycle : ModuleGraph where
  entry := .ofPath "/a"
  modules :=
    [⟨.ofPath "/a", [⟨"./c", .ofPath "/c"⟩, ⟨"./b", .ofPath "/b"⟩], ""⟩,
      ⟨.ofPath "/c", [⟨"./b", .ofPath "/b"⟩], ""⟩,
      ⟨.ofPath "/b", [⟨"./a", .ofPath "/a"⟩], ""⟩]

instance (g : ModuleGraph) (a b : ModuleId) : Decidable (g.LinksTo a b) :=
  inferInstanceAs (Decidable (∃ m ∈ g.modules, m.id = a ∧ b ∈ m.targets))

theorem crossedCycle_components :
    crossedCycle.digraph.Components (wholeComponent crossedCycle.digraph) := by
  have hedges : crossedCycle.digraph.edges = [(0, 1), (0, 2), (1, 0), (2, 1)] := by decide +kernel
  refine components_of_goesRound (List.cons_ne_nil _ _)
    ⟨⟨0, [2, 1], rfl⟩, by decide, by decide, ?_⟩
  unfold Digraph.Edge
  rw [hedges]
  decide

theorem straightCycle_components :
    straightCycle.digraph.Components (wholeComponent straightCycle.digraph) := by
  have hedges : straightCycle.digraph.edges = [(0, 1), (0, 2), (1, 2), (2, 0)] := by decide +kernel
  refine components_of_goesRound (List.cons_ne_nil _ _)
    ⟨⟨0, [1, 2], rfl⟩, by decide, by decide, ?_⟩
  unfold Digraph.Edge
  rw [hedges]
  decide

/-- The members of the cycle in the order in which the first graph has them. -/
def crossedGroup : List ModuleId := [.ofPath "/a", .ofPath "/b", .ofPath "/c"]

/-- The members of the cycle in the order of its links. -/
def straightGroup : List ModuleId := [.ofPath "/a", .ofPath "/c", .ofPath "/b"]

/-- The warning shows an arrow that is no link, although there is a cycle through the same modules. -/
theorem not_goesRound_of_crossed :
    crossedCycle.digraph.Components (wholeComponent crossedCycle.digraph) ∧
    crossedCycle.circularGroups wholeComponent = [crossedGroup] ∧
    crossedCycle.warnings = ["Circular dependency detected: /a -> /b -> /c -> /a"] ∧
    ¬ crossedCycle.LinksTo (.ofPath "/b") (.ofPath "/c") ∧
    ¬ GoesRound crossedCycle.LinksTo crossedGroup (cycleChain crossedGroup) ∧
    GoesRound crossedCycle.LinksTo crossedGroup (cycleChain straightGroup) := by
  have hcomponents := crossedCycle_components
  refine ⟨hcomponents, ?_, by decide +kernel, by decide +kernel, fun hround => ?_, ?_⟩
  · rw [circularGroups_eq_importCycles (by decide) hcomponents]
    decide +kernel
  · exact absurd hround.steps (by decide +kernel)
  · exact ⟨⟨.ofPath "/a", [.ofPath "/c", .ofPath "/b"], rfl⟩, by decide +kernel, by decide +kernel,
      by decide +kernel⟩

theorem straightCycle_shown :
    straightCycle.ids.Nodup ∧
    straightCycle.digraph.Components (wholeComponent straightCycle.digraph) ∧
    straightCycle.circularGroups wholeComponent = [straightGroup] ∧
    straightCycle.warnings = ["Circular dependency detected: /a -> /c -> /b -> /a"] ∧
    GoesRound straightCycle.LinksTo straightGroup (cycleChain straightGroup) := by
  have hg : straightCycle.ids.Nodup := by decide
  have hcomponents := straightCycle_components
  have hgroups : straightCycle.circularGroups wholeComponent = [straightGroup] := by
    rw [circularGroups_eq_importCycles hg hcomponents]
    decide +kernel
  obtain ⟨hwarnings, hgroup⟩ := circularGroups_shown hg hcomponents
  rw [hgroups] at hwarnings hgroup
  obtain ⟨-, hround, -⟩ := hgroup straightGroup (List.mem_singleton_self _)
  have hnext : ∀ a ∈ straightGroup, ∀ b ∈ straightGroup, straightCycle.Precedes a b →
      (∀ c ∈ straightGroup, straightCycle.Precedes a c → ¬ straightCycle.Precedes c b) →
      straightCycle.LinksTo a b := by
    unfold Precedes
    decide +kernel
  have haround : ∀ a ∈ straightGroup, ∀ b ∈ straightGroup,
      (∀ c ∈ straightGroup, ¬ straightCycle.Precedes a c) →
      (∀ c ∈ straightGroup, ¬ straightCycle.Precedes c b) → straightCycle.LinksTo a b := by
    unfold Precedes
    decide +kernel
  refine ⟨hg, hcomponents, hgroups, hwarnings.trans (by decide +kernel), hround.2 ?_⟩
  rintro a b (⟨ha, hb, hab, hnone⟩ | ⟨ha, hb, hlast, hfirst⟩)
  · exact hnext a ha b hb hab hnone
  · exact haround a ha b hb hlast hfirst

end ModuleGraph

end ModuleBundler
