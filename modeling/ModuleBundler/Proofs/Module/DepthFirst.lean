import ModuleBundler.Proofs.Module.BreadthFirst

/-!
# Depth-first order

`ModuleGraph.DepthFirst` says in which order a depth-first walk comes to the modules of a graph: a
module that was visited is passed over, and any other one is visited, then what its links lead to,
in the order of the links, and then what is left to do.

* `ModuleGraph.DepthFirst.unique` — there is one such order;
* `ModuleGraph.DepthFirst.nodup` — no module is visited twice;
* `ModuleGraph.DepthFirst.mem_iff` — from the entry, the modules visited are those that a chain of
  links leads to.
-/

namespace ModuleBundler.ModuleGraph

open Relation

/-- A depth-first walk of the modules `todo` and of what they lead to, after the modules `seen` were
visited: `after` lists all that are visited then, in the order of their visits. -/
inductive DepthFirst (g : ModuleGraph) :
    (todo : List ModuleId) → (seen : List ModuleId) → (after : List ModuleId) → Prop
  | done {seen : List ModuleId} : DepthFirst g [] seen seen
  | skip {id : ModuleId} {todo seen after : List ModuleId} : id ∈ seen →
      DepthFirst g todo seen after → DepthFirst g (id :: todo) seen after
  | visit {m : Module} {todo seen below after : List ModuleId} : m ∈ g.modules → m.id ∉ seen →
      DepthFirst g m.targets (seen ++ [m.id]) below → DepthFirst g todo below after →
      DepthFirst g (m.id :: todo) seen after

/-- No chain of links leads from a module back to itself. -/
def Acyclic (g : ModuleGraph) : Prop := ∀ id, ¬ TransGen g.LinksTo id id

variable {g : ModuleGraph} {m : Module} {id a b : ModuleId}

/-- A module is known by its id. -/
theorem eq_of_id_eq (hg : g.ids.Nodup) {m m' : Module} (hm : m ∈ g.modules)
    (hm' : m' ∈ g.modules) (h : m.id = m'.id) : m = m' :=
  List.inj_on_of_nodup_map hg hm hm' h

/-- The links of a module lead to its targets. -/
theorem mem_targets_of_linksTo (hg : g.ids.Nodup) (hm : m ∈ g.modules) (h : g.LinksTo m.id b) :
    b ∈ m.targets := by
  obtain ⟨m', hm', hid, hb⟩ := h
  rw [eq_of_id_eq hg hm' hm hid] at hb
  exact hb

namespace DepthFirst

variable {todo seen after after' : List ModuleId}

/-- What was visited before comes first. -/
theorem seen_prefix (h : g.DepthFirst todo seen after) : seen <+: after := by
  induction h with
  | done => exact List.prefix_refl _
  | skip _ _ ih => exact ih
  | visit _ _ _ _ ihbelow ih =>
    exact ((List.prefix_append _ _).trans ihbelow).trans ih

/-- A walk goes on with what is left to do. -/
theorem append {rest below : List ModuleId} (h : g.DepthFirst todo seen below)
    (hrest : g.DepthFirst rest below after) : g.DepthFirst (todo ++ rest) seen after := by
  induction h with
  | done => exact hrest
  | skip hseen _ ih => exact .skip hseen (ih hrest)
  | visit hm hnew hbelow _ _ ih => exact .visit hm hnew hbelow (ih hrest)

/-- Nothing is visited twice. -/
theorem nodup (h : g.DepthFirst todo seen after) (hseen : seen.Nodup) : after.Nodup := by
  induction h with
  | done => exact hseen
  | skip _ _ ih => exact ih hseen
  | visit _ hnew _ _ ihbelow ih =>
    rw [← List.concat_eq_append] at ihbelow
    exact ih (ihbelow (List.Nodup.concat hnew hseen))

/-- What is to do is visited. -/
theorem mem_of_todo (h : g.DepthFirst todo seen after) (hid : id ∈ todo) : id ∈ after := by
  induction h with
  | done => cases hid
  | skip hseen hrest ih =>
    rcases List.mem_cons.1 hid with rfl | hid
    · exact hrest.seen_prefix.subset hseen
    · exact ih hid
  | visit _ _ hbelow hrest _ ih =>
    rcases List.mem_cons.1 hid with rfl | hid
    · refine (hbelow.seen_prefix.trans hrest.seen_prefix).subset ?_
      exact List.mem_append_right _ (List.mem_singleton_self _)
    · exact ih hid

/-- What is visited was so before, or a chain of links leads to it from what is to do. -/
theorem reached (h : g.DepthFirst todo seen after) (hid : id ∈ after) :
    id ∈ seen ∨ ∃ a ∈ todo, ReflTransGen g.LinksTo a id := by
  induction h with
  | done => exact Or.inl hid
  | skip _ _ ih =>
    refine (ih hid).imp_right ?_
    rintro ⟨a, ha, hchain⟩
    exact ⟨a, List.mem_cons_of_mem _ ha, hchain⟩
  | @visit m todo seen below after hm _ _ _ ihbelow ih =>
    rcases ih hid with hbelow | ⟨a, ha, hchain⟩
    · rcases ihbelow hbelow with hseen | ⟨a, ha, hchain⟩
      · rcases List.mem_append.1 hseen with hseen | hself
        · exact Or.inl hseen
        · rw [List.mem_singleton.1 hself]
          exact Or.inr ⟨m.id, List.mem_cons_self, .refl⟩
      · have hlink : g.LinksTo m.id a := ⟨m, hm, rfl, ha⟩
        exact Or.inr ⟨m.id, List.mem_cons_self, .head hlink hchain⟩
    · exact Or.inr ⟨a, List.mem_cons_of_mem _ ha, hchain⟩

/-- What a module that is newly visited links to is visited as well. -/
theorem linked (hg : g.ids.Nodup) (h : g.DepthFirst todo seen after) (ha : a ∈ after)
    (hnew : a ∉ seen) (hab : g.LinksTo a b) : b ∈ after := by
  induction h with
  | done => exact absurd ha hnew
  | skip _ _ ih => exact ih ha hnew
  | @visit m todo seen below after hm _ hbelow hrest ihbelow ih =>
    by_cases hin : a ∈ below
    · refine hrest.seen_prefix.subset ?_
      by_cases hself : a = m.id
      · rw [hself] at hab
        exact hbelow.mem_of_todo (mem_targets_of_linksTo hg hm hab)
      · refine ihbelow hin fun hmem => ?_
        rcases List.mem_append.1 hmem with hseen | hlast
        · exact hnew hseen
        · exact hself (List.mem_singleton.1 hlast)
    · exact ih ha hin

/-- From one module on, what is visited is what a chain of links leads to. -/
theorem mem_iff (hg : g.ids.Nodup) (h : g.DepthFirst [a] [] after) :
    id ∈ after ↔ ReflTransGen g.LinksTo a id := by
  constructor
  · intro hid
    rcases h.reached hid with hseen | ⟨b, hb, hchain⟩
    · cases hseen
    · rw [List.mem_singleton.1 hb] at hchain
      exact hchain
  · intro hchain
    induction hchain with
    | refl => exact h.mem_of_todo (List.mem_singleton_self a)
    | tail _ hlink ih => exact h.linked hg ih (List.not_mem_nil) hlink

/-- A depth-first walk has one order. -/
theorem unique (hg : g.ids.Nodup) (h : g.DepthFirst todo seen after)
    (h' : g.DepthFirst todo seen after') : after = after' := by
  induction h generalizing after' with
  | done =>
    cases h'
    rfl
  | skip hseen _ ih =>
    cases h' with
    | skip _ hrest => exact ih hrest
    | visit _ hnew _ _ => exact absurd hseen hnew
  | @visit m todo seen below after hm hnew _ _ ihbelow ih =>
    generalize hid : m.id = first at h'
    cases h' with
    | skip hseen _ =>
      rw [← hid] at hseen
      exact absurd hseen hnew
    | @visit m' _ _ below' _ hm' _ hbelow hrest =>
      obtain rfl := eq_of_id_eq hg hm hm' hid
      rw [ihbelow hbelow] at ih
      exact ih hrest

end DepthFirst

end ModuleBundler.ModuleGraph
