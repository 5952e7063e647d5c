import ModuleBundler.Proofs.Module.BreadthFirst

/-!
# Breadth-first orders

A table says which module each id has.  The ids that an entry leads to then have a breadth-first
order (`BreadthFirst`), whether or not a build would get through them:

* `breadthFirst_iff` — the order lists the entry and all targets in order of first appearance, and
  each id is the entry or a target of an earlier id;
* `BreadthFirst.prefix_of_listed` — what the first few ids lead to stands at the beginning;
* `BreadthFirst.unique` and `exists_breadthFirst` — there is one such order, if the entry leads to
  finitely many ids.

What is known of graphs in breadth-first order, such as `ModuleGraph.Discovered.distances`, holds
for the graph of the ids (`ModuleGraph.ofTable`).
-/

namespace ModuleBundler

/-- The graph of some ids, with the modules that a table has for them. -/
def ModuleGraph.ofTable (table : ModuleId → Module) (entry : ModuleId) (ids : List ModuleId) :
    ModuleGraph := ⟨entry, ids.map table⟩

/-- `order` is the breadth-first order of the ids that the entry leads to. -/
def BreadthFirst (table : ModuleId → Module) (entry : ModuleId) (order : List ModuleId) : Prop :=
  (ModuleGraph.ofTable table entry order).Discovered

/-- The entry, and what some ids lead to. -/
def metFrom (table : ModuleId → Module) (entry : ModuleId) (ids : List ModuleId) : List ModuleId :=
  entry :: ids.flatMap fun id => (table id).targets

variable {table : ModuleId → Module} {entry : ModuleId} {order visited queued : List ModuleId}

theorem metFrom_append (table : ModuleId → Module) (entry : ModuleId) (ids more : List ModuleId) :
    metFrom table entry (ids ++ more) =
      metFrom table entry ids ++ more.flatMap fun id => (table id).targets := by
  unfold metFrom
  rw [List.flatMap_append, List.cons_append]

theorem ModuleGraph.ids_ofTable (htable : ∀ id, (table id).id = id) (entry : ModuleId)
    (ids : List ModuleId) : (ofTable table entry ids).ids = ids := by
  show (ids.map table).map (·.id) = ids
  rw [List.map_map]
  exact (List.map_congr_left fun id _ => htable id).trans (List.map_id ids)

/-- An order is breadth first exactly if it lists the entry and all targets in order of first
appearance, and each id is the entry or a target of an earlier one. -/
theorem breadthFirst_iff (htable : ∀ id, (table id).id = id) :
    BreadthFirst table entry order ↔
      FirstAppearances (metFrom table entry order) order ∧
        ∀ earlier id, earlier ++ [id] <+: order → id ∈ metFrom table entry earlier := by
  have hmet : ∀ ids : List ModuleId,
      entry :: (ids.map table).flatMap Module.targets = metFrom table entry ids := by
    intro ids
    rw [List.flatMap_map]
    rfl
  constructor
  · rintro ⟨happearances, hpreceded⟩
    have hlisted : FirstAppearances (entry :: (order.map table).flatMap Module.targets) _ :=
      happearances
    rw [ModuleGraph.ids_ofTable htable, hmet] at hlisted
    refine ⟨hlisted, fun earlier id hpre => ?_⟩
    have hmap := hpre.map table
    rw [List.map_append, List.map_singleton] at hmap
    have hmem : (table id).id ∈ entry :: (earlier.map table).flatMap Module.targets :=
      hpreceded _ _ hmap
    rwa [htable, hmet] at hmem
  · rintro ⟨happearances, hpreceded⟩
    refine ⟨?_, ?_⟩
    · show FirstAppearances (entry :: (order.map table).flatMap Module.targets) _
      rwa [ModuleGraph.ids_ofTable htable, hmet]
    · -- a module with those before it comes from an id with those before it
      rintro before m ⟨rest, hsplit⟩
      obtain ⟨front, back, rfl, hfront, -⟩ := List.append_eq_map_iff.1 hsplit
      obtain ⟨earlier, last, rfl, rfl, hlast⟩ := List.append_eq_map_iff.1 hfront.symm
      obtain ⟨id, rfl, rfl⟩ := List.map_eq_singleton_iff.1 hlast
      show (table id).id ∈ entry :: (earlier.map table).flatMap Module.targets
      rw [htable, hmet]
      exact hpreceded earlier id ⟨back, rfl⟩

/-- What the first ids of an order lead to stands at its beginning. -/
theorem BreadthFirst.prefix_of_listed (htable : ∀ id, (table id).id = id)
    (h : BreadthFirst table entry order) (hvisited : visited <+: order)
    (hqueued : FirstAppearances (metFrom table entry visited) queued) : queued <+: order := by
  obtain ⟨happearances, -⟩ := (breadthFirst_iff htable).1 h
  obtain ⟨rest, rfl⟩ := hvisited
  rw [metFrom_append] at happearances
  exact hqueued.prefix_of_append happearances

theorem BreadthFirst.prefix_unique (htable : ∀ id, (table id).id = id) {other : List ModuleId}
    (h : BreadthFirst table entry order) (h' : BreadthFirst table entry other) :
    order <+: other := by
  obtain ⟨happearances, hpreceded⟩ := (breadthFirst_iff htable).1 h
  have hprefix : ∀ visited, visited <+: order → visited <+: other := by
    intro visited
    induction visited using List.reverseRecOn with
    | nil => exact fun _ => List.nil_prefix
    | append_singleton visited id ih =>
      intro hpre
      have hvisited := (List.prefix_append visited [id]).trans hpre
      obtain ⟨queued, hqueued⟩ := FirstAppearances.exists_listed (metFrom table entry visited)
      have hid : id ∈ queued := (hqueued.mem_iff id).2 (hpreceded visited id hpre)
      -- the id is listed behind those visited, so the list reaches to it
      have hnodup := happearances.nodup.sublist hpre.sublist
      rcases List.prefix_or_prefix_of_prefix hpre (h.prefix_of_listed htable hvisited hqueued)
        with hlong | hshort
      · exact hlong.trans (h'.prefix_of_listed htable (ih hvisited) hqueued)
      · rcases List.prefix_concat_iff.1 hshort with heq | hshort
        · rw [← heq]
          exact h'.prefix_of_listed htable (ih hvisited) hqueued
        · exact absurd (hshort.subset hid)
            fun hin => List.disjoint_of_nodup_append hnodup hin (List.mem_singleton_self id)
  exact hprefix order (List.prefix_refl order)

/-- There is at most one breadth-first order. -/
theorem BreadthFirst.unique (htable : ∀ id, (table id).id = id) {other : List ModuleId}
    (h : BreadthFirst table entry order) (h' : BreadthFirst table entry other) : order = other :=
  (h.prefix_unique htable h').eq_of_length_le (h'.prefix_unique htable h).length_le

/-! ## There is an order -/

/-- The first ids of a breadth-first order, and the ids that are met with them. -/
structure Listed (table : ModuleId → Module) (entry : ModuleId) (visited queued : List ModuleId) :
    Prop where
  appearances : FirstAppearances (metFrom table entry visited) queued
  visited_prefix : visited <+: queued
  preceded : ∀ earlier id, earlier ++ [id] <+: visited → id ∈ metFrom table entry earlier

theorem listed_entry (table : ModuleId → Module) (entry : ModuleId) :
    Listed table entry [] [entry] where
  appearances := FirstAppearances.singleton entry
  visited_prefix := List.nil_prefix
  preceded _ _ hpre := absurd (List.prefix_nil.1 hpre) (by simp)

/-- The id that is met next is visited next. -/
theorem Listed.exists_next {id : ModuleId} {rest : List ModuleId}
    (h : Listed table entry visited (visited ++ id :: rest)) :
    ∃ added, Listed table entry (visited ++ [id]) (visited ++ id :: rest ++ added) ∧
      ∀ a ∈ added, a ∈ metFrom table entry visited ∨ a ∈ (table id).targets := by
  have hid : id ∈ visited ++ id :: rest := List.mem_append_right _ List.mem_cons_self
  obtain ⟨added, hadded⟩ := h.appearances.exists_append (table id).targets
  refine ⟨added, ⟨?_, ⟨rest ++ added, by simp⟩, ?_⟩, ?_⟩
  · rw [metFrom_append, List.flatMap_singleton]
    exact hadded
  · intro earlier a hpre
    rcases List.prefix_concat_iff.1 hpre with heq | hpre
    · obtain ⟨rfl, hlast⟩ := List.append_inj' heq rfl
      rw [(List.cons.inj hlast).1]
      exact (h.appearances.mem_iff id).1 hid
    · exact h.preceded earlier a hpre
  · intro a ha
    exact List.mem_append.1 ((hadded.mem_iff a).1 (List.mem_append_right _ ha))

/-- A listing goes on to an order if there are fewer than `k` ids to be visited. -/
theorem Listed.exists_breadthFirst (htable : ∀ id, (table id).id = id) {P : ModuleId → Prop}
    {n k : Nat} (hclosed : ∀ id, P id → ∀ target ∈ (table id).targets, P target)
    (hbound : ∀ ids : List ModuleId, ids.Nodup → (∀ id ∈ ids, P id) → ids.length ≤ n)
    (h : Listed table entry visited queued) (hP : ∀ id ∈ queued, P id)
    (hk : n < k + visited.length) : ∃ order, BreadthFirst table entry order := by
  induction k generalizing visited queued with
  | zero =>
    have hnodup := h.appearances.nodup.sublist h.visited_prefix.sublist
    have hle := hbound visited hnodup fun id hid => hP id (h.visited_prefix.subset hid)
    omega
  | succ k ih =>
    obtain ⟨rest, rfl⟩ := h.visited_prefix
    cases rest with
    | nil =>
      refine ⟨visited, (breadthFirst_iff htable).2 ⟨?_, h.preceded⟩⟩
      simpa using h.appearances
    | cons id rest =>
      obtain ⟨added, hnext, hadded⟩ := h.exists_next
      refine ih hnext ?_ ?_
      · intro a ha
        rcases List.mem_append.1 ha with ha | ha
        · exact hP a ha
        · rcases hadded a ha with hmet | htarget
          · exact hP a ((h.appearances.mem_iff a).2 hmet)
          · exact hclosed id (hP id (List.mem_append_right _ List.mem_cons_self)) a htarget
      · rw [List.length_append, List.length_singleton]
        omega

/-- There is a breadth-first order if the entry leads to finitely many ids. -/
theorem exists_breadthFirst (htable : ∀ id, (table id).id = id) {P : ModuleId → Prop} {n : Nat}
    (hentry : P entry) (hclosed : ∀ id, P id → ∀ target ∈ (table id).targets, P target)
    (hbound : ∀ ids : List ModuleId, ids.Nodup → (∀ id ∈ ids, P id) → ids.length ≤ n) :
    ∃ order, BreadthFirst table entry order := by
  have hstart : ∀ id ∈ [entry], P id := by
    intro id hid
    rw [List.mem_singleton.1 hid]
    exact hentry
  exact (listed_entry table entry).exists_breadthFirst htable hclosed hbound hstart
    (Nat.lt_succ_self n)

end ModuleBundler
