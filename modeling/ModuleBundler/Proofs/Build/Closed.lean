import ModuleBundler.Proofs.Build.Discovery

/-!
# Graphs are closed

A graph is put together from given modules, or by a build.  Either way it has its entry, each id
once, and a module for every link (`ModuleGraph.Closed`): both end with a search for missing
modules, and neither puts a second module under an id (`ModuleGraph.Keyed`).

* `ModuleGraph.firstMissing_eq_none_iff` — the search finds nothing exactly if every link leads to a
  module;
* `ModuleGraph.closed_ofModules` — a graph of modules is closed;
* `buildWith_closed` — so is a graph that is built, whatever the sources are;
* `ModuleGraph.Made.closed` — so every graph that can be obtained is closed.
-/

namespace ModuleBundler

/-- Each specifier of a module has one link. -/
def Module.Keyed (m : Module) : Prop := (m.imports.map (·.specifier)).Nodup

namespace ModuleGraph

/-- Each id is there once, and so is each specifier of a module. -/
structure Keyed (g : ModuleGraph) : Prop where
  nodup : g.ids.Nodup
  keyed : ∀ m ∈ g.modules, m.Keyed

/-- The graph also has its entry, and a module for every link. -/
structure Closed (g : ModuleGraph) : Prop extends Keyed g where
  entry_mem : g.entry ∈ g.ids
  target_mem : ∀ {a b}, g.LinksTo a b → b ∈ g.ids

/-! ## Putting modules into a graph -/

variable {g : ModuleGraph} {m : Module}

theorem contains_iff {id : ModuleId} : g.contains id = true ↔ id ∈ g.ids := by
  unfold contains ids
  rw [List.any_eq_true, List.mem_map]
  exact exists_congr fun m => and_congr_right fun _ => beq_iff_eq

theorem insert_of_mem (h : m.id ∈ g.ids) : g.insert m = g := by
  unfold insert
  rw [if_pos (contains_iff.2 h)]

theorem mem_ids_insert (g : ModuleGraph) (m : Module) (id : ModuleId) :
    id ∈ (g.insert m).ids ↔ id ∈ g.ids ∨ id = m.id := by
  by_cases h : m.id ∈ g.ids
  · rw [insert_of_mem h]
    refine ⟨Or.inl, ?_⟩
    rintro (hid | rfl)
    · exact hid
    · exact h
  · rw [insert_of_notMem h]
    unfold ids
    rw [List.map_append, List.mem_append, List.map_singleton, List.mem_singleton]

theorem Keyed.insert (h : g.Keyed) (hm : m.Keyed) : (g.insert m).Keyed := by
  by_cases hin : m.id ∈ g.ids
  · rw [insert_of_mem hin]
    exact h
  · rw [insert_of_notMem hin]
    refine ⟨?_, ?_⟩
    · show ((g.modules ++ [m]).map (·.id)).Nodup
      rw [List.map_append, List.map_singleton, ← List.concat_eq_append]
      exact List.Nodup.concat hin h.nodup
    · intro a ha
      rcases List.mem_append.1 ha with ha | ha
      · exact h.keyed a ha
      · rw [List.mem_singleton.1 ha]
        exact hm

theorem keyed_empty (entry : ModuleId) : Keyed ⟨entry, []⟩ :=
  ⟨List.nodup_nil, fun m hm => by cases hm⟩

theorem entry_foldl_insert (g : ModuleGraph) (modules : List Module) :
    (modules.foldl insert g).entry = g.entry := by
  induction modules generalizing g with
  | nil => rfl
  | cons m rest ih => exact (ih (g.insert m)).trans (entry_insert g m)

/-- The search for a missing module finds none exactly if every link leads to a module. -/
theorem firstMissing_eq_none_iff :
    g.firstMissing = none ↔ ∀ a b, g.LinksTo a b → b ∈ g.ids := by
  unfold firstMissing
  rw [List.findSome?_eq_none_iff]
  constructor
  · rintro h a b ⟨m, hm, -, hb⟩
    obtain ⟨l, hl, rfl⟩ := List.mem_map.1 hb
    have hfound := List.find?_eq_none.1 (Option.map_eq_none_iff.1 (h m hm)) l hl
    exact contains_iff.1 (by simpa using hfound)
  · intro h m hm
    rw [Option.map_eq_none_iff, List.find?_eq_none]
    intro l hl
    have hmem := h m.id l.target ⟨m, hm, rfl, List.mem_map_of_mem hl⟩
    simp [contains_iff.2 hmem]

theorem Keyed.foldl_insert {modules : List Module} (h : g.Keyed)
    (hkeyed : ∀ m ∈ modules, m.Keyed) : (modules.foldl ModuleGraph.insert g).Keyed := by
  induction modules generalizing g with
  | nil => exact h
  | cons m rest ih =>
    exact ih (h.insert (hkeyed m List.mem_cons_self)) fun a ha =>
      hkeyed a (List.mem_cons_of_mem _ ha)

/-- A graph of modules is closed. -/
theorem closed_ofModules {entry : ModuleId} {modules : List Module}
    (hkeyed : ∀ m ∈ modules, m.Keyed) (h : ofModules entry modules = .ok g) : g.Closed := by
  have hg := (keyed_empty entry).foldl_insert hkeyed
  unfold ofModules at h
  dsimp only at h
  split at h
  · cases h
  rename_i hcontains
  split at h
  · cases h
  rename_i hmissing
  cases h
  refine ⟨hg, ?_, fun hab => firstMissing_eq_none_iff.1 hmissing _ _ hab⟩
  rw [entry_foldl_insert]
  exact contains_iff.1 (by simpa using hcontains)

end ModuleGraph

/-! ## Builds -/

namespace Discovery

variable {sources : Sources} {transformer : Transformer}

/-- Linking makes no second link for a specifier. -/
theorem linkAll_keyed {importer : ModuleId} {specifiers : List String} {links made : List Link}
    {d after : Discovery} (hlinks : (links.map (·.specifier)).Nodup)
    (h : linkAll sources importer links specifiers d = (.ok made, after)) :
    (made.map (·.specifier)).Nodup := by
  induction specifiers generalizing links d with
  | nil =>
    simp only [linkAll, Prod.mk.injEq, Except.ok.injEq] at h
    obtain ⟨rfl, -⟩ := h
    exact hlinks
  | cons specifier rest ih =>
    unfold linkAll at h
    split at h
    · exact ih hlinks h
    · rename_i hany
      dsimp only at h
      split at h
      · cases h
      · refine ih ?_ h
        rw [List.map_append, List.map_singleton, ← List.concat_eq_append]
        exact List.Nodup.concat (fun hmem => hany (any_specifier_iff.2 hmem)) hlinks

/-- Processing a module adds it to the graph under its id. -/
theorem process_keyed {id : ModuleId} {m : Module} {d after : Discovery} (hd : d.graph.Keyed)
    (h : process sources transformer id d = (.ok m, after)) :
    (after.graph.insert m).Keyed ∧ (after.graph.insert m).entry = d.graph.entry ∧
      ∀ a, a ∈ (after.graph.insert m).ids ↔ a ∈ d.graph.ids ∨ a = id := by
  obtain ⟨-, hgraph⟩ := process_books h
  obtain ⟨text, made, -, -, rfl, -, hlinks⟩ := exists_of_process h
  have hnil : (([] : List Link).map (·.specifier)).Nodup := List.nodup_nil
  rw [hgraph]
  exact ⟨hd.insert (linkAll_keyed hnil hlinks), ModuleGraph.entry_insert _ _,
    fun a => ModuleGraph.mem_ids_insert _ _ a⟩

/-- The graph of a discovery has grown from another one: it has its entry and its modules, and none
twice. -/
structure GrownFrom (g : ModuleGraph) (d : Discovery) : Prop where
  keyed : d.graph.Keyed
  entry_eq : d.graph.entry = g.entry
  mem_ids : ∀ id ∈ g.ids, id ∈ d.graph.ids

theorem GrownFrom.step {g : ModuleGraph} {d after : Discovery} {id : ModuleId}
    {rest : List ModuleId} {m : Module} (hd : GrownFrom g d)
    (h : process sources transformer id
      { d with worklist := rest, visited := d.visited ++ [id] } = (.ok m, after)) :
    GrownFrom g { after with graph := after.graph.insert m } := by
  have hstart : ({ d with worklist := rest, visited := d.visited ++ [id] } :
      Discovery).graph.Keyed := hd.keyed
  obtain ⟨hinsert, hsame, hmem⟩ := process_keyed hstart h
  exact ⟨hinsert, hsame.trans hd.entry_eq,
    fun a ha => (hmem a).2 (Or.inl (hd.mem_ids a ha))⟩

/-- A run keeps the entry and the modules of the graph, and puts none twice. -/
theorem run_keyed {n : Nat} {d after : Discovery} {g : ModuleGraph} (hd : d.graph.Keyed)
    (h : run sources transformer n d = (.ok g, after)) :
    g.Keyed ∧ g.entry = d.graph.entry ∧ ∀ id ∈ d.graph.ids, id ∈ g.ids := by
  have hstart : GrownFrom d.graph d := ⟨hd, rfl, fun _ => id⟩
  have hkeeps : GrownFrom d.graph after ∧ g = after.graph :=
    run_keeps (fun hmid _ _ => ⟨hmid.keyed, hmid.entry_eq, hmid.mem_ids⟩)
      (fun hmid _ hprocess => hmid.step hprocess) hstart h
  obtain ⟨hafter, rfl⟩ := hkeeps
  exact ⟨hafter.keyed, hafter.entry_eq, hafter.mem_ids⟩

/-- A run that begins with an entry on its worklist puts it into the graph. -/
theorem run_entry_mem {n : Nat} {d after : Discovery} {g : ModuleGraph} {id : ModuleId}
    {rest : List ModuleId} (hd : d.graph.Keyed) (hwork : d.worklist = id :: rest)
    (hvisited : d.visited = [])
    (h : run sources transformer (n + 1) d = (.ok g, after)) : id ∈ g.ids := by
  unfold run at h
  rw [hwork] at h
  dsimp only at h
  rw [hvisited, if_neg (by simp)] at h
  split at h
  · cases h
  rename_i m mid hprocess
  obtain ⟨hinsert, -, hmem⟩ := process_keyed (by exact hd) hprocess
  exact (run_keyed hinsert h).2.2 id ((hmem id).2 (Or.inr rfl))

end Discovery

/-- A graph that is built is closed, whatever the sources are. -/
theorem buildWith_closed {sources : Sources} {transformer : Transformer} {resolver : Resolver}
    {entrySpecifier : String} {g : ModuleGraph}
    (h : (buildWith sources transformer resolver entrySpecifier).1 = .ok g) : g.Closed := by
  unfold buildWith at h
  dsimp only at h
  split at h
  · cases h
  rename_i entry _
  split at h
  · cases h
  rename_i found after hrun
  split at h
  · cases h
  rename_i hmissing
  cases h
  obtain ⟨hg, hentry, -⟩ := Discovery.run_keyed (ModuleGraph.keyed_empty entry) hrun
  have hmem := Discovery.run_entry_mem (ModuleGraph.keyed_empty entry) rfl rfl hrun
  refine ⟨hg, ?_, fun hab => ModuleGraph.firstMissing_eq_none_iff.1 hmissing _ _ hab⟩
  rw [hentry]
  exact hmem

namespace ModuleGraph

/-- A graph as it is obtained: by a build, or from modules whose specifiers have one link each. -/
inductive Made : ModuleGraph → Prop
  | built {sources : Sources} {transformer : Transformer} {resolver : Resolver}
      {entrySpecifier : String} {g : ModuleGraph} :
      (buildWith sources transformer resolver entrySpecifier).1 = .ok g → Made g
  | given {entry : ModuleId} {modules : List Module} {g : ModuleGraph} :
      (∀ m ∈ modules, m.Keyed) → ofModules entry modules = .ok g → Made g

theorem Made.closed {g : ModuleGraph} (h : g.Made) : g.Closed := by
  cases h with
  | built hbuild => exact buildWith_closed hbuild
  | given hkeyed hmodules => exact closed_ofModules hkeyed hmodules

end ModuleGraph

end ModuleBundler
