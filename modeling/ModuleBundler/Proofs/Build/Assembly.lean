import ModuleBundler.Proofs.Build.BreadthFirst
import ModuleBundler.Proofs.Build.Closed
import ModuleBundler.Proofs.Build.Emission

/-!
# Which modules make a graph

A graph is put together from given modules, of which the first with an id counts
(`ModuleGraph.FirstOf`), and then searched for missing modules; a build ends with the same search.

* `ModuleGraph.mem_modules_foldl_insert` and `ModuleGraph.ids_foldl_insert` — what is put together
  are the first modules of each id, in order of first appearance;
* `ModuleGraph.ofModules_assembled` — so modules are refused for two reasons (`Assembled`): the
  entry is the id of none, or a first module links to the id of none;
* `Discovery.Settled.step` and `Discovery.run_settled` — a discovery has queued all that the modules
  of its graph link to, whatever its sources answer;
* `Discovery.firstMissing_of_run` — so the search at the end of a build finds nothing;
* `ModuleGraph.emit_error_iff` — a graph without missing modules is written from each of its ids,
  and from no other;
* **`ModuleGraph.closure_kept`** — all of this together.
-/

namespace ModuleBundler

namespace ModuleGraph

/-! ## The first modules of each id -/

/-- `m` is one of the modules, and none before it has its id. -/
def FirstOf (modules : List Module) (m : Module) : Prop :=
  ∃ before after, modules = before ++ m :: after ∧ m.id ∉ before.map (·.id)

theorem firstOf_concat {modules : List Module} {last m : Module} :
    FirstOf (modules ++ [last]) m ↔
      FirstOf modules m ∨ m = last ∧ last.id ∉ modules.map (·.id) := by
  constructor
  · rintro ⟨before, after, hsplit, hnew⟩
    rcases List.eq_nil_or_concat after with rfl | ⟨after, b, rfl⟩
    · obtain ⟨rfl, hlast⟩ := List.append_inj' hsplit rfl
      obtain rfl := (List.cons.inj hlast).1
      exact Or.inr ⟨rfl, hnew⟩
    · rw [List.concat_eq_append, ← List.cons_append, ← List.append_assoc] at hsplit
      exact Or.inl ⟨before, after, (List.append_inj' hsplit rfl).1, hnew⟩
  · rintro (⟨before, after, rfl, hnew⟩ | ⟨rfl, hnew⟩)
    · exact ⟨before, after ++ [last], by simp, hnew⟩
    · exact ⟨modules, [], rfl, hnew⟩

/-- The ids of what is put together are those of the modules, in order of first appearance. -/
theorem ids_foldl_insert (entry : ModuleId) (modules : List Module) :
    FirstAppearances (modules.map (·.id)) (modules.foldl insert ⟨entry, []⟩).ids := by
  induction modules using List.reverseRecOn with
  | nil => exact FirstAppearances.nil
  | append_singleton modules m ih =>
    rw [List.foldl_concat, List.map_append, List.map_singleton]
    by_cases hm : m.id ∈ (modules.foldl insert ⟨entry, []⟩).ids
    · rw [insert_of_mem hm]
      exact ih.skip hm
    · have hids := ih.add hm
      rw [insert_of_notMem hm]
      simpa [ids] using hids

theorem mem_ids_foldl_insert (entry : ModuleId) {id : ModuleId} {modules : List Module} :
    id ∈ (modules.foldl insert ⟨entry, []⟩).ids ↔ id ∈ modules.map (·.id) :=
  (ids_foldl_insert entry modules).mem_iff id

/-- What is put together are the first modules of each id. -/
theorem mem_modules_foldl_insert {entry : ModuleId} {modules : List Module} {m : Module} :
    m ∈ (modules.foldl insert ⟨entry, []⟩).modules ↔ FirstOf modules m := by
  induction modules using List.reverseRecOn with
  | nil =>
    refine iff_of_false List.not_mem_nil ?_
    rintro ⟨before, after, hsplit, -⟩
    simp at hsplit
  | append_singleton modules last ih =>
    rw [List.foldl_concat, firstOf_concat, ← ih, ← mem_ids_foldl_insert entry]
    by_cases hlast : last.id ∈ (modules.foldl insert ⟨entry, []⟩).ids
    · simp [insert_of_mem hlast, hlast]
    · simp [insert_of_notMem hlast, hlast]

theorem modules_prefix_foldl_insert (g : ModuleGraph) (modules : List Module) :
    g.modules <+: (modules.foldl insert g).modules := by
  induction modules generalizing g with
  | nil => exact List.prefix_refl _
  | cons m rest ih =>
    refine List.IsPrefix.trans ?_ (ih (g.insert m))
    by_cases hm : m.id ∈ g.ids
    · exact ⟨[], by rw [insert_of_mem hm, List.append_nil]⟩
    · rw [insert_of_notMem hm]
      exact List.prefix_append _ _

/-- What stands before a module of the graph is put together from what stands before it among the
modules. -/
theorem foldl_insert_split {entry : ModuleId} {modules earlier later : List Module} {m : Module}
    (h : (modules.foldl insert ⟨entry, []⟩).modules = earlier ++ m :: later) :
    ∃ before after, modules = before ++ m :: after ∧ m.id ∉ before.map (·.id) ∧
      (before.foldl insert ⟨entry, []⟩).modules = earlier := by
  obtain ⟨before, after, rfl, hnew⟩ := mem_modules_foldl_insert.1
    (h ▸ List.mem_append_right earlier (List.mem_cons_self (a := m) (l := later)))
  refine ⟨before, after, rfl, hnew, ?_⟩
  -- no module stands twice in the graph, so there is one place to divide it at `m`
  have hnodup : (earlier ++ m :: later).Nodup := by
    rw [← h]
    exact (ids_foldl_insert entry _).nodup.of_map _
  obtain ⟨hearlier, hlater⟩ : m ∉ earlier ∧ m ∉ later := by
    have hmiddle := List.nodup_middle.1 hnodup
    simpa using (List.nodup_cons.1 hmiddle).1
  rw [← mem_ids_foldl_insert entry] at hnew
  obtain ⟨behind, hbehind⟩ :=
    modules_prefix_foldl_insert ((before.foldl insert ⟨entry, []⟩).insert m) after
  rw [insert_of_notMem hnew] at hbehind
  rw [List.foldl_append, List.foldl_cons, insert_of_notMem hnew, ← hbehind,
    List.append_assoc] at h
  exact ((List.append_cons_inj_of_notMem hearlier hlater).1 h.symm).1.symm

/-! ## Graphs of modules -/

/-- Whatever the first modules of each id link to is one of the ids. -/
def LinkedWithin (ids : List ModuleId) (modules : List Module) : Prop :=
  ∀ m, FirstOf modules m → ∀ l ∈ m.imports, l.target ∈ ids

/-- What becomes of an entry and modules: a graph of the first modules of each id, or the first
thing that is missing. -/
inductive Assembled (entry : ModuleId) (modules : List Module) :
    Except GraphFlaw ModuleGraph → Prop
  | graph {g : ModuleGraph} :
      entry ∈ modules.map (·.id) → LinkedWithin (modules.map (·.id)) modules →
      g.entry = entry → FirstAppearances (modules.map (·.id)) g.ids →
      (∀ m, m ∈ g.modules ↔ FirstOf modules m) →
      Assembled entry modules (.ok g)
  | missingEntry :
      entry ∉ modules.map (·.id) →
      Assembled entry modules (.error (.missingEntry entry))
  | missingTarget {before after : List Module} {m : Module} {earlier later : List Link}
      {l : Link} :
      entry ∈ modules.map (·.id) →
      modules = before ++ m :: after → m.id ∉ before.map (·.id) →
      LinkedWithin (modules.map (·.id)) before →
      m.imports = earlier ++ l :: later → (∀ k ∈ earlier, k.target ∈ modules.map (·.id)) →
      l.target ∉ modules.map (·.id) →
      Assembled entry modules (.error (.missingTarget m.id l))

/-- The search for a missing module ends at the first link to one. -/
theorem exists_of_firstMissing {g : ModuleGraph} {flaw : GraphFlaw}
    (h : g.firstMissing = some flaw) :
    ∃ before m after earlier l later, g.modules = before ++ m :: after ∧
      (∀ a ∈ before, ∀ k ∈ a.imports, k.target ∈ g.ids) ∧
      m.imports = earlier ++ l :: later ∧ (∀ k ∈ earlier, k.target ∈ g.ids) ∧
      l.target ∉ g.ids ∧ flaw = .missingTarget m.id l := by
  obtain ⟨before, m, after, hmodules, hfound, hbefore⟩ := List.findSome?_eq_some_iff.1 h
  obtain ⟨l, hl, rfl⟩ := Option.map_eq_some_iff.1 hfound
  obtain ⟨hmissing, earlier, later, himports, hearlier⟩ := List.find?_eq_some_iff_append.1 hl
  refine ⟨before, m, after, earlier, l, later, hmodules, ?_, himports, ?_, ?_, rfl⟩
  · intro a ha k hk
    have hnone := List.find?_eq_none.1 (Option.map_eq_none_iff.1 (hbefore a ha)) k hk
    exact contains_iff.1 (by simpa using hnone)
  · intro k hk
    exact contains_iff.1 (by simpa using hearlier k hk)
  · intro hmem
    simp [contains_iff.2 hmem] at hmissing

theorem ofModules_assembled (entry : ModuleId) (modules : List Module) :
    Assembled entry modules (ofModules entry modules) := by
  have hmem : ∀ id, id ∈ (modules.foldl insert ⟨entry, []⟩).ids ↔ id ∈ modules.map (·.id) :=
    fun _ => mem_ids_foldl_insert entry
  unfold ofModules
  dsimp only
  split
  · rename_i hentry
    refine .missingEntry fun hin => ?_
    simp [contains_iff.2 ((hmem entry).2 hin)] at hentry
  rename_i hentry
  have hin : entry ∈ modules.map (·.id) :=
    (hmem entry).1 (contains_iff.1 (by simpa using hentry))
  split
  · rename_i flaw hflaw
    obtain ⟨earlier, m, later, passed, l, rest, hmodules, hearlier, himports, hpassed, hl, rfl⟩ :=
      exists_of_firstMissing hflaw
    obtain ⟨before, after, hsplit, hnew, hbefore⟩ := foldl_insert_split hmodules
    refine .missingTarget hin hsplit hnew ?_ himports
      (fun k hk => (hmem _).1 (hpassed k hk)) (fun ht => hl ((hmem _).2 ht))
    intro a ha k hk
    have hplace : a ∈ earlier := by
      rw [← hbefore]
      exact mem_modules_foldl_insert.2 ha
    exact (hmem _).1 (hearlier a hplace k hk)
  · rename_i hnone
    refine .graph hin ?_ (entry_foldl_insert _ _) (ids_foldl_insert entry modules)
      fun m => mem_modules_foldl_insert
    intro m hm l hl
    exact (hmem _).1 (firstMissing_eq_none_iff.1 hnone m.id l.target
      ⟨m, mem_modules_foldl_insert.2 hm, rfl, List.mem_map_of_mem hl⟩)

/-- Modules make a graph exactly if the entry and whatever a first module links to is the id of a
module. -/
theorem Assembled.succeeds_iff {entry : ModuleId} {modules : List Module}
    {result : Except GraphFlaw ModuleGraph} (h : Assembled entry modules result) :
    (∃ g, result = .ok g) ↔
      entry ∈ modules.map (·.id) ∧ LinkedWithin (modules.map (·.id)) modules := by
  cases h with
  | graph hentry hlinked => exact iff_of_true ⟨_, rfl⟩ ⟨hentry, hlinked⟩
  | missingEntry hentry => exact iff_of_false (by simp) fun hall => hentry hall.1
  | @missingTarget before after m earlier later l _ hsplit hnew _ himports _ hl =>
    refine iff_of_false (by simp) fun hall => hl ?_
    have hl : l ∈ m.imports := by simp [himports]
    exact hall.2 m ⟨before, after, hsplit, hnew⟩ l hl

end ModuleGraph

/-! ## The search at the end of a build -/

namespace Discovery

variable {sources : Sources} {transformer : Transformer} {d after : Discovery}

/-- What was queued is visited or waiting, and the modules of the graph link to nothing else. -/
structure Covered (d : Discovery) : Prop where
  queued : ∀ id ∈ d.queued, id ∈ d.visited ∨ id ∈ d.worklist
  linked : ∀ a b, d.graph.LinksTo a b → b ∈ d.queued

/-- Between two modules, what was visited is in the graph. -/
structure Settled (d : Discovery) : Prop extends Covered d where
  visited : ∀ id ∈ d.visited, id ∈ d.graph.ids

theorem queued_subset_enqueue (d : Discovery) (id : ModuleId) :
    d.queued ⊆ (d.enqueue id).queued := by
  unfold enqueue
  split
  · exact List.Subset.refl _
  · exact List.subset_append_left _ _

theorem mem_queued_enqueue (d : Discovery) (id : ModuleId) : id ∈ (d.enqueue id).queued := by
  unfold enqueue
  split
  · rename_i hin
    exact List.contains_iff_mem.1 hin
  · exact List.mem_append_right _ List.mem_cons_self

theorem Covered.enqueue (h : d.Covered) (id : ModuleId) : (d.enqueue id).Covered := by
  refine ⟨?_, fun a b hab => queued_subset_enqueue d id (h.linked a b ?_)⟩
  · unfold Discovery.enqueue
    split
    · exact h.queued
    · intro a ha
      rcases List.mem_append.1 ha with ha | ha
      · exact (h.queued a ha).imp_right (List.mem_append_left _)
      · exact Or.inr (List.mem_append_right _ ha)
  · unfold Discovery.enqueue at hab
    split at hab <;> exact hab

/-- Linking queues the targets of all links, whatever the resolver answers. -/
theorem linkAll_covered {importer : ModuleId} {specifiers : List String} {links made : List Link}
    (hd : d.Covered) (hlinks : ∀ l ∈ links, l.target ∈ d.queued)
    (h : linkAll sources importer links specifiers d = (.ok made, after)) :
    after.Covered ∧ ∀ l ∈ made, l.target ∈ after.queued := by
  induction specifiers generalizing links d with
  | nil =>
    cases h
    exact ⟨hd, hlinks⟩
  | cons specifier rest ih =>
    unfold linkAll at h
    split at h
    · exact ih hd hlinks h
    dsimp only at h
    split at h
    · cases h
    rename_i target _
    -- the answer of the resolver changes neither the queue nor the graph
    let asked : Discovery := { d with
      resolver := (d.resolver.resolve sources.has importer specifier).resolver
      probes := d.probes ++ (d.resolver.resolve sources.has importer specifier).probes }
    have hasked : asked.Covered := ⟨hd.queued, hd.linked⟩
    refine ih (hasked.enqueue target) (fun l hl => ?_) h
    rcases List.mem_append.1 hl with hl | hl
    · exact queued_subset_enqueue _ _ (hlinks l hl)
    · rw [List.mem_singleton.1 hl]
      exact mem_queued_enqueue _ _

theorem process_covered {id : ModuleId} {m : Module} (hd : d.Covered)
    (h : process sources transformer id d = (.ok m, after)) :
    after.Covered ∧ ∀ l ∈ m.imports, l.target ∈ after.queued := by
  obtain ⟨text, made, -, -, -, -, hlinks⟩ := exists_of_process h
  refine linkAll_covered ?_ ?_ hlinks
  · exact ⟨hd.queued, hd.linked⟩
  · simp

/-- Leaving out what was visited keeps a discovery settled. -/
theorem Settled.skip {id : ModuleId} {rest : List ModuleId} (hd : d.Settled)
    (hwork : d.worklist = id :: rest) (hid : id ∈ d.visited) :
    Settled { d with worklist := rest } := by
  refine ⟨⟨fun a ha => ?_, hd.linked⟩, hd.visited⟩
  rcases hd.queued a ha with hvisited | hwaiting
  · exact Or.inl hvisited
  · rw [hwork] at hwaiting
    rcases List.mem_cons.1 hwaiting with rfl | hrest
    · exact Or.inl hid
    · exact Or.inr hrest

/-- Taking one module from the worklist keeps a discovery settled. -/
theorem Settled.step {id : ModuleId} {rest : List ModuleId} {m : Module} (hd : d.Settled)
    (hwork : d.worklist = id :: rest)
    (h : process sources transformer id
      { d with worklist := rest, visited := d.visited ++ [id] } = (.ok m, after)) :
    Settled { after with graph := after.graph.insert m } := by
  have hstart : Covered { d with worklist := rest, visited := d.visited ++ [id] } := by
    refine ⟨fun a ha => ?_, hd.linked⟩
    have := hd.queued a ha
    simp only [hwork, List.mem_cons, List.mem_append, List.not_mem_nil, or_false] at this ⊢
    tauto
  obtain ⟨hcovered, htargets⟩ := process_covered hstart h
  obtain ⟨hvisited, hgraph⟩ := process_books h
  obtain ⟨-, -, -, -, rfl, -, -⟩ := exists_of_process h
  refine ⟨⟨hcovered.queued, ?_⟩, ?_⟩
  · rintro a b ⟨k, hk, hka, hb⟩
    by_cases hin : m.id ∈ after.graph.ids
    · rw [ModuleGraph.insert_of_mem hin] at hk
      exact hcovered.linked a b ⟨k, hk, hka, hb⟩
    · rw [ModuleGraph.insert_of_notMem hin] at hk
      rcases List.mem_append.1 hk with hk | hk
      · exact hcovered.linked a b ⟨k, hk, hka, hb⟩
      · obtain ⟨l, hl, rfl⟩ := List.mem_map.1 hb
        rw [List.mem_singleton.1 hk] at hl
        exact htargets l hl
  · intro a ha
    rw [hvisited] at ha
    rw [ModuleGraph.mem_ids_insert, hgraph]
    rcases List.mem_append.1 ha with ha | ha
    · exact Or.inl (hd.visited a ha)
    · exact Or.inr (List.mem_singleton.1 ha)

theorem run_settled {n : Nat} {g : ModuleGraph} (hd : d.Settled)
    (h : run sources transformer n d = (.ok g, after)) : after.Settled ∧ g = after.graph :=
  run_keeps Settled.skip Settled.step hd h

/-- A discovery that has found its entry. -/
def start (resolver : Resolver) (probes : List ModuleId) (entry : ModuleId) : Discovery :=
  ⟨resolver, probes, [], [], [], [entry], [entry], ⟨entry, []⟩⟩

theorem settled_start (resolver : Resolver) (probes : List ModuleId) (entry : ModuleId) :
    (start resolver probes entry).Settled := by
  refine ⟨⟨fun id hid => Or.inr hid, ?_⟩, fun id hid => by cases hid⟩
  rintro a b ⟨m, hm, -⟩
  cases hm

/-- No module is missing from the graph of a discovery that has emptied its worklist. -/
theorem firstMissing_of_run {n : Nat} {resolver : Resolver} {probes : List ModuleId}
    {entry : ModuleId} {g : ModuleGraph}
    (h : run sources transformer n (start resolver probes entry) = (.ok g, after))
    (hempty : after.worklist = []) : g.firstMissing = none := by
  obtain ⟨hafter, rfl⟩ := run_settled (settled_start resolver probes entry) h
  refine ModuleGraph.firstMissing_eq_none_iff.2 fun a b hab => ?_
  rcases hafter.queued b (hafter.linked a b hab) with hvisited | hwaiting
  · exact hafter.visited b hvisited
  · rw [hempty] at hwaiting
    cases hwaiting

end Discovery

/-- What a build has found is what it gives: the search at its end changes nothing. -/
theorem buildWith_eq_run {sources : Sources} {transformer : Transformer}
    {extensions : List String} {resolver : Resolver} {entrySpecifier : String} {entry : ModuleId}
    {g : ModuleGraph} {after : Discovery} (hb : sources.Bounded)
    (hr : resolver.Faithful sources.has extensions)
    (hentry : (resolver.resolveFromRoot sources.has entrySpecifier).result = .ok entry)
    (hrun : Discovery.run sources transformer (sources.capacity + 1)
      (.start (resolver.resolveFromRoot sources.has entrySpecifier).resolver
        (resolver.resolveFromRoot sources.has entrySpecifier).probes entry) = (.ok g, after)) :
    buildWith sources transformer resolver entrySpecifier = (.ok g, after) := by
  have hstart := Discovery.found_entry (resolver.resolveFromRoot sources.has entrySpecifier).probes
    transformer (Resolver.resolveFromRoot_faithful hr entrySpecifier)
    (Resolver.has_of_resolveFromRoot hr hentry)
  have hempty := (Discovery.run_found hb hstart (Nat.lt_succ_self _) hrun).2.1
  have hmissing := Discovery.firstMissing_of_run hrun hempty
  rw [Discovery.start] at hrun
  simp [buildWith, hentry, hrun, hmissing]

/-! ## Writing a graph -/

namespace ModuleGraph

/-- A graph in which no module is missing is written from each of its ids, and from no other. -/
theorem emit_error_iff {g : ModuleGraph} {id : ModuleId} (h : g.firstMissing = none) :
    (∃ e, g.emit id = .error e) ↔ id ∉ g.ids := by
  by_cases hid : id ∈ g.ids
  · rw [emit_of_contains (contains_iff.2 hid) h]
    exact iff_of_false (by simp) fun hnot => hnot hid
  · have hcontains : g.contains id = false :=
      Bool.eq_false_iff.2 fun hc => hid (contains_iff.1 hc)
    refine iff_of_true ⟨.resolution .bundle id.text .unknownEntry, ?_⟩ hid
    simp [emit, hcontains]

/-- Every graph is closed.  Given modules make a graph exactly if the entry, and whatever a first
module of an id links to, is the id of a module; else the answer is what is missing first.  The
search at the end of a build never finds anything.  And a graph that was made either way has its
entry and all that its modules link to, and is written from each of its ids and from no other. -/
theorem closure_kept :
    (∀ entry modules, Assembled entry modules (ofModules entry modules) ∧
      ((∃ g, ofModules entry modules = .ok g) ↔
        entry ∈ modules.map (·.id) ∧ LinkedWithin (modules.map (·.id)) modules)) ∧
    (∀ sources transformer n resolver probes entry g after,
      Discovery.run sources transformer n (.start resolver probes entry) = (.ok g, after) →
      after.worklist = [] → g.firstMissing = none) ∧
    (∀ (sources : Sources) transformer extensions earlier entrySpecifier entry g after,
      sources.Bounded →
      let resolver := (Resolver.fresh extensions).afterBuilds sources transformer earlier
      let found := resolver.resolveFromRoot sources.has entrySpecifier
      found.result = .ok entry →
      Discovery.run sources transformer (sources.capacity + 1)
        (.start found.resolver found.probes entry) = (.ok g, after) →
      buildWith sources transformer resolver entrySpecifier = (.ok g, after)) ∧
    (∀ g : ModuleGraph, g.Made →
      g.entry ∈ g.ids ∧ (∀ m ∈ g.modules, ∀ l ∈ m.imports, l.target ∈ g.ids) ∧
      ∀ id, (∃ e, g.emit id = .error e) ↔ id ∉ g.ids) := by
  refine ⟨fun entry modules => ?_, ?_, ?_, fun g hg => ?_⟩
  · have hassembled := ofModules_assembled entry modules
    exact ⟨hassembled, hassembled.succeeds_iff⟩
  · intro sources transformer n resolver probes entry g after hrun hempty
    exact Discovery.firstMissing_of_run hrun hempty
  · intro sources transformer extensions earlier entrySpecifier entry g after hb resolver found
      hentry hrun
    have hr := Resolver.faithful_afterBuilds transformer
      (Resolver.faithful_fresh sources.has extensions) earlier
    exact buildWith_eq_run hb hr hentry hrun
  · have hclosed := hg.closed
    refine ⟨hclosed.entry_mem,
      fun m hm l hl => hclosed.target_mem ⟨m, hm, rfl, List.mem_map_of_mem hl⟩, fun id => ?_⟩
    exact emit_error_iff (firstMissing_eq_none_iff.2 fun a b hab => hclosed.target_mem hab)

/-- Three modules of two ids; the one that is not first links to a module that is missing. -/
def shadowedModules : List Module :=
  [⟨.ofPath "/main.js", [⟨"./a", .ofPath "/a.js"⟩], "1"⟩, ⟨.ofPath "/a.js", [], "2"⟩,
    ⟨.ofPath "/main.js", [⟨"./b", .ofPath "/b.js"⟩], "3"⟩]

theorem shadowedModules_closed :
    (∃ g, ofModules (.ofPath "/main.js") shadowedModules = .ok g) ∧
      ¬ (∃ g, ofModules (.ofPath "/a.js") (shadowedModules.drop 2) = .ok g) ∧
      (∀ id, (∃ e, circularGraph.emit id = .error e) ↔ id ∉ circularGraph.ids) := by
  have hbuild : (buildWith (.ofFiles circularFiles) requestLines (.fresh defaultExtensions)
      "main").1 = .ok circularGraph := by decide +kernel
  have hmade : circularGraph.Made := .built hbuild
  obtain ⟨hassembled, -, -, hgraphs⟩ := closure_kept
  refine ⟨⟨⟨.ofPath "/main.js", shadowedModules.take 2⟩, by decide +kernel⟩, fun hmodules => ?_,
    (hgraphs circularGraph hmade).2.2⟩
  exact absurd ((hassembled _ _).2.1 hmodules).1 (by decide +kernel)

end ModuleGraph

end ModuleBundler
