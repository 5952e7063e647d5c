import Mathlib.Data.List.Perm.Subperm
import ModuleBundler.Proofs.Build.Resolution
import ModuleBundler.Proofs.Module.BreadthFirst

/-!
# What a discovery keeps

`Discovery.run` takes modules from a worklist until it is empty.  Between two modules a discovery is
in order (`Discovery.Found`): what was ever queued is the modules visited and then those waiting,
and it lists the entry and the targets of all links made so far in order of first appearance.

* `Discovery.linkAll_linked` — linking a module queues the targets of its links;
* `Discovery.process_ok` — a module that was processed is read from the sources
  (`Module.ReadFrom`);
* `Discovery.run_keeps` — what is kept by skipping and by processing a module is kept by a run;
* `Discovery.Found.step` — taking one module from the worklist keeps a discovery in order;
* `Discovery.run_found` — so does a whole run, and it ends with an empty worklist, because there
  are no more modules to visit than the sources have;
* `Discovery.run_faithful` — a run leaves a faithful resolver, also when it fails.
-/

namespace ModuleBundler

open ModuleBundler.Text

variable {sources : Sources} {transformer : Transformer} {extensions : List String}

/-! ## Modules as their sources give them -/

/-- A module is what its source gives: its code is that of the transformer, and its links are the
different specifiers that the transformer asks for, in order of first appearance, each with the
module that it means. -/
structure Module.ReadFrom (sources : Sources) (transformer : Transformer)
    (extensions : List String) (m : Module) : Prop where
  transformed : ∃ text made, sources.load m.id = .ok text ∧
    transformer m.id (String.ofList (unifyLineEnds text.toList)) = .ok made ∧
    m.code = made.code ∧ FirstAppearances made.requested (m.imports.map (·.specifier))
  resolved : ∀ l ∈ m.imports, sources.resolve extensions m.id l.specifier = .ok l.target

/-- The number that sources give bounds every list of different ids that exist. -/
def Sources.Bounded (sources : Sources) : Prop :=
  ∀ ids : List ModuleId, ids.Nodup → (∀ id ∈ ids, sources.has id = true) →
    ids.length ≤ sources.capacity

theorem Sources.bounded_ofFiles (files : List (ModuleId × String)) :
    (Sources.ofFiles files).Bounded := by
  intro ids hnodup hhas
  have hsub : ids ⊆ files.map (·.1) := by
    intro id hid
    have h := hhas id hid
    simp only [Sources.ofFiles, List.any_eq_true, beq_iff_eq] at h
    obtain ⟨f, hf, rfl⟩ := h
    exact List.mem_map_of_mem hf
  calc ids.length ≤ (files.map (·.1)).length := (List.subperm_of_subset hnodup hsub).length_le
    _ = (Sources.ofFiles files).capacity := List.length_map _

namespace ModuleGraph

@[simp] theorem entry_insert (g : ModuleGraph) (m : Module) : (g.insert m).entry = g.entry := by
  unfold insert
  split <;> rfl

/-- A module with a new id is put at the end. -/
theorem insert_of_notMem {g : ModuleGraph} {m : Module} (h : m.id ∉ g.ids) :
    g.insert m = { g with modules := g.modules ++ [m] } := by
  unfold insert
  rw [if_neg]
  intro hc
  obtain ⟨a, ha, hid⟩ := List.any_eq_true.1 hc
  exact h (List.mem_map.2 ⟨a, ha, eq_of_beq hid⟩)

end ModuleGraph

namespace Discovery

/-! ## The queue -/

/-- The queue of a discovery that has met the modules `met`: it lists them in order of first
appearance, first those visited and then those waiting, and all of them exist. -/
structure Queue (sources : Sources) (extensions : List String) (met : List ModuleId)
    (d : Discovery) : Prop where
  faithful : d.resolver.Faithful sources.has extensions
  queued_eq : d.queued = d.visited ++ d.worklist
  appearances : FirstAppearances met d.queued
  present : ∀ id ∈ d.queued, sources.has id = true

theorem Queue.enqueue {met : List ModuleId} {d : Discovery} {id : ModuleId}
    (h : d.Queue sources extensions met) (hid : sources.has id = true) :
    (d.enqueue id).Queue sources extensions (met ++ [id]) := by
  unfold Discovery.enqueue
  by_cases hin : id ∈ d.queued
  · rw [if_pos (List.contains_iff_mem.2 hin)]
    exact { h with appearances := h.appearances.skip hin }
  · rw [if_neg (fun hc => hin (List.contains_iff_mem.1 hc))]
    refine ⟨h.faithful, ?_, h.appearances.add hin, ?_⟩
    · show d.queued ++ [id] = d.visited ++ (d.worklist ++ [id])
      rw [h.queued_eq, List.append_assoc]
    · intro a ha
      rcases List.mem_append.1 ha with ha | ha
      · exact h.present a ha
      · rw [List.mem_singleton.1 ha]
        exact hid

theorem Queue.mem_queued {met : List ModuleId} {d : Discovery} {id : ModuleId}
    {rest : List ModuleId} (h : d.Queue sources extensions met)
    (hwork : d.worklist = id :: rest) : id ∈ d.queued := by
  rw [h.queued_eq, hwork]
  exact List.mem_append_right _ List.mem_cons_self

/-- Nothing on the worklist has been visited. -/
theorem Queue.notMem_visited {met : List ModuleId} {d : Discovery} {id : ModuleId}
    {rest : List ModuleId} (h : d.Queue sources extensions met)
    (hwork : d.worklist = id :: rest) : id ∉ d.visited := by
  have hnodup := h.appearances.nodup
  rw [h.queued_eq, hwork] at hnodup
  exact fun hin => List.disjoint_of_nodup_append hnodup hin List.mem_cons_self

/-- There are at most as many modules visited as the sources have. -/
theorem Queue.visited_le {met : List ModuleId} {d : Discovery}
    (h : d.Queue sources extensions met) (hb : sources.Bounded) :
    d.visited.length ≤ sources.capacity := by
  have hsub : d.visited <+: d.queued := ⟨d.worklist, h.queued_eq.symm⟩
  exact hb d.visited (h.appearances.nodup.sublist hsub.sublist)
    fun id hid => h.present id (hsub.subset hid)

/-! ## Linking a module -/

/-- Some links of a module, made for the specifiers `seen`, and the discovery that made them. -/
structure Linked (sources : Sources) (extensions : List String) (importer : ModuleId)
    (met : List ModuleId) (seen : List String) (links : List Link) (d : Discovery) : Prop where
  appearances : FirstAppearances seen (links.map (·.specifier))
  resolved : ∀ l ∈ links, sources.resolve extensions importer l.specifier = .ok l.target
  queue : d.Queue sources extensions (met ++ links.map (·.target))

theorem any_specifier_iff {links : List Link} {specifier : String} :
    (links.any fun l => l.specifier == specifier) = true ↔
      specifier ∈ links.map (·.specifier) := by
  rw [List.any_eq_true, List.mem_map]
  exact exists_congr fun l => and_congr_right fun _ => beq_iff_eq

/-- Linking queues the target of every link it makes. -/
theorem linkAll_linked {importer : ModuleId} {met : List ModuleId} {specifiers : List String}
    {seen : List String} {links made : List Link} {d after : Discovery}
    (hd : d.Linked sources extensions importer met seen links)
    (h : linkAll sources importer links specifiers d = (.ok made, after)) :
    after.Linked sources extensions importer met (seen ++ specifiers) made := by
  induction specifiers generalizing seen links d with
  | nil =>
    simp only [linkAll, Prod.mk.injEq, Except.ok.injEq] at h
    obtain ⟨rfl, rfl⟩ := h
    rw [List.append_nil]
    exact hd
  | cons specifier rest ih =>
    rw [← List.singleton_append, ← List.append_assoc]
    unfold linkAll at h
    split at h
    · -- the specifier has a link already
      rename_i hany
      exact ih ⟨hd.appearances.skip (any_specifier_iff.1 hany), hd.resolved, hd.queue⟩ h
    · rename_i hany
      have hnew := fun hmem => hany (any_specifier_iff.2 hmem)
      have hfaithful := hd.queue.faithful
      have hanswer := Resolver.resolve_result hfaithful importer specifier
      dsimp only at h
      split at h
      · simp at h
      · rename_i target htarget
        refine ih ⟨?_, ?_, ?_⟩ h
        · rw [List.map_append, List.map_singleton]
          exact hd.appearances.add hnew
        · intro l hl
          rcases List.mem_append.1 hl with hl | hl
          · exact hd.resolved l hl
          · rw [List.mem_singleton.1 hl]
            exact hanswer.symm.trans htarget
        · rw [List.map_append, ← List.append_assoc]
          refine Queue.enqueue ?_ (Resolver.has_of_resolve hfaithful htarget)
          exact { hd.queue with faithful := Resolver.resolve_faithful hfaithful _ _ }

/-- A discovery has visited, loaded and transformed nothing more, and its graph is the same. -/
structure SameBooks (d after : Discovery) : Prop where
  visited_eq : after.visited = d.visited
  loads_eq : after.loads = d.loads
  transforms_eq : after.transforms = d.transforms
  graph_eq : after.graph = d.graph

theorem SameBooks.trans {d mid after : Discovery} (h : d.SameBooks mid)
    (h' : mid.SameBooks after) : d.SameBooks after :=
  ⟨h'.visited_eq.trans h.visited_eq, h'.loads_eq.trans h.loads_eq,
    h'.transforms_eq.trans h.transforms_eq, h'.graph_eq.trans h.graph_eq⟩

/-- Linking keeps the books as they are. -/
theorem sameBooks_linkAll (sources : Sources) (importer : ModuleId) (specifiers : List String)
    (links : List Link) (d : Discovery) :
    d.SameBooks (linkAll sources importer links specifiers d).2 := by
  induction specifiers generalizing links d with
  | nil => exact ⟨rfl, rfl, rfl, rfl⟩
  | cons specifier rest ih =>
    unfold linkAll
    split
    · exact ih links d
    · dsimp only
      split
      · exact ⟨rfl, rfl, rfl, rfl⟩
      · refine SameBooks.trans ?_ (ih _ _)
        unfold Discovery.enqueue
        split <;> exact ⟨rfl, rfl, rfl, rfl⟩

/-! ## Processing a module -/

/-- A module that was processed has a text, its code is what the transformer makes of it, and its
links are those that are made for the specifiers that the transformer asks for. -/
theorem exists_of_process {id : ModuleId} {m : Module} {d after : Discovery}
    (h : process sources transformer id d = (.ok m, after)) :
    ∃ text made, sources.load id = .ok text ∧
      transformer id (String.ofList (unifyLineEnds text.toList)) = .ok made ∧
      m.id = id ∧ m.code = made.code ∧
      linkAll sources id [] made.requested
        { d with loads := d.loads ++ [id], transforms := d.transforms ++ [id] } =
          (.ok m.imports, after) := by
  unfold process at h
  dsimp only at h
  split at h
  · cases h
  rename_i text hload
  split at h
  · cases h
  rename_i made hmade
  split at h
  · cases h
  rename_i links linked hlinks
  cases h
  exact ⟨text, made, hload, hmade, rfl, rfl, hlinks⟩

/-- Processing a module visits nothing else, and adds nothing to the graph. -/
theorem process_books {id : ModuleId} {m : Module} {d after : Discovery}
    (h : process sources transformer id d = (.ok m, after)) :
    after.visited = d.visited ∧ after.graph = d.graph := by
  obtain ⟨text, made, -, -, -, -, hlinks⟩ := exists_of_process h
  have hbooks := sameBooks_linkAll sources id made.requested []
    { d with loads := d.loads ++ [id], transforms := d.transforms ++ [id] }
  rw [hlinks] at hbooks
  exact ⟨hbooks.visited_eq, hbooks.graph_eq⟩

/-- A module that was processed is read from the sources, and the targets of its links have been
queued. -/
theorem process_ok {met : List ModuleId} {id : ModuleId} {m : Module} {d after : Discovery}
    (hd : d.Queue sources extensions met)
    (h : process sources transformer id d = (.ok m, after)) :
    m.id = id ∧ m.ReadFrom sources transformer extensions ∧
      after.Queue sources extensions (met ++ m.targets) ∧
      after.visited = d.visited ∧ after.graph = d.graph := by
  obtain ⟨hvisited, hgraph⟩ := process_books h
  obtain ⟨text, made, hload, hmade, rfl, hcode, hlinks⟩ := exists_of_process h
  have hstart : Linked sources extensions m.id met [] []
      { d with loads := d.loads ++ [m.id], transforms := d.transforms ++ [m.id] } :=
    { appearances := FirstAppearances.nil
      resolved := fun l hl => by cases hl
      queue := by
        rw [List.map_nil, List.append_nil]
        exact { hd with } }
  have hend := linkAll_linked hstart hlinks
  rw [List.nil_append] at hend
  exact ⟨rfl, ⟨⟨text, made, hload, hmade, hcode, hend.appearances⟩, hend.resolved⟩, hend.queue,
    hvisited, hgraph⟩

/-! ## Runs -/

/-- What is kept when a module is left out that was visited before, and when one is processed and
added to the graph, is kept by a run, which gives the graph that it ends with. -/
theorem run_keeps {inv : Discovery → Prop}
    (hskip : ∀ {d : Discovery} {id rest}, inv d → d.worklist = id :: rest → id ∈ d.visited →
      inv { d with worklist := rest })
    (hstep : ∀ {d after : Discovery} {id rest m}, inv d → d.worklist = id :: rest →
      process sources transformer id
        { d with worklist := rest, visited := d.visited ++ [id] } = (.ok m, after) →
      inv { after with graph := after.graph.insert m })
    {n : Nat} {d after : Discovery} {g : ModuleGraph} (hd : inv d)
    (h : run sources transformer n d = (.ok g, after)) : inv after ∧ g = after.graph := by
  induction n generalizing d with
  | zero =>
    cases h
    exact ⟨hd, rfl⟩
  | succ n ih =>
    unfold run at h
    split at h
    · cases h
      exact ⟨hd, rfl⟩
    rename_i id rest hwork
    dsimp only at h
    split at h
    · rename_i hvisited
      exact ih (hskip hd hwork (List.contains_iff_mem.1 hvisited)) h
    · split at h
      · cases h
      · rename_i m mid hprocess
        exact ih (hstep hd hwork hprocess) h

/-- A discovery between two modules: the modules visited are those of the graph, each as the
sources give it, and each is the entry or the target of a link of an earlier one. -/
structure Found (sources : Sources) (transformer : Transformer) (extensions : List String)
    (d : Discovery) : Prop where
  queue : d.Queue sources extensions (d.graph.entry :: d.graph.modules.flatMap Module.targets)
  ids_eq : d.graph.ids = d.visited
  read : ∀ m ∈ d.graph.modules, m.ReadFrom sources transformer extensions
  preceded : ∀ earlier m, earlier ++ [m] <+: d.graph.modules →
    m.id ∈ d.graph.entry :: earlier.flatMap Module.targets

/-- A discovery that has done nothing but to resolve its entry is in order. -/
theorem found_entry {r : Resolver} {entry : ModuleId} (probes : List ModuleId)
    (transformer : Transformer) (hr : r.Faithful sources.has extensions)
    (hentry : sources.has entry = true) :
    Found sources transformer extensions
      ⟨r, probes, [], [], [], [entry], [entry], ⟨entry, []⟩⟩ := by
  refine ⟨⟨hr, rfl, FirstAppearances.singleton entry, ?_⟩, rfl, ?_, ?_⟩
  · intro id hid
    rw [List.mem_singleton.1 hid]
    exact hentry
  · intro m hm
    cases hm
  · intro earlier m hpre
    exact absurd (List.prefix_nil.1 hpre) (List.append_ne_nil_of_right_ne_nil _ (by simp))

/-- A discovery that has emptied its worklist has a graph in breadth-first order. -/
theorem Found.discovered {d : Discovery} (hd : d.Found sources transformer extensions)
    (hempty : d.worklist = []) : d.graph.Discovered := by
  have hall : d.queued = d.graph.ids := by
    rw [hd.queue.queued_eq, hempty, List.append_nil, hd.ids_eq]
  refine ⟨?_, hd.preceded⟩
  rw [← hall]
  exact hd.queue.appearances

/-- Taking one module from the worklist keeps a discovery in order. -/
theorem Found.step {d after : Discovery} {id : ModuleId} {rest : List ModuleId} {m : Module}
    (hd : d.Found sources transformer extensions) (hwork : d.worklist = id :: rest)
    (h : process sources transformer id
      { d with worklist := rest, visited := d.visited ++ [id] } = (.ok m, after)) :
    Found sources transformer extensions { after with graph := after.graph.insert m } ∧
      after.graph.entry = d.graph.entry ∧ after.visited = d.visited ++ [id] := by
  have hnew : id ∉ d.graph.ids := by
    rw [hd.ids_eq]
    exact hd.queue.notMem_visited hwork
  have htaken : Queue sources extensions
      (d.graph.entry :: d.graph.modules.flatMap Module.targets)
      { d with worklist := rest, visited := d.visited ++ [id] } := by
    refine ⟨hd.queue.faithful, ?_, hd.queue.appearances, hd.queue.present⟩
    show d.queued = (d.visited ++ [id]) ++ rest
    rw [hd.queue.queued_eq, hwork, List.append_assoc, List.singleton_append]
  obtain ⟨rfl, hread, hqueue, hvisited, hgraph⟩ := process_ok htaken h
  have hinsert : after.graph.insert m = { d.graph with modules := d.graph.modules ++ [m] } := by
    rw [hgraph]
    exact ModuleGraph.insert_of_notMem hnew
  refine ⟨?_, by rw [hgraph], hvisited⟩
  rw [hinsert]
  refine ⟨?_, ?_, ?_, ?_⟩
  · show Queue sources extensions
      (d.graph.entry :: (d.graph.modules ++ [m]).flatMap Module.targets) _
    rw [List.flatMap_append, List.flatMap_singleton]
    exact { hqueue with }
  · show (d.graph.modules ++ [m]).map (·.id) = after.visited
    rw [List.map_append, hvisited, ← hd.ids_eq]
    rfl
  · intro a ha
    rcases List.mem_append.1 ha with ha | ha
    · exact hd.read a ha
    · rw [List.mem_singleton.1 ha]
      exact hread
  · intro earlier a hpre
    rcases List.prefix_concat_iff.1 hpre with heq | hpre
    · obtain ⟨rfl, hlast⟩ := List.append_inj' heq rfl
      rw [(List.cons.inj hlast).1]
      exact (hd.queue.appearances.mem_iff _).1 (hd.queue.mem_queued hwork)
    · exact hd.preceded earlier a hpre

/-- A run that succeeds ends with an empty worklist and keeps a discovery in order. -/
theorem run_found {n : Nat} {d after : Discovery} {g : ModuleGraph} (hb : sources.Bounded)
    (hd : d.Found sources transformer extensions)
    (hn : sources.capacity < n + d.visited.length)
    (h : run sources transformer n d = (.ok g, after)) :
    after.Found sources transformer extensions ∧ after.worklist = [] ∧ g = after.graph ∧
      g.entry = d.graph.entry := by
  induction n generalizing d with
  | zero =>
    have := hd.queue.visited_le hb
    omega
  | succ n ih =>
    unfold run at h
    split at h
    · rename_i hwork
      simp only [Prod.mk.injEq, Except.ok.injEq] at h
      obtain ⟨rfl, rfl⟩ := h
      exact ⟨hd, hwork, rfl, rfl⟩
    · rename_i id rest hwork
      have hfresh := hd.queue.notMem_visited hwork
      dsimp only at h
      rw [if_neg (fun hc => hfresh (List.contains_iff_mem.1 hc))] at h
      split at h
      · simp at h
      · rename_i m mid hprocess
        obtain ⟨hfound, hentry, hvisited⟩ := hd.step hwork hprocess
        have hlen : sources.capacity < n + mid.visited.length := by
          rw [hvisited, List.length_append, List.length_singleton]
          omega
        obtain ⟨h1, h2, h3, h4⟩ := ih hfound hlen h
        exact ⟨h1, h2, h3, h4.trans ((ModuleGraph.entry_insert _ _).trans hentry)⟩

/-! ## The resolver that is left -/

/-- A discovery leaves a faithful resolver, whether it fails or not. -/
theorem linkAll_faithful (importer : ModuleId) (links : List Link) (specifiers : List String)
    {d : Discovery} (hd : d.resolver.Faithful sources.has extensions) :
    (linkAll sources importer links specifiers d).2.resolver.Faithful sources.has extensions := by
  induction specifiers generalizing links d with
  | nil => exact hd
  | cons specifier rest ih =>
    have hresolved := Resolver.resolve_faithful hd importer specifier
    unfold linkAll
    split
    · exact ih links hd
    · dsimp only
      split
      · exact hresolved
      · refine ih _ ?_
        unfold Discovery.enqueue
        split <;> exact hresolved

theorem process_faithful (transformer : Transformer) (id : ModuleId) {d : Discovery}
    (hd : d.resolver.Faithful sources.has extensions) :
    (process sources transformer id d).2.resolver.Faithful sources.has extensions := by
  unfold process
  dsimp only
  split
  · exact hd
  split
  · exact hd
  rename_i text _ made _
  have hlinks := linkAll_faithful id [] made.requested
    (d := { d with loads := d.loads ++ [id], transforms := d.transforms ++ [id] }) hd
  split <;> rename_i heq <;> rw [heq] at hlinks <;> exact hlinks

theorem run_faithful (transformer : Transformer) (n : Nat) {d : Discovery}
    (hd : d.resolver.Faithful sources.has extensions) :
    (run sources transformer n d).2.resolver.Faithful sources.has extensions := by
  induction n generalizing d with
  | zero => exact hd
  | succ n ih =>
    unfold run
    split
    · exact hd
    rename_i id rest _
    dsimp only
    split
    · exact ih hd
    have hprocess := process_faithful transformer id
      (d := { d with worklist := rest, visited := d.visited ++ [id] }) hd
    split <;> rename_i heq <;> rw [heq] at hprocess
    · exact hprocess
    · exact ih hprocess

end Discovery

end ModuleBundler
