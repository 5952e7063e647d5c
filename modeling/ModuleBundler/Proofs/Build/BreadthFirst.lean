import ModuleBundler.Proofs.Build.Discovery
import ModuleBundler.Text.Split

/-!
# Builds find the modules that an entry imports, breadth first

The sources alone say which module imports which (`Sources.Imports`): a module's text is
transformed, and the specifiers that it requests are resolved.  A build that succeeds gives the
modules that chains of imports lead to, each once and as the sources give it, in breadth-first
order; `ModuleGraph.BuiltFrom` puts this together.

* `Module.ReadFrom.eq` — the sources determine a module;
* `buildWith_found` — a build is a discovery that ends with an empty worklist;
* **`ModuleGraph.Discovered.builtFrom`** — a discovered graph of modules that are read from the
  sources is built from them;
* **`buildWith_builtFrom`** — so is what a builder gives, after any builds that it made before.
-/

namespace ModuleBundler

open Relation ModuleBundler.Text

variable {sources : Sources} {transformer : Transformer} {extensions : List String}

/-! ## Imports -/

/-- In the sources, the module `a` imports the module `b`. -/
def Sources.Imports (sources : Sources) (transformer : Transformer) (extensions : List String)
    (a b : ModuleId) : Prop :=
  ∃ m : Module, m.id = a ∧ m.ReadFrom sources transformer extensions ∧ b ∈ m.targets

/-- Links are determined by their specifiers when a specifier has one target. -/
theorem eq_of_map_specifier {target : String → Except BuildFailure ModuleId}
    {links others : List Link} (hl : ∀ l ∈ links, target l.specifier = .ok l.target)
    (ho : ∀ l ∈ others, target l.specifier = .ok l.target)
    (h : links.map (·.specifier) = others.map (·.specifier)) : links = others := by
  induction links generalizing others with
  | nil =>
    rw [List.map_nil] at h
    exact (List.map_eq_nil_iff.1 h.symm).symm
  | cons l rest ih =>
    cases others with
    | nil => simp at h
    | cons o others =>
      rw [List.map_cons, List.map_cons, List.cons.injEq] at h
      obtain ⟨hspec, hrest⟩ := h
      have htarget : l.target = o.target := by
        have heq := hl l List.mem_cons_self
        rw [hspec, ho o List.mem_cons_self, Except.ok.injEq] at heq
        exact heq.symm
      have hlink : l = o := by
        cases l
        cases o
        cases hspec
        cases htarget
        rfl
      rw [hlink, ih (fun k hk => hl k (List.mem_cons_of_mem _ hk))
        (fun k hk => ho k (List.mem_cons_of_mem _ hk)) hrest]

/-- The sources determine a module. -/
theorem Module.ReadFrom.eq {m m' : Module} (h : m.ReadFrom sources transformer extensions)
    (h' : m'.ReadFrom sources transformer extensions) (hid : m.id = m'.id) : m = m' := by
  obtain ⟨text, made, hload, hmade, hcode, happ⟩ := h.transformed
  obtain ⟨text', made', hload', hmade', hcode', happ'⟩ := h'.transformed
  have htext : text = text' := by
    rw [hid, hload', Except.ok.injEq] at hload
    exact hload.symm
  subst htext
  have hsame : made = made' := by
    rw [hid, hmade', Except.ok.injEq] at hmade
    exact hmade.symm
  subst hsame
  have hresolved := h'.resolved
  rw [← hid] at hresolved
  have himports : m.imports = m'.imports :=
    eq_of_map_specifier h.resolved hresolved (happ.eq happ')
  cases m
  cases m'
  cases hid
  cases himports
  cases hcode.trans hcode'.symm
  rfl

/-! ## Built graphs -/

/-- A graph holds what an entry specifier leads to in the sources, in breadth-first order. -/
structure ModuleGraph.BuiltFrom (sources : Sources) (transformer : Transformer)
    (extensions : List String) (entrySpecifier : String) (g : ModuleGraph) : Prop where
  entry_eq : sources.resolveEntry extensions entrySpecifier = .ok g.entry
  /-- Each id is there once. -/
  nodup : g.ids.Nodup
  /-- The modules are those that chains of imports lead to. -/
  mem_iff : ∀ id, id ∈ g.ids ↔ ReflTransGen (sources.Imports transformer extensions) g.entry id
  closed : ∀ m ∈ g.modules, ∀ l ∈ m.imports, l.target ∈ g.ids
  linked : ∀ id ∈ g.ids, ReflTransGen g.LinksTo g.entry id
  read : ∀ m ∈ g.modules, m.ReadFrom sources transformer extensions
  head_eq : g.ids.head? = some g.entry
  /-- Distances from the entry never decrease along the list. -/
  distances : ∃ distance : ModuleId → Nat, (∀ id ∈ g.ids, g.Distance id (distance id)) ∧
    g.ids.Pairwise fun a b => distance a ≤ distance b
  /-- A module behind the entry has a link from an earlier one. -/
  imported : ∀ id ∈ g.ids.tail, (firstImport g.modules id).1 < g.ids.idxOf id
  /-- The modules behind the entry are in the order of the first links to them. -/
  ordered : g.ids.tail.Pairwise (ImportedBefore g.modules)

/-- The links of a module of a graph are its imports. -/
theorem ModuleGraph.linksTo_iff_imports {g : ModuleGraph} {a b : ModuleId}
    (hread : ∀ m ∈ g.modules, m.ReadFrom sources transformer extensions) (ha : a ∈ g.ids) :
    g.LinksTo a b ↔ sources.Imports transformer extensions a b := by
  constructor
  · rintro ⟨m, hm, hma, hb⟩
    exact ⟨m, hma, hread m hm, hb⟩
  · rintro ⟨m, hma, hm, hb⟩
    obtain ⟨m', hm', hma'⟩ := List.mem_map.1 ha
    have heq : m' = m := (hread m' hm').eq hm (hma'.trans hma.symm)
    rw [heq] at hm'
    exact ⟨m, hm', hma, hb⟩

/-- Chains of imports from a module of a discovered graph are chains of links. -/
theorem ModuleGraph.Discovered.chain_iff {g : ModuleGraph} {a b : ModuleId} (h : g.Discovered)
    (hread : ∀ m ∈ g.modules, m.ReadFrom sources transformer extensions) (ha : a ∈ g.ids) :
    ReflTransGen (sources.Imports transformer extensions) a b ↔ ReflTransGen g.LinksTo a b := by
  constructor
  · intro hchain
    have hboth : ReflTransGen g.LinksTo a b ∧ b ∈ g.ids := by
      induction hchain with
      | refl => exact ⟨ReflTransGen.refl, ha⟩
      | tail _ himports ih =>
        have hlink := (ModuleGraph.linksTo_iff_imports hread ih.2).2 himports
        exact ⟨ih.1.tail hlink, h.closed hlink⟩
    exact hboth.1
  · intro hchain
    refine ReflTransGen.mono ?_ _ _ hchain
    rintro a b ⟨m, hm, hma, hb⟩
    exact ⟨m, hma, hread m hm, hb⟩

/-- Links lead out of no discovered graph. -/
theorem ModuleGraph.Discovered.mem_of_chain {g : ModuleGraph} {a b : ModuleId} (h : g.Discovered)
    (ha : a ∈ g.ids) (hchain : ReflTransGen g.LinksTo a b) : b ∈ g.ids := by
  cases hchain with
  | refl => exact ha
  | tail _ hlink => exact h.closed hlink

/-- A chain of imports leads to the modules of a discovered graph and to no others. -/
theorem ModuleGraph.Discovered.mem_iff {g : ModuleGraph} (h : g.Discovered)
    (hread : ∀ m ∈ g.modules, m.ReadFrom sources transformer extensions) (id : ModuleId) :
    id ∈ g.ids ↔ ReflTransGen (sources.Imports transformer extensions) g.entry id := by
  have hentry : g.entry ∈ g.ids := by
    rw [h.ids_eq_cons]
    exact List.mem_cons_self
  rw [h.chain_iff hread hentry]
  exact ⟨h.reached, h.mem_of_chain hentry⟩

theorem ModuleGraph.Discovered.builtFrom {g : ModuleGraph} {entrySpecifier : String}
    (h : g.Discovered) (hread : ∀ m ∈ g.modules, m.ReadFrom sources transformer extensions)
    (hentry : sources.resolveEntry extensions entrySpecifier = .ok g.entry) :
    g.BuiltFrom sources transformer extensions entrySpecifier where
  entry_eq := hentry
  nodup := h.appearances.nodup
  mem_iff := h.mem_iff hread
  closed m hm _ hl := h.closed ⟨m, hm, rfl, List.mem_map_of_mem hl⟩
  linked _ hid := h.reached hid
  read := hread
  head_eq := h.head?_eq
  distances := h.distances
  imported _ hid := h.firstImport_lt hid
  ordered := h.ordered

/-! ## Builds -/

/-- The resolver of a builder that has built the graphs of some entries. -/
def Resolver.afterBuilds (sources : Sources) (transformer : Transformer) (r : Resolver)
    (entrySpecifiers : List String) : Resolver :=
  entrySpecifiers.foldl (fun r specifier => (buildWith sources transformer r specifier).2.resolver) r

/-- Every build leaves a faithful resolver, whether it fails or not. -/
theorem buildWith_faithful (transformer : Transformer) {r : Resolver}
    (hr : r.Faithful sources.has extensions) (specifier : String) :
    (buildWith sources transformer r specifier).2.resolver.Faithful sources.has extensions := by
  have hstart := Resolver.resolveFromRoot_faithful hr specifier
  unfold buildWith
  dsimp only
  split
  · exact hstart
  rename_i entry _
  have hrun := Discovery.run_faithful transformer (sources.capacity + 1)
    (d := ⟨(r.resolveFromRoot sources.has specifier).resolver,
      (r.resolveFromRoot sources.has specifier).probes, [], [], [], [entry], [entry],
      ⟨entry, []⟩⟩) hstart
  split <;> rename_i heq <;> rw [heq] at hrun
  · exact hrun
  · split <;> exact hrun

theorem Resolver.faithful_afterBuilds (transformer : Transformer) {r : Resolver}
    (hr : r.Faithful sources.has extensions) (entrySpecifiers : List String) :
    (r.afterBuilds sources transformer entrySpecifiers).Faithful sources.has extensions := by
  unfold afterBuilds
  induction entrySpecifiers generalizing r with
  | nil => exact hr
  | cons specifier rest ih => exact ih (buildWith_faithful transformer hr specifier)

/-- A build that succeeds is a discovery that has emptied its worklist. -/
theorem buildWith_found {r : Resolver} {specifier : String} {g : ModuleGraph}
    (hb : sources.Bounded) (hr : r.Faithful sources.has extensions)
    (h : (buildWith sources transformer r specifier).1 = .ok g) :
    g.Discovered ∧ (∀ m ∈ g.modules, m.ReadFrom sources transformer extensions) ∧
      sources.resolveEntry extensions specifier = .ok g.entry := by
  have hresolver := Resolver.resolveFromRoot_faithful hr specifier
  have hanswer := Resolver.resolveFromRoot_result hr specifier
  unfold buildWith at h
  dsimp only at h
  split at h
  · cases h
  rename_i entry hentry
  have hhas := Resolver.has_of_resolveFromRoot hr hentry
  have hstart := Discovery.found_entry (r.resolveFromRoot sources.has specifier).probes
    transformer hresolver hhas
  split at h
  · cases h
  rename_i found after hrun
  obtain ⟨hfound, hempty, hgraph, hsame⟩ :=
    Discovery.run_found hb hstart (Nat.lt_succ_self _) hrun
  split at h
  · cases h
  rw [Except.ok.injEq] at h
  subst h
  subst hgraph
  refine ⟨hfound.discovered hempty, hfound.read, ?_⟩
  rw [hsame]
  exact hanswer.symm.trans hentry

/-- Whatever a builder has built before, a build that succeeds gives the modules that its entry
leads to, each once and as the sources give it, in breadth-first order. -/
theorem buildWith_builtFrom (files : List (ModuleId × String)) (transformer : Transformer)
    (extensions earlier : List String) (entrySpecifier : String) (g : ModuleGraph)
    (h : (buildWith (.ofFiles files) transformer
      ((Resolver.fresh extensions).afterBuilds (.ofFiles files) transformer earlier)
      entrySpecifier).1 = .ok g) :
    g.BuiltFrom (.ofFiles files) transformer extensions entrySpecifier := by
  have hr := Resolver.faithful_afterBuilds transformer
    (Resolver.faithful_fresh (Sources.ofFiles files).has extensions) earlier
  obtain ⟨hg, hread, hentry⟩ := buildWith_found (Sources.bounded_ofFiles files) hr h
  exact hg.builtFrom hread hentry

/-- Reads a text whose lines are specifiers as a module that requests them. -/
def requestLines : Transformer := fun _ source =>
  .ok ⟨(splitAtChar '\n' source.toList).map String.ofList, source⟩

/-- Three modules that request each other; the first names the last one twice. -/
def circularFiles : List (ModuleId × String) :=
  [(.ofPath "/main.js", "./b.js\n./a\n./b.js\n./a.js"), (.ofPath "/a.js", "./b.js\r\n./main"),
    (.ofPath "/b.js", "./a")]

/-- What they are built into. -/
def circularGraph : ModuleGraph where
  entry := .ofPath "/main.js"
  modules :=
    [⟨.ofPath "/main.js",
        [⟨"./b.js", .ofPath "/b.js"⟩, ⟨"./a", .ofPath "/a.js"⟩, ⟨"./a.js", .ofPath "/a.js"⟩],
        "./b.js\n./a\n./b.js\n./a.js"⟩,
      ⟨.ofPath "/b.js", [⟨"./a", .ofPath "/a.js"⟩], "./a"⟩,
      ⟨.ofPath "/a.js", [⟨"./b.js", .ofPath "/b.js"⟩, ⟨"./main", .ofPath "/main.js"⟩],
        "./b.js\n./main"⟩]

theorem circularGraph_builtFrom :
    (buildWith (.ofFiles circularFiles) requestLines
      ((Resolver.fresh defaultExtensions).afterBuilds (.ofFiles circularFiles) requestLines ["b"])
      "main").1 = .ok circularGraph ∧
    circularGraph.BuiltFrom (.ofFiles circularFiles) requestLines defaultExtensions "main" := by
  have hbuild : (buildWith (.ofFiles circularFiles) requestLines
      ((Resolver.fresh defaultExtensions).afterBuilds (.ofFiles circularFiles) requestLines ["b"])
      "main").1 = .ok circularGraph := by decide +kernel
  exact ⟨hbuild, buildWith_builtFrom circularFiles requestLines defaultExtensions ["b"] "main"
    circularGraph hbuild⟩

end ModuleBundler
