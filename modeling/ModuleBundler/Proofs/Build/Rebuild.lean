import ModuleBundler.Proofs.Build.FirstFailure
import ModuleBundler.Proofs.Module.Id

/-!
# Building from a module of a graph

A build from an entry reads all that the modules of its graph lead to.  So a build from any of
these modules succeeds too, in an order of its own, and gives the modules that are reached from
there:

* `Sources.resolveEntry_text` — an id that exists is found by its text;
* `ModuleGraph.Discovered.accepts_of_order` — the modules in the order of the second build are
  modules of the first graph, so all of them can be read;
* **`buildWith_rebuilt`** — the second graph is the part of the first that is reached from its
  entry, whatever the resolver of either build remembers.
-/

namespace ModuleBundler

open Relation ModuleBundler.Text

variable {sources : Sources} {transformer : Transformer} {extensions : List String}

/-- An id that exists is found by its text. -/
theorem Sources.resolveEntry_text {id : ModuleId} (hid : sources.has id = true)
    (extensions : List String) : sources.resolveEntry extensions id.text = .ok id := by
  -- the first candidate is the id itself
  have hprobe : (probe sources.has (candidates extensions id)).1 = some id := by
    unfold candidates
    rw [List.cons_append]
    unfold probe
    rw [if_pos hid]
  have hfind := Resolver.find_result (Resolver.faithful_fresh sources.has extensions) id
  unfold Sources.resolveEntry Resolver.resolveFromRoot Resolver.findFor
  rw [if_neg id.not_isBlank_text, id.ofPath_text]
  dsimp only
  rw [hfind, hprobe]

/-- All that a module of a discovered graph leads to can be read. -/
theorem ModuleGraph.Discovered.accepts_of_order {g : ModuleGraph} (h : g.Discovered)
    (hread : ∀ m ∈ g.modules, m.ReadFrom sources transformer extensions) {entry : ModuleId}
    (hentry : entry ∈ g.ids) {order : List ModuleId}
    (horder : BreadthFirst (sources.outlined transformer extensions) entry order) :
    ∀ id ∈ order, sources.Accepts transformer extensions id := by
  intro id hid
  -- the links of the order are imports
  have hchain : ReflTransGen (sources.Imports transformer extensions) entry id := by
    rw [← ids_ofTable (sources.outlined_id transformer extensions) entry order] at hid
    refine ReflTransGen.mono ?_ _ _ (Discovered.reached horder hid)
    rintro a b ⟨m, hm, hma, hb⟩
    obtain ⟨a', -, rfl⟩ := List.mem_map.1 hm
    exact ⟨_, hma, Sources.readFrom_outlined hb, hb⟩
  have hmem := h.mem_of_chain hentry ((h.chain_iff hread hentry).1 hchain)
  obtain ⟨m, hm, rfl⟩ := List.mem_map.1 hmem
  exact (hread m hm).accepts

/-- A build from any module of a graph that was built succeeds, whatever its builder has built
before, and gives each module of the graph that is reached from there, once and as it is in the
graph. -/
theorem buildWith_rebuilt (files : List (ModuleId × String)) (transformer : Transformer)
    (extensions earlier later : List String) (entrySpecifier : String) (g : ModuleGraph)
    (h : (buildWith (.ofFiles files) transformer
      ((Resolver.fresh extensions).afterBuilds (.ofFiles files) transformer earlier)
      entrySpecifier).1 = .ok g) (m : Module) (hm : m ∈ g.modules) :
    ∃ g', (buildWith (.ofFiles files) transformer
        ((Resolver.fresh extensions).afterBuilds (.ofFiles files) transformer later)
        m.id.text).1 = .ok g' ∧
      g'.entry = m.id ∧ g'.ids.Nodup ∧
      ∀ m', m' ∈ g'.modules ↔ m' ∈ g.modules ∧ ReflTransGen g.LinksTo m.id m'.id := by
  have hs := Sources.consistent_ofFiles files
  have hb := Sources.bounded_ofFiles files
  have hfresh := Resolver.faithful_fresh (Sources.ofFiles files).has extensions
  have hearlier := Resolver.faithful_afterBuilds transformer hfresh earlier
  have hlater := Resolver.faithful_afterBuilds transformer hfresh later
  obtain ⟨hg, hread, -⟩ := buildWith_found hb hearlier h
  have hmem : m.id ∈ g.ids := List.mem_map_of_mem hm
  -- the module is found as an entry, and all modules in the order from there can be read
  obtain ⟨text, _, hload, -⟩ := (hread m hm).transformed
  have hhas := (hs m.id).2 ⟨text, hload⟩
  have hfound := Sources.resolveEntry_text hhas extensions
  obtain ⟨order, horder, htold⟩ := buildWith_exists_told hs hb hlater transformer hfound
  obtain ⟨g', hbuild⟩ := htold.succeeds_iff.2 (hg.accepts_of_order hread hmem horder)
  obtain ⟨hg', hread', hentry'⟩ := buildWith_found hb hlater hbuild
  have hentry : g'.entry = m.id := Except.ok.inj (hentry'.symm.trans hfound)
  refine ⟨g', hbuild, hentry, hg'.appearances.nodup, fun m' => ?_⟩
  -- both graphs have what the imports lead to from the module
  have hids : m'.id ∈ g'.ids ↔ ReflTransGen g.LinksTo m.id m'.id := by
    rw [hg'.mem_iff hread', hentry, hg.chain_iff hread hmem]
  constructor
  · intro hm'
    have hchain := hids.1 (List.mem_map_of_mem hm')
    obtain ⟨k, hk, hid⟩ := List.mem_map.1 (hg.mem_of_chain hmem hchain)
    refine ⟨?_, hchain⟩
    rwa [← (hread k hk).eq (hread' m' hm') hid]
  · rintro ⟨hm', hchain⟩
    obtain ⟨k, hk, hid⟩ := List.mem_map.1 (hids.2 hchain)
    rwa [← (hread' k hk).eq (hread m' hm') hid]

/-- Modules of which the first leads to all and the others lead to each other in another order. -/
def layeredFiles : List (ModuleId × String) :=
  [(.ofPath "/main.js", "./a\n./b"), (.ofPath "/a.js", "./c\n./b"), (.ofPath "/b.js", "./a.js"),
    (.ofPath "/c.js", "./c")]

theorem layeredFiles_rebuilt :
    ∃ g m, (buildWith (.ofFiles layeredFiles) requestLines
        ((Resolver.fresh defaultExtensions).afterBuilds (.ofFiles layeredFiles) requestLines [])
        "main").1 = .ok g ∧
      g.ids = [.ofPath "/main.js", .ofPath "/a.js", .ofPath "/b.js", .ofPath "/c.js"] ∧
      m ∈ g.modules ∧ m.id = .ofPath "/b.js" ∧
      ∃ g', (buildWith (.ofFiles layeredFiles) requestLines
          ((Resolver.fresh defaultExtensions).afterBuilds (.ofFiles layeredFiles) requestLines
            ["main"])
          m.id.text).1 = .ok g' ∧
        g'.ids = [.ofPath "/b.js", .ofPath "/a.js", .ofPath "/c.js"] ∧
        ∀ m', m' ∈ g'.modules ↔ m' ∈ g.modules ∧ ReflTransGen g.LinksTo m.id m'.id := by
  have hfirst : (buildWith (.ofFiles layeredFiles) requestLines
      ((Resolver.fresh defaultExtensions).afterBuilds (.ofFiles layeredFiles) requestLines [])
      "main").1.map (·.ids) =
        .ok [.ofPath "/main.js", .ofPath "/a.js", .ofPath "/b.js", .ofPath "/c.js"] := by
    decide +kernel
  have hsecond : (buildWith (.ofFiles layeredFiles) requestLines
      ((Resolver.fresh defaultExtensions).afterBuilds (.ofFiles layeredFiles) requestLines
        ["main"])
      (ModuleId.ofPath "/b.js").text).1.map (·.ids) =
        .ok [.ofPath "/b.js", .ofPath "/a.js", .ofPath "/c.js"] := by
    decide +kernel
  rcases hbuild : (buildWith (.ofFiles layeredFiles) requestLines
      ((Resolver.fresh defaultExtensions).afterBuilds (.ofFiles layeredFiles) requestLines [])
      "main").1 with e | g <;> rw [hbuild] at hfirst
  · cases hfirst
  have hids : g.ids = _ := Except.ok.inj hfirst
  have hmem : ModuleId.ofPath "/b.js" ∈ g.ids := by
    rw [hids]
    simp
  obtain ⟨m, hm, hid⟩ := List.mem_map.1 hmem
  obtain ⟨g', hbuild', -, -, hmodules⟩ := buildWith_rebuilt layeredFiles requestLines
    defaultExtensions [] ["main"] "main" g hbuild m hm
  have hwarm := hbuild'
  rw [hid] at hwarm
  rw [hwarm] at hsecond
  exact ⟨g, m, rfl, hids, hm, hid, g', hbuild', Except.ok.inj hsecond, hmodules⟩

end ModuleBundler
