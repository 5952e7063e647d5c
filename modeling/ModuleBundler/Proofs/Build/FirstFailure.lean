import ModuleBundler.Proofs.Build.Closed
import ModuleBundler.Proofs.Build.Moment
import ModuleBundler.Proofs.Build.Reading
import ModuleBundler.Proofs.Module.Order

/-!
# The first failure of a build

The ids that an entry leads to have a breadth-first order, in which a module that cannot be read
leads nowhere (`Sources.outlined`).  A build goes along that order and ends at the first module that
cannot be read, if there is one (`Discovery.Told`):

* `Discovery.Found.queued_prefix` — what a discovery has queued stands at the beginning of the
  order;
* `Discovery.Along.step` and `Discovery.Along.failed` — so a discovery goes on along the order with
  each module, and ends at one that cannot be read;
* `Discovery.run_told` — so does a run, by induction on the modules that may be taken;
* `buildWith_told` — and so does a build;
* **`buildWith_firstFailure`** — over files, a build whose entry is found ends with the graph of the
  order, or with the failure of the first module in it that cannot be read, and has loaded and
  transformed nothing behind that module.
-/

namespace ModuleBundler

open ModuleBundler.Text

variable {sources : Sources} {transformer : Transformer} {extensions : List String}

namespace Discovery

/-! ## What was loaded and transformed -/

/-- A module that has a text is loaded and transformed, also when it fails. -/
theorem process_records {id : ModuleId} {text : String} (hload : sources.load id = .ok text)
    (transformer : Transformer) (d : Discovery) :
    (process sources transformer id d).2.loads = d.loads ++ [id] ∧
      (process sources transformer id d).2.transforms = d.transforms ++ [id] := by
  unfold process
  rw [hload]
  dsimp only
  split
  · exact ⟨rfl, rfl⟩
  rename_i made _
  have hbooks := sameBooks_linkAll sources id made.requested []
    { d with loads := d.loads ++ [id], transforms := d.transforms ++ [id] }
  split <;> rename_i heq <;> rw [heq] at hbooks <;> exact ⟨hbooks.loads_eq, hbooks.transforms_eq⟩

/-! ## Going along the order -/

/-- The graph of a discovery is that of the modules it has visited. -/
theorem Found.ofTable_outlined {d : Discovery} (hd : d.Found sources transformer extensions) :
    ModuleGraph.ofTable (sources.outlined transformer extensions) d.graph.entry d.visited =
      d.graph := by
  have hmodules : d.visited.map (sources.outlined transformer extensions) = d.graph.modules := by
    rw [← hd.ids_eq]
    show (d.graph.modules.map (·.id)).map _ = _
    rw [List.map_map]
    exact (List.map_congr_left fun m hm =>
      Sources.outlined_of_readFrom (hd.read m hm)).trans (List.map_id _)
  unfold ModuleGraph.ofTable
  rw [hmodules]

/-- What a discovery has queued stands at the beginning of the order, if what it has visited
does. -/
theorem Found.queued_prefix {d : Discovery} {order : List ModuleId}
    (hd : d.Found sources transformer extensions)
    (horder : BreadthFirst (sources.outlined transformer extensions) d.graph.entry order)
    (hvisited : d.visited <+: order) : d.queued <+: order := by
  refine horder.prefix_of_listed (sources.outlined_id transformer extensions) hvisited ?_
  have happearances := hd.queue.appearances
  rw [← hd.ofTable_outlined] at happearances
  unfold ModuleGraph.ofTable at happearances
  rw [List.flatMap_map] at happearances
  exact happearances

/-- The modules that were visited can be read. -/
theorem Found.accepts {d : Discovery} (hd : d.Found sources transformer extensions)
    {id : ModuleId} (hid : id ∈ d.visited) : sources.Accepts transformer extensions id := by
  rw [← hd.ids_eq] at hid
  obtain ⟨m, hm, rfl⟩ := List.mem_map.1 hid
  exact (hd.read m hm).accepts

/-- How a discovery ends that goes along an order. -/
inductive Told (sources : Sources) (transformer : Transformer) (extensions : List String)
    (order : List ModuleId) : Step ModuleGraph → Prop
  /-- All modules could be read. -/
  | built {g : ModuleGraph} {d : Discovery} : g.ids = order →
      (∀ id ∈ order, sources.Accepts transformer extensions id) →
      Told sources transformer extensions order (.ok g, d)
  /-- A module has a text but could not be read, and nothing behind it was loaded. -/
  | failed {e : BuildFailure} {d : Discovery} {before behind : List ModuleId} {id : ModuleId} :
      order = before ++ id :: behind →
      (∀ a ∈ before, sources.Accepts transformer extensions a) →
      (∃ text, sources.load id = .ok text) →
      sources.read transformer extensions id = .error e →
      d.loads = before ++ [id] → d.transforms = before ++ [id] →
      Told sources transformer extensions order (.error e, d)

namespace Told

variable {order : List ModuleId} {step : Step ModuleGraph}

theorem ids_eq {g : ModuleGraph} (h : Told sources transformer extensions order step)
    (hg : step.1 = .ok g) : g.ids = order := by
  cases h with
  | built hids => exact Except.ok.inj hg ▸ hids
  | failed => cases hg

/-- The module that the failure is about is the first in the order that cannot be read. -/
theorem exists_first {e : BuildFailure} (hparse : transformer.FailsByParsing)
    (h : Told sources transformer extensions order step)
    (he : step.1 = .error e) : ∃ before id behind, order = before ++ id :: behind ∧
      (∀ a ∈ before, sources.Accepts transformer extensions a) ∧
      ¬ sources.Accepts transformer extensions id ∧
      sources.Refuses transformer extensions id e ∧
      step.2.loads = before ++ [id] ∧ step.2.transforms = before ++ [id] := by
  cases h with
  | built => cases he
  | failed hsplit hbefore hload hread hloads htransforms =>
    cases he
    have hrefuses := Sources.refuses_of_read hparse hload hread
    exact ⟨_, _, _, hsplit, hbefore, hrefuses.not_accepts, hrefuses, hloads, htransforms⟩

theorem succeeds_iff (h : Told sources transformer extensions order step) :
    (∃ g, step.1 = .ok g) ↔ ∀ id ∈ order, sources.Accepts transformer extensions id := by
  cases h with
  | @built g _ _ haccepts => exact iff_of_true ⟨g, rfl⟩ haccepts
  | @failed e _ before behind id hsplit _ _ hread =>
    refine iff_of_false (fun ⟨g, hg⟩ => by cases hg) fun hall => ?_
    have hid : id ∈ order := by
      rw [hsplit]
      exact List.mem_append_right _ List.mem_cons_self
    obtain ⟨m, hm⟩ := Sources.accepts_iff.1 (hall id hid)
    cases hread.symm.trans hm

end Told

/-- A discovery on its way along an order: it has loaded and transformed what it has visited, which
is the beginning of the order. -/
structure Along (sources : Sources) (transformer : Transformer) (extensions : List String)
    (order : List ModuleId) (d : Discovery) : Prop where
  found : d.Found sources transformer extensions
  loads_eq : d.loads = d.visited
  transforms_eq : d.transforms = d.visited
  breadthFirst : BreadthFirst (sources.outlined transformer extensions) d.graph.entry order
  visited_prefix : d.visited <+: order

namespace Along

variable {order : List ModuleId} {d after : Discovery} {id : ModuleId} {rest : List ModuleId}

/-- With an empty worklist, a discovery is at the end of the order. -/
theorem visited_eq (h : d.Along sources transformer extensions order) (hwork : d.worklist = []) :
    d.visited = order := by
  have hall : BreadthFirst (sources.outlined transformer extensions) d.graph.entry d.visited := by
    unfold BreadthFirst
    rw [h.found.ofTable_outlined]
    exact h.found.discovered hwork
  exact hall.unique (sources.outlined_id transformer extensions) h.breadthFirst

/-- The module that is taken next stands in the order right behind those visited. -/
theorem exists_behind (h : d.Along sources transformer extensions order)
    (hwork : d.worklist = id :: rest) :
    ∃ behind, order = d.visited ++ id :: behind ∧ id ∉ d.visited ∧ sources.has id = true := by
  have hqueue := h.found.queue
  obtain ⟨behind, hbehind⟩ := h.found.queued_prefix h.breadthFirst h.visited_prefix
  rw [hqueue.queued_eq, hwork, List.append_assoc, List.cons_append] at hbehind
  exact ⟨rest ++ behind, hbehind.symm, hqueue.notMem_visited hwork,
    hqueue.present id (hqueue.mem_queued hwork)⟩

/-- Taking a module that can be read keeps a discovery on its way. -/
theorem step {m : Module} (hs : sources.Consistent)
    (h : d.Along sources transformer extensions order) (hwork : d.worklist = id :: rest)
    (hprocess : process sources transformer id
      { d with worklist := rest, visited := d.visited ++ [id] } = (.ok m, after)) :
    Along sources transformer extensions order { after with graph := after.graph.insert m } := by
  obtain ⟨behind, hbehind, -, hhas⟩ := h.exists_behind hwork
  obtain ⟨text, hload⟩ := (hs id).1 hhas
  obtain ⟨hfound, hentry, hvisited⟩ := h.found.step hwork hprocess
  have hrecords := process_records hload transformer
    { d with worklist := rest, visited := d.visited ++ [id] }
  rw [hprocess, h.loads_eq, h.transforms_eq, ← hvisited] at hrecords
  refine ⟨hfound, hrecords.1, hrecords.2, ?_, ?_⟩
  · show BreadthFirst _ (after.graph.insert m).entry order
    rw [ModuleGraph.entry_insert, hentry]
    exact h.breadthFirst
  · show after.visited <+: order
    rw [hvisited, hbehind]
    exact ⟨behind, by rw [List.append_assoc, List.singleton_append]⟩

/-- Taking a module that cannot be read ends a discovery. -/
theorem failed {e : BuildFailure} (hs : sources.Consistent)
    (h : d.Along sources transformer extensions order) (hwork : d.worklist = id :: rest)
    (hprocess : process sources transformer id
      { d with worklist := rest, visited := d.visited ++ [id] } = (.error e, after)) :
    Told sources transformer extensions order (.error e, after) := by
  obtain ⟨behind, hbehind, -, hhas⟩ := h.exists_behind hwork
  obtain ⟨text, hload⟩ := (hs id).1 hhas
  have hresult := process_result (d := { d with worklist := rest, visited := d.visited ++ [id] })
    h.found.queue.faithful transformer id
  have hrecords := process_records hload transformer
    { d with worklist := rest, visited := d.visited ++ [id] }
  rw [hprocess] at hresult
  rw [hprocess, h.loads_eq, h.transforms_eq] at hrecords
  exact .failed hbehind (fun a => h.found.accepts) ⟨text, hload⟩ hresult.symm hrecords.1 hrecords.2

end Along

/-- A run goes along the order to its end, or to the first module that cannot be read. -/
theorem run_told {n : Nat} {d : Discovery} {order : List ModuleId} (hs : sources.Consistent)
    (hb : sources.Bounded) (hd : d.Along sources transformer extensions order)
    (hn : sources.capacity < n + d.visited.length) :
    Told sources transformer extensions order (run sources transformer n d) := by
  induction n generalizing d with
  | zero =>
    have := hd.found.queue.visited_le hb
    omega
  | succ n ih =>
    unfold run
    split
    · rename_i hwork
      have hvisited := hd.visited_eq hwork
      refine .built (hd.found.ids_eq.trans hvisited) fun id hid => hd.found.accepts ?_
      rwa [hvisited]
    · rename_i id rest hwork
      obtain ⟨behind, -, hnew, -⟩ := hd.exists_behind hwork
      dsimp only
      rw [if_neg fun hc => hnew (List.contains_iff_mem.1 hc)]
      split <;> rename_i mid hprocess
      · exact hd.failed hs hwork hprocess
      · refine ih (hd.step hs hwork hprocess) ?_
        show sources.capacity < n + mid.visited.length
        rw [(hd.found.step hwork hprocess).2.2, List.length_append, List.length_singleton]
        omega

end Discovery

/-! ## Builds -/

open Discovery

/-- A build whose entry is found goes along the breadth-first order from there. -/
theorem buildWith_told (hs : sources.Consistent) (hb : sources.Bounded) {r : Resolver}
    (hr : r.Faithful sources.has extensions) {entrySpecifier : String} {entry : ModuleId}
    (hentry : sources.resolveEntry extensions entrySpecifier = .ok entry) {order : List ModuleId}
    (horder : BreadthFirst (sources.outlined transformer extensions) entry order) :
    Told sources transformer extensions order
      (buildWith sources transformer r entrySpecifier) := by
  have hanswer := (Resolver.resolveFromRoot_result hr entrySpecifier).trans hentry
  have hstart := found_entry (r.resolveFromRoot sources.has entrySpecifier).probes transformer
    (Resolver.resolveFromRoot_faithful hr entrySpecifier)
    (Resolver.has_of_resolveFromRoot hr hanswer)
  have htold := run_told hs hb ⟨hstart, rfl, rfl, horder, List.nil_prefix⟩ (Nat.lt_succ_self _)
  unfold buildWith
  dsimp only
  rw [hanswer]
  dsimp only
  split <;> rename_i hrun <;> rw [hrun] at htold
  · exact htold
  · -- no link of a graph in breadth-first order leads out of it
    obtain ⟨hfound, hempty, rfl, -⟩ := run_found hb hstart (Nat.lt_succ_self _) hrun
    have hclosed := ModuleGraph.firstMissing_eq_none_iff.2 fun a b hab =>
      (hfound.discovered hempty).closed hab
    rw [hclosed]
    exact htold

/-- There is a breadth-first order from every id that exists. -/
theorem Sources.exists_order (hb : sources.Bounded) (transformer : Transformer)
    (extensions : List String) {entry : ModuleId} (hentry : sources.has entry = true) :
    ∃ order, BreadthFirst (sources.outlined transformer extensions) entry order :=
  exists_breadthFirst (sources.outlined_id transformer extensions)
    (P := fun id => sources.has id = true) hentry
    (fun _ _ _ htarget => has_of_mem_targets (readFrom_outlined htarget) htarget) hb

/-- A build whose entry is found goes along an order. -/
theorem buildWith_exists_told (hs : sources.Consistent) (hb : sources.Bounded) {r : Resolver}
    (hr : r.Faithful sources.has extensions) (transformer : Transformer) {entrySpecifier : String}
    {entry : ModuleId} (hentry : sources.resolveEntry extensions entrySpecifier = .ok entry) :
    ∃ order, BreadthFirst (sources.outlined transformer extensions) entry order ∧
      Told sources transformer extensions order
        (buildWith sources transformer r entrySpecifier) := by
  have hhas := Resolver.has_of_resolveFromRoot (Resolver.faithful_fresh _ _) hentry
  obtain ⟨order, horder⟩ := Sources.exists_order hb transformer extensions hhas
  exact ⟨order, horder, buildWith_told hs hb hr hentry horder⟩

/-- A build whose entry is not found fails for that reason. -/
theorem buildWith_of_unresolved {r : Resolver} (hr : r.Faithful sources.has extensions)
    (transformer : Transformer) {entrySpecifier : String} {e : BuildFailure}
    (hentry : sources.resolveEntry extensions entrySpecifier = .error e) :
    (buildWith sources transformer r entrySpecifier).1 = .error e := by
  have hanswer := (Resolver.resolveFromRoot_result hr entrySpecifier).trans hentry
  unfold buildWith
  dsimp only
  rw [hanswer]

/-- A failure to find an entry is no failure of a file. -/
theorem Sources.reason_of_resolveEntry {entrySpecifier : String} {e : BuildFailure}
    (h : sources.resolveEntry extensions entrySpecifier = .error e) :
    ∃ reason, e = .resolution .entry entrySpecifier reason := by
  unfold Sources.resolveEntry Resolver.resolveFromRoot Resolver.findFor at h
  split at h
  · cases h
    exact ⟨.emptyEntry, rfl⟩
  · dsimp only at h
    split at h
    · cases h
    · cases h
      exact ⟨_, rfl⟩

/-- A build from files never fails because of a file.  Once its entry is found, it succeeds exactly
if all modules in the breadth-first order can be read, and then the graph has them in that order.
Otherwise it fails with the failure of the first module in the order that cannot be read: the
failure of its text, or that of its first specifier that leads nowhere.  What it has loaded and
transformed is the order up to that module.  The transformer refuses texts as those of
`transformerFor` do (`failsByParsing_transformerFor`). -/
theorem buildWith_firstFailure (files : List (ModuleId × String)) (transformer : Transformer)
    (hparse : transformer.FailsByParsing) (extensions earlier : List String)
    (entrySpecifier : String) :
    let sources := Sources.ofFiles files
    let step := buildWith sources transformer
      ((Resolver.fresh extensions).afterBuilds sources transformer earlier) entrySpecifier
    (∀ path fault, step.1 ≠ .error (.file path fault)) ∧
    ∀ entry, sources.resolveEntry extensions entrySpecifier = .ok entry →
      ∃ order, BreadthFirst (sources.outlined transformer extensions) entry order ∧
        (∀ other, BreadthFirst (sources.outlined transformer extensions) entry other →
          other = order) ∧
        (∀ g, step.1 = .ok g → g.ids = order) ∧
        ((∃ g, step.1 = .ok g) ↔ ∀ id ∈ order, sources.Accepts transformer extensions id) ∧
        ∀ e, step.1 = .error e → ∃ before id behind, order = before ++ id :: behind ∧
          (∀ a ∈ before, sources.Accepts transformer extensions a) ∧
          ¬ sources.Accepts transformer extensions id ∧
          sources.Refuses transformer extensions id e ∧
          step.2.loads = before ++ [id] ∧ step.2.transforms = before ++ [id] := by
  intro sources step
  have hs : sources.Consistent := Sources.consistent_ofFiles files
  have hb : sources.Bounded := Sources.bounded_ofFiles files
  have hr := Resolver.faithful_afterBuilds transformer
    (Resolver.faithful_fresh sources.has extensions) earlier
  refine ⟨?_, ?_⟩
  · intro path fault hstep
    cases hentry : sources.resolveEntry extensions entrySpecifier with
    | error e =>
      obtain ⟨reason, rfl⟩ := Sources.reason_of_resolveEntry hentry
      cases hstep.symm.trans (buildWith_of_unresolved hr transformer hentry)
    | ok entry =>
      obtain ⟨order, -, htold⟩ := buildWith_exists_told hs hb hr transformer hentry
      obtain ⟨_, id, _, -, -, -, hrefuses, -⟩ := htold.exists_first hparse hstep
      cases hrefuses
  · intro entry hentry
    obtain ⟨order, horder, htold⟩ := buildWith_exists_told hs hb hr transformer hentry
    exact ⟨order, horder, fun other hother =>
      hother.unique (sources.outlined_id transformer extensions) horder,
      fun _ => htold.ids_eq, htold.succeeds_iff, fun _ => htold.exists_first hparse⟩

/-- Modules of which two cannot be read: one requests two modules that are not there, and one is no
valid program. -/
def brokenFiles : List (ModuleId × String) :=
  [(.ofPath "/main.js", "import './b';\nimport './a.js';\nimport './c.js';\n"),
    (.ofPath "/a.js", "import './d.js';\nimport 'lodash';\nimport './gone';\n"),
    (.ofPath "/b.js", "import './d.js';\n"), (.ofPath "/c.js", "let let"),
    (.ofPath "/d.js", "export const d = 1;\n")]

/-- What their build does, after one that has failed at the text of `/c.js`. -/
def brokenBuild : Discovery.Step ModuleGraph :=
  buildWith (.ofFiles brokenFiles) (transformerFor none)
    ((Resolver.fresh defaultExtensions).afterBuilds (.ofFiles brokenFiles) (transformerFor none)
      ["c"])
    "main"

theorem brokenFiles_firstFailure :
    (transformerFor none).FailsByParsing ∧
    (Sources.ofFiles brokenFiles).resolveEntry defaultExtensions "main" =
      .ok (.ofPath "/main.js") ∧
    brokenBuild.1 =
      .error (.resolution (.module (.ofPath "/a.js")) "lodash" .bareSpecifier) ∧
    ∃ order behind, BreadthFirst ((Sources.ofFiles brokenFiles).outlined (transformerFor none)
        defaultExtensions) (.ofPath "/main.js") order ∧
      order = [.ofPath "/main.js", .ofPath "/b.js"] ++ .ofPath "/a.js" :: behind ∧
      (Sources.ofFiles brokenFiles).Refuses (transformerFor none) defaultExtensions
        (.ofPath "/a.js") (.resolution (.module (.ofPath "/a.js")) "lodash" .bareSpecifier) := by
  have hentry : (Sources.ofFiles brokenFiles).resolveEntry defaultExtensions "main" =
      .ok (.ofPath "/main.js") := by decide +kernel
  have hbuild : (brokenBuild.1.map (·.ids), brokenBuild.2.loads) =
      (.error (.resolution (.module (.ofPath "/a.js")) "lodash" .bareSpecifier),
        [.ofPath "/main.js", .ofPath "/b.js"] ++ [.ofPath "/a.js"]) := by decide +kernel
  unfold brokenBuild at hbuild ⊢
  obtain ⟨order, horder, -, -, -, hfirst⟩ := (buildWith_firstFailure brokenFiles
    (transformerFor none) (failsByParsing_transformerFor none) defaultExtensions ["c"]
    "main").2 _ hentry
  generalize buildWith (.ofFiles brokenFiles) (transformerFor none) _ "main" = step
    at hbuild hfirst ⊢
  obtain ⟨hresult, hloads⟩ := Prod.mk.inj hbuild
  rcases hstep : step.1 with e | g <;> rw [hstep] at hresult <;> cases hresult
  obtain ⟨before, id, behind, hsplit, -, -, hrefuses, hbefore, -⟩ := hfirst _ hstep
  obtain ⟨rfl, hid⟩ := List.append_inj' (hbefore.symm.trans hloads) rfl
  obtain ⟨rfl, -⟩ := List.cons.inj hid
  exact ⟨failsByParsing_transformerFor none, hentry, rfl, order, behind, horder, hsplit, hrefuses⟩

end ModuleBundler
