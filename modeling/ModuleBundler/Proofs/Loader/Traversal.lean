import ModuleBundler.Proofs.Loader.Effect
import ModuleBundler.Proofs.Loader.RequiresFirst
import ModuleBundler.Proofs.Module.DepthFirst

/-!
# Running a graph is a depth-first walk

When the bodies of a graph require their links first and none fails after that, running the graph
visits it depth first, whatever cycles it has.

* `Registry.Passes.run_requires` — from a point at which links are left to require, a body succeeds,
  and the executions it starts are those of a depth-first walk;
* `Registry.Passes.required` — at any point of any run, a module that the body has required so far
  is loaded or loading;
* `Registry.Passes.chained` — a chain of links leads from each waiting module to the running one;
* **`Session.run_traverses`** — running a graph executes each module that the entry leads to once,
  in depth-first order, and each body finds its dependencies loaded or waiting for it.
-/

namespace ModuleBundler.Loader

open LoaderState Relation

/-! ## The executions of a walk -/

/-- Since the executions `before`, those of the modules `seen` were started, and these are the
modules that have a phase. -/
structure World.Visited (before seen : List ModuleId) (w : World) : Prop where
  started_eq : w.started = before ++ seen
  phase_iff : ∀ id, (w.state.phase? id).isSome ↔ id ∈ seen

namespace World.Visited

variable {before seen : List ModuleId} {w v : World} {id : ModuleId}

theorem sameLoader (h : w.Visited before seen) (hsame : w.SameLoader v) :
    v.Visited before seen := by
  refine ⟨hsame.started_eq.trans h.started_eq, ?_⟩
  rw [hsame.state_eq]
  exact h.phase_iff

theorem notMem (h : w.Visited before seen) (hnone : w.state.phase? id = none) : id ∉ seen := by
  rw [← h.phase_iff, hnone]
  exact Bool.false_ne_true

theorem enter (h : w.Visited before seen) (m : Registered) :
    (w.enter m).2.Visited before (seen ++ [m.id]) := by
  refine ⟨?_, ?_⟩
  · show w.started ++ [m.id] = _
    rw [h.started_eq, List.append_assoc]
  · intro other
    show ((w.state.put m.id _).phase? other).isSome ↔ _
    rw [phase?_put, List.mem_append, List.mem_singleton, ← h.phase_iff]
    by_cases heq : other = m.id
    · simp [heq]
    · simp [heq]

theorem put (h : w.Visited before seen) (hid : id ∈ seen) (phase : Phase) :
    World.Visited before seen { w with state := w.state.put id phase } := by
  refine ⟨h.started_eq, ?_⟩
  intro other
  show ((w.state.put id phase).phase? other).isSome ↔ _
  rw [phase?_put, ← h.phase_iff]
  by_cases heq : other = id
  · rw [if_pos heq, heq, h.phase_iff]
    exact iff_of_true rfl hid
  · rw [if_neg heq]

/-- The number of an execution that begins. -/
theorem attempt_eq (h : w.Visited before seen) {m : Registered} (hnew : m.id ∉ seen) :
    (w.enter m).1.attempt = before.count m.id + 1 := by
  show (w.started ++ [m.id]).count m.id = _
  rw [h.started_eq, List.count_append, List.count_append, List.count_eq_zero.2 hnew,
    List.count_singleton_self]

end World.Visited

/-! ## Running a graph -/

/-- Every body of a registry requires its links first, in the execution that comes after the
executions `before`. -/
def Registry.RequiresFirst (r : Registry) (before : List ModuleId) : Prop :=
  ∀ m ∈ r.modules, Loader.RequiresFirst (before.count m.id + 1) m.imports m.body

/-- Requiring a module succeeds, and the executions it starts are those of a depth-first walk from
the module. -/
def WalksFrom (g : ModuleGraph) (before seen : List ModuleId) (requiring : Requiring)
    (id : ModuleId) (w : World) : Prop :=
  ∃ o v after, requiring id w = (.ok o, v) ∧ g.DepthFirst [id] seen after ∧
    v.Visited before after

section Walks

variable {r : Registry} {g : ModuleGraph} {before seen : List ModuleId} {n : Nat} {id : ModuleId}
  {w : World}

/-- A module that was visited is passed over. -/
theorem walksFrom_of_phase {phase : Phase} (hw : w.Visited before seen)
    (hphase : w.state.phase? id = some phase) :
    WalksFrom g before seen (requireWithin r (n + 1)) id w := by
  have hseen : id ∈ seen := by
    rw [← hw.phase_iff, hphase]
    rfl
  exact ⟨phase.exports, w, seen, requireWithin_of_phase hphase, .skip hseen .done, hw⟩

/-- A module that was not visited is visited, and then what its body visits. -/
theorem walksFrom_of_run (hr : r.Mirrors g) {m : Registered} {after : List ModuleId} {v : World}
    (hw : w.Visited before seen) (hnone : w.state.phase? id = none) (hm : r.get? id = some m)
    (hrun : (w.enter m).1.run (requireWithin r n) m.body (w.enter m).2 = (.ok (), v))
    (hwalk : g.DepthFirst (m.imports.map (·.target)) (seen ++ [m.id]) after)
    (hv : v.Visited before after) : WalksFrom g before seen (requireWithin r (n + 1)) id w := by
  obtain ⟨m', hm', hid', himports⟩ := hr.exists_module (Registry.mem_of_get? hm)
  obtain rfl : m'.id = id := hid'.trans (Registry.id_of_get? hm)
  rw [← hid', ← himports] at hwalk
  have hin : m'.id ∈ after :=
    hwalk.seen_prefix.subset (List.mem_append_right _ (List.mem_singleton_self _))
  exact ⟨_, _, after, requireWithin_of_run_ok hnone hm hrun,
    .visit hm' (hw.notMem hnone) hwalk .done, hv.put hin _⟩

end Walks

/-- What is left of the body comes after the statements that require the module's links. -/
def Point.PastLinks (p : Point) : Prop :=
  p.rest <:+ p.frame.module.body.drop p.frame.module.imports.length

namespace Registry.Passes

variable {r : Registry} {w : World} {id : ModuleId} {p : Point} {g : ModuleGraph}

/-- The running body is that of a registered module. -/
theorem module_mem (h : r.Passes w id p) : p.frame.module ∈ r.modules :=
  h.registered p.frame List.mem_cons_self

/-- From a point at which links are left to require, a body succeeds, and the executions it starts
are those of a depth-first walk of their targets. -/
theorem run_requires (hg : g.Closed) (hr : r.Mirrors g) {before : List ModuleId}
    (hbody : r.RequiresFirst before) {waiting : List Frame} {f : Frame} {body : List Statement}
    {v : World} {links : List Link} {seen : List ModuleId}
    (h : r.Passes w id ⟨waiting, f, body, v⟩) (hlinks : links ⊆ f.module.imports)
    (hrequires : Loader.RequiresFirst f.attempt links body) (hv : v.Visited before seen) :
    ∃ v' after, f.run (Point.requiring r waiting) body v = (.ok (), v') ∧
      g.DepthFirst (links.map (·.target)) seen after ∧ v'.Visited before after := by
  -- the induction is on how many more bodies can wait, and within a body on the links that are left
  generalize hroom : r.modules.length - waiting.length = room
  induction room using Nat.strong_induction_on generalizing waiting f body v links seen with
  | _ room ihroom =>
    induction links generalizing f body v seen with
    | nil =>
      obtain ⟨v', hrun, hsame⟩ := Frame.run_calm (Point.requiring r waiting) v hrequires
      exact ⟨v', seen, hrun, .done, hv.sameLoader hsame⟩
    | cons l links ih =>
      obtain ⟨handle, rest, rfl, hrest⟩ := hrequires.exists_require
      have hl : l ∈ f.module.imports := hlinks List.mem_cons_self
      have htarget := hr.targetOf_eq hg h.module_mem hl
      have hwalks : WalksFrom g before seen (Point.requiring r waiting) l.target v := by
        rw [h.requiring_eq]
        cases hphase : v.state.phase? l.target with
        | some phase => exact walksFrom_of_phase hv hphase
        | none =>
          obtain ⟨m, hm⟩ := hr.exists_registered (hg.target_mem (hr.linksTo h.module_mem hl))
          have hfirst := hbody m (Registry.mem_of_get? hm)
          rw [← hv.attempt_eq (by rw [Registry.id_of_get? hm]; exact hv.notMem hphase)] at hfirst
          have hless : r.modules.length - (f :: waiting).length < room := by
            rw [← hroom, h.room_eq]
            exact Nat.lt_succ_self _
          obtain ⟨u, below, hrun, hbelow, hu⟩ := ihroom _ hless
            (h.nested rfl htarget hphase hm) (List.Subset.refl _) hfirst (hv.enter m) rfl
          exact walksFrom_of_run hr hv hphase hm hrun hbelow hu
      obtain ⟨o, u, below, hok, hwalk, hu⟩ := hwalks
      have hstep : f.step (Point.requiring r waiting) v (.require l.specifier handle) =
          (.ok (f.keep handle o), u) := Frame.step_require htarget hok
      obtain ⟨v', after, hrun, hafter, hv'⟩ := ih (h.next hstep)
        (fun k hk => hlinks (List.mem_cons_of_mem _ hk)) hrest hu
      refine ⟨v', after, ?_, hwalk.append hafter, hv'⟩
      unfold Frame.run
      rw [hstep]
      exact hrun

/-- A module that a body has required so far has a phase. -/
theorem required (h : r.Passes w id p) :
    ∃ passed, p.frame.module.body = passed ++ p.rest ∧
      ∀ specifier handle, Statement.require specifier handle ∈ passed →
        ∃ target, targetOf p.frame.module.imports specifier = some target ∧
          (p.world.state.phase? target).isSome := by
  induction h with
  | enter _ _ => exact ⟨[], rfl, fun _ _ hmem => by cases hmem⟩
  | nested _ _ _ _ _ _ => exact ⟨[], rfl, fun _ _ hmem => by cases hmem⟩
  | @next waiting f f' s rest v v' hp hstep ih =>
    obtain ⟨passed, hbody, hpassed⟩ := ih
    refine ⟨passed ++ [s], ?_, ?_⟩
    · show f'.module.body = _
      rw [Frame.step_module hstep, List.append_assoc]
      exact hbody
    · intro specifier handle hmem
      show ∃ target, targetOf f'.module.imports specifier = some target ∧
        (v'.state.phase? target).isSome
      rw [Frame.step_module hstep]
      rcases List.mem_append.1 hmem with hmem | hmem
      · obtain ⟨target, htarget, hsome⟩ := hpassed specifier handle hmem
        obtain ⟨phase, hphase⟩ := Option.isSome_iff_exists.1 hsome
        refine ⟨target, htarget, ?_⟩
        rw [(Point.grown_of_step hstep).phase?_eq hphase]
        rfl
      · rw [← List.mem_singleton.1 hmem] at hstep
        obtain ⟨target, o, htarget, hok⟩ := Frame.exists_of_step_require hstep
        have hframed := r.framed_requireWithin (r.modules.length - (f :: waiting).length) target v
        rw [← hp.requiring_eq, hok] at hframed
        exact ⟨target, htarget, hframed.phase?_isSome rfl⟩

/-- A chain of links leads from each waiting module to the running one. -/
theorem chained (hr : r.Mirrors g) (h : r.Passes w id p) :
    ∀ a ∈ p.waiting.map (·.module.id), TransGen g.LinksTo a p.frame.module.id := by
  induction h with
  | enter _ _ =>
    intro a ha
    cases ha
  | @next waiting f f' s rest v v' _ hstep ih =>
    show ∀ a ∈ waiting.map (·.module.id), TransGen g.LinksTo a f'.module.id
    rw [Frame.step_module hstep]
    exact ih
  | @nested waiting f s rest v specifier target m hp _ htarget _ hm ih =>
    obtain ⟨l, hfind, rfl⟩ := Option.map_eq_some_iff.1 htarget
    have hlink := hr.linksTo hp.module_mem (List.mem_of_find?_eq_some hfind)
    intro a ha
    show TransGen g.LinksTo a m.id
    rw [Registry.id_of_get? hm]
    rcases List.mem_cons.1 ha with rfl | ha
    · exact .single hlink
    · exact (ih a ha).tail hlink

/-- Once a body has required its links, what they lead to is loaded, or is running. -/
theorem ready (hidle : ∀ other, ¬ w.state.Loading other) (hr : r.Mirrors g) (hg : g.Closed)
    {before : List ModuleId} (hbody : r.RequiresFirst before) (h : r.Passes w id p)
    (hpast : p.PastLinks) {l : Link} (hl : l ∈ p.frame.module.imports) :
    p.world.state.Loaded l.target ∨ l.target ∈ p.running := by
  have hfirst := hbody p.frame.module h.module_mem
  obtain ⟨passed, hsplit, hpassed⟩ := h.required
  obtain ⟨handle, htake⟩ := hfirst.mem_take hl
  -- all statements that require a link have been passed
  have hle : p.frame.module.imports.length ≤ passed.length := by
    have hrest := hpast.length_le
    have hbodylen := congrArg List.length hsplit
    have hlinks := hfirst.length_le
    rw [List.length_append] at hbodylen
    rw [List.length_drop] at hrest
    omega
  have hmem : Statement.require l.specifier handle ∈ passed := by
    rw [hsplit, List.take_append_of_le_length hle] at htake
    exact List.mem_of_mem_take htake
  obtain ⟨target, htarget, hsome⟩ := hpassed _ _ hmem
  rw [hr.targetOf_eq hg h.module_mem hl] at htarget
  cases htarget
  obtain ⟨phase, hphase⟩ := Option.isSome_iff_exists.1 hsome
  cases phase with
  | loaded o => exact Or.inl ⟨o, hphase⟩
  | loading o => exact Or.inr (((h.tracked hidle).loading_iff _).1 ⟨o, hphase⟩)

/-- Without cycles, what the running body links to is not running. -/
theorem notMem_running (hr : r.Mirrors g) (hacyclic : g.Acyclic) (h : r.Passes w id p) {l : Link}
    (hl : l ∈ p.frame.module.imports) : l.target ∉ p.running := by
  have hlink := hr.linksTo h.module_mem hl
  intro hmem
  rcases List.mem_cons.1 hmem with heq | hwaiting
  · rw [heq] at hlink
    exact hacyclic _ (.single hlink)
  · exact hacyclic _ ((h.chained hr _ hwaiting).tail hlink)

end Registry.Passes

/-! ## Running a graph from its entry -/

/-- Requiring the entry of a graph with a new loader walks the graph. -/
theorem walksFrom_entry {r : Registry} {g : ModuleGraph} (hg : g.Closed) (hr : r.Mirrors g)
    {w : World} (hempty : w.state = []) (hbody : r.RequiresFirst w.started) :
    WalksFrom g w.started [] (require r) r.entry w := by
  have hnone : w.state.phase? r.entry = none := by
    rw [hempty]
    rfl
  have hw : w.Visited w.started [] := by
    refine ⟨(List.append_nil _).symm, ?_⟩
    intro id
    rw [hempty]
    simp [phase?_nil]
  have hentry := hg.entry_mem
  rw [← hr.entry_eq] at hentry
  obtain ⟨m, hm⟩ := hr.exists_registered hentry
  have hpasses : r.Passes w r.entry _ := .enter hnone hm
  have hfirst := hbody m (Registry.mem_of_get? hm)
  rw [← hw.attempt_eq List.not_mem_nil] at hfirst
  obtain ⟨v, after, hrun, hwalk, hv⟩ :=
    hpasses.run_requires hg hr hbody (List.Subset.refl _) hfirst (hw.enter m)
  exact walksFrom_of_run hr hw hnone hm hrun hwalk hv

namespace Session

/-- Running a loader walks a graph depth first. -/
structure Traverses (s : Session) (g : ModuleGraph) : Prop where
  ok : ∃ given, s.run.1 = .ok given
  /-- The bodies begin in depth-first order, each once. -/
  order : ∃ order, g.DepthFirst [g.entry] [] order ∧
    s.run.2.world.started = s.world.started ++ order ∧ order.Nodup ∧
    ∀ id, id ∈ order ↔ ReflTransGen g.LinksTo g.entry id
  loaded_iff : ∀ id, s.run.2.world.state.Loaded id ↔ ReflTransGen g.LinksTo g.entry id
  /-- A body that has required its links finds them loaded, or waiting for it. -/
  ready : ∀ p, s.Passes .run p → p.PastLinks → ∀ l ∈ p.frame.module.imports,
    p.world.state.Loaded l.target ∨ l.target ∈ p.running
  ready_of_acyclic : g.Acyclic → ∀ p, s.Passes .run p → p.PastLinks →
    ∀ l ∈ p.frame.module.imports, p.world.state.Loaded l.target

theorem run_of_require_ok {s : Session} {o : ObjectId} {v : World}
    (h : Loader.require s.registry s.registry.entry s.world = (.ok o, v)) :
    (∃ given, s.run.1 = .ok given) ∧ s.run.2.world = v := by
  unfold run Session.require
  rw [h]
  exact ⟨⟨_, rfl⟩, rfl⟩

/-- A new loader over the registry of a graph walks the graph depth first, if all bodies require
their links first and are calm from then on. -/
theorem run_traverses {g : ModuleGraph} (hg : g.Made)
    {compile : Module → Except RunFailure (List Statement)} (s : Session)
    (hr : (Registry.ofGraph g compile).1 = .ok s.registry)
    (hbody : s.registry.RequiresFirst s.world.started) : s.restart.Traverses g := by
  have hmirrors := Registry.mirrors_ofGraph hr
  have hclosed := hg.closed
  have hidle := idle_restart s
  obtain ⟨o, v, order, hok, hwalk, hv⟩ :=
    walksFrom_entry (w := s.restart.world) hclosed hmirrors rfl hbody
  rw [hmirrors.entry_eq] at hwalk
  obtain ⟨hgiven, hworld⟩ := run_of_require_ok (s := s.restart) hok
  refine ⟨hgiven, ?_, ?_, ?_, ?_⟩
  · refine ⟨order, hwalk, ?_, hwalk.nodup List.nodup_nil, fun id => hwalk.mem_iff hclosed.nodup⟩
    rw [hworld]
    exact hv.started_eq
  · intro id
    rw [← hwalk.mem_iff hclosed.nodup, ← hv.phase_iff, ← hworld]
    constructor
    · rintro ⟨o, ho⟩
      rw [ho]
      rfl
    · intro hsome
      obtain ⟨phase, hphase⟩ := Option.isSome_iff_exists.1 hsome
      cases phase with
      | loaded o => exact ⟨o, hphase⟩
      | loading o => exact absurd ⟨o, hphase⟩ ((hidle.call .run).not_loading id)
  · exact fun p hp hpast l hl => hp.ready hidle.not_loading hmirrors hclosed hbody hpast hl
  · intro hacyclic p hp hpast l hl
    exact (hp.ready hidle.not_loading hmirrors hclosed hbody hpast hl).resolve_right
      (hp.notMem_running hmirrors hacyclic hl)

/-- The module `main` links to `a` and `b`, `a` links to `b`, and `b` links back to `main`. -/
def ringModules : List Module :=
  [⟨.ofPath "main", [⟨"./a", .ofPath "a"⟩, ⟨"./b", .ofPath "b"⟩], ""⟩,
    ⟨.ofPath "a", [⟨"./b", .ofPath "b"⟩], ""⟩,
    ⟨.ofPath "b", [⟨"./main", .ofPath "main"⟩], ""⟩]

/-- The body that requires the links of a module and then logs its id. -/
def ringBody (m : Module) : List Statement :=
  m.imports.map (fun l => .require l.specifier l.specifier) ++ [.log m.id.text]

/-- A loader over the registry of these modules. -/
def ringSession : Session :=
  .start ⟨.ofPath "main", ringModules.map fun m => ⟨m.id, m.imports, ringBody m⟩⟩ []

theorem ringSession_traverses :
    ringSession.restart.Traverses ⟨.ofPath "main", ringModules⟩ ∧
      ringSession.restart.run.2.world.started =
        [.ofPath "main", .ofPath "a", .ofPath "b"] := by
  have hmade : ModuleGraph.Made ⟨.ofPath "main", ringModules⟩ := by
    have hkeyed : ∀ m ∈ ringModules, m.Keyed := by
      unfold Module.Keyed
      decide
    have hgraph : ModuleGraph.ofModules (.ofPath "main") ringModules =
        .ok ⟨.ofPath "main", ringModules⟩ := by decide +kernel
    exact .given hkeyed hgraph
  have hbody : ringSession.registry.RequiresFirst ringSession.world.started := by
    intro m hm
    obtain ⟨m, -, rfl⟩ := List.mem_map.1 hm
    refine requiresFirst_append m.imports fun s hs => ?_
    rw [List.mem_singleton.1 hs]
    trivial
  have hregistry : (Registry.ofGraph ⟨.ofPath "main", ringModules⟩
      fun m => .ok (ringBody m)).1 = .ok ringSession.registry := rfl
  exact ⟨run_traverses hmade ringSession hregistry hbody, rfl⟩

end Session

end ModuleBundler.Loader
