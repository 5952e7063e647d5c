import ModuleBundler.Loader.Session
import ModuleBundler.Proofs.Loader.Growth

/-!
# The points of an execution

Requiring a module runs bodies within bodies.  A `Point` is a place between two statements of one
of them: the execution that is running, the statements that are left of it, the executions that
wait for it, and the world.  `Registry.Passes` says which points a require passes, on its way into
every body that it starts and from each statement to the next one.

* `Registry.Passes.run_ok` and `Registry.Passes.run_error` — a body that is begun passes the points
  up to its end or to the statement that fails;
* `Registry.Passes.running_loading` — the modules whose bodies are running are loading, and none is
  running twice;
* `Registry.Passes.tracked` — if no other module was loading before, no other one is loading at a
  point (`Point.Tracked`);
* `Registry.Passes.waiting_lt` — so no more bodies are running than modules are registered;
* `Registry.Passes.requiring_ok` and `Registry.Passes.requiring_error` — and there is room for every
  body that a statement begins, so that its end decides about the require;
* **`Session.callAll_tracked`** — this holds at every point of every call of a loader, and between
  calls no module is loading.
-/

namespace ModuleBundler.Loader

open LoaderState

/-! ## Points -/

/-- A place between two statements. -/
structure Point where
  /-- The executions that wait for the running one, the innermost first. -/
  waiting : List Frame
  frame : Frame
  /-- The statements that are left of the body. -/
  rest : List Statement
  world : World

/-- The modules whose bodies are running, the innermost first. -/
def Point.running (p : Point) : List ModuleId :=
  p.frame.module.id :: p.waiting.map (·.module.id)

/-- How the bodies at a point require modules: as many bodies as modules are registered can be
running. -/
def Point.requiring (r : Registry) (waiting : List Frame) : Requiring :=
  requireWithin r (r.modules.length - waiting.length)

/-- Requiring the module `id` in the world `w` passes a point. -/
inductive Registry.Passes (r : Registry) (w : World) (id : ModuleId) : Point → Prop
  /-- The body of the module begins. -/
  | enter {m : Registered} : w.state.phase? id = none → r.get? id = some m →
      Passes r w id ⟨[], (w.enter m).1, m.body, (w.enter m).2⟩
  /-- A statement is done. -/
  | next {waiting : List Frame} {f f' : Frame} {s : Statement} {rest : List Statement}
      {v v' : World} : Passes r w id ⟨waiting, f, s :: rest, v⟩ →
      f.step (Point.requiring r waiting) v s = (.ok f', v') →
      Passes r w id ⟨waiting, f', rest, v'⟩
  /-- The body of a module that a statement requires begins. -/
  | nested {waiting : List Frame} {f : Frame} {s : Statement} {rest : List Statement} {v : World}
      {specifier : String} {target : ModuleId} {m : Registered} :
      Passes r w id ⟨waiting, f, s :: rest, v⟩ → s.requested = some specifier →
      targetOf f.module.imports specifier = some target → v.state.phase? target = none →
      r.get? target = some m →
      Passes r w id ⟨f :: waiting, (v.enter m).1, m.body, (v.enter m).2⟩

/-- The modules that are loading are those whose bodies are running, and none is running twice. -/
structure Point.Tracked (p : Point) : Prop where
  loading_iff : ∀ id, p.world.state.Loading id ↔ id ∈ p.running
  nodup : p.running.Nodup

/-- A statement that is done lets the loader state grow. -/
theorem Point.grown_of_step {r : Registry} {waiting : List Frame} {f f' : Frame} {s : Statement}
    {v v' : World} (h : f.step (Point.requiring r waiting) v s = (.ok f', v')) :
    v.state.Grown v'.state := by
  have hgrown := Frame.step_grown
    (requireWithin_grown r (r.modules.length - waiting.length)) f v s
  unfold Point.requiring at h
  rw [h] at hgrown
  exact hgrown

namespace Registry.Passes

variable {r : Registry} {w : World} {id : ModuleId} {p : Point}

/-! ## What is passed -/

/-- A body that succeeds from a point on passes its end. -/
theorem run_ok {waiting : List Frame} {f : Frame} {body : List Statement} {v v' : World}
    (h : r.Passes w id ⟨waiting, f, body, v⟩)
    (hrun : f.run (Point.requiring r waiting) body v = (.ok (), v')) :
    ∃ f', r.Passes w id ⟨waiting, f', [], v'⟩ := by
  induction body generalizing f v with
  | nil =>
    cases hrun
    exact ⟨f, h⟩
  | cons s rest ih =>
    unfold Frame.run at hrun
    split at hrun
    · rename_i f' u hstep
      exact ih (h.next hstep) hrun
    · cases hrun

/-- A body that fails from a point on passes the point before the statement that fails. -/
theorem run_error {waiting : List Frame} {f : Frame} {body : List Statement} {v v' : World}
    {e : RunFailure} (h : r.Passes w id ⟨waiting, f, body, v⟩)
    (hrun : f.run (Point.requiring r waiting) body v = (.error e, v')) :
    ∃ f' s rest u, r.Passes w id ⟨waiting, f', s :: rest, u⟩ ∧
      f'.step (Point.requiring r waiting) u s = (.error e, v') := by
  induction body generalizing f v with
  | nil => cases hrun
  | cons s rest ih =>
    unfold Frame.run at hrun
    split at hrun
    · rename_i f' u hstep
      exact ih (h.next hstep) hrun
    · rename_i e' u hstep
      cases hrun
      exact ⟨f, s, rest, v, h, hstep⟩

/-! ## The modules that are loading -/

/-- What is running is loading, and none of it twice. -/
theorem running_loading (h : r.Passes w id p) :
    (∀ m ∈ p.running, p.world.state.Loading m) ∧ p.running.Nodup := by
  induction h with
  | @enter m hnone hm =>
    refine ⟨?_, List.nodup_singleton _⟩
    intro other hother
    show (w.enter m).2.state.Loading other
    rw [enter_state hm, loading_put, ← Registry.id_of_get? hm]
    exact Or.inl (List.mem_singleton.1 hother)
  | @next waiting f f' s rest v v' _ hstep ih =>
    have hgrown := Point.grown_of_step hstep
    show (∀ m ∈ f'.module.id :: waiting.map (·.module.id), v'.state.Loading m) ∧
      (f'.module.id :: waiting.map (·.module.id)).Nodup
    rw [Frame.step_module hstep]
    exact ⟨fun other hother => (hgrown.loading_iff other).2 (ih.1 other hother), ih.2⟩
  | @nested waiting f s rest v specifier target m _ _ _ hnone hm ih =>
    have hstart := enter_state (w := v) hm
    have hid := Registry.id_of_get? hm
    show (∀ other ∈ m.id :: f.module.id :: waiting.map (·.module.id),
        (v.enter m).2.state.Loading other) ∧
      (m.id :: f.module.id :: waiting.map (·.module.id)).Nodup
    rw [hstart, hid]
    refine ⟨?_, List.nodup_cons.2 ⟨?_, ih.2⟩⟩
    · intro other hother
      rw [loading_put]
      exact (List.mem_cons.1 hother).imp_right (ih.1 other)
    · intro hmem
      -- what is running is loading, and the target is not
      obtain ⟨o, ho⟩ := ih.1 target hmem
      rw [hnone] at ho
      cases ho

/-- The modules that are loading at a point are those whose bodies are running, if none was loading
before. -/
theorem tracked (hidle : ∀ other, ¬ w.state.Loading other) (h : r.Passes w id p) :
    p.Tracked := by
  refine ⟨?_, h.running_loading.2⟩
  induction h with
  | @enter m hnone hm =>
    intro other
    show (w.enter m).2.state.Loading other ↔ other ∈ [m.id]
    rw [enter_state hm, loading_put, List.mem_singleton, Registry.id_of_get? hm]
    exact or_iff_left (hidle other)
  | @next waiting f f' s rest v v' _ hstep ih =>
    have hgrown := Point.grown_of_step hstep
    intro other
    show v'.state.Loading other ↔ other ∈ f'.module.id :: waiting.map (·.module.id)
    rw [Frame.step_module hstep]
    exact (hgrown.loading_iff other).trans (ih other)
  | @nested waiting f s rest v specifier target m _ _ _ hnone hm ih =>
    intro other
    show (v.enter m).2.state.Loading other ↔ other ∈ m.id :: f.module.id :: _
    rw [enter_state hm, loading_put, List.mem_cons, Registry.id_of_get? hm]
    exact or_congr_right (ih other)

/-- What is running is registered. -/
theorem registered (h : r.Passes w id p) : ∀ f ∈ p.frame :: p.waiting, f.module ∈ r.modules := by
  induction h with
  | enter _ hm =>
    intro f hf
    rw [List.mem_singleton.1 hf]
    exact Registry.mem_of_get? hm
  | @next waiting f f' s rest v v' _ hstep ih =>
    intro frame hframe
    rcases List.mem_cons.1 hframe with rfl | hframe
    · rw [Frame.step_module hstep]
      exact ih f List.mem_cons_self
    · exact ih frame (List.mem_cons_of_mem _ hframe)
  | nested _ _ _ _ hm ih =>
    intro frame hframe
    rcases List.mem_cons.1 hframe with rfl | hframe
    · exact Registry.mem_of_get? hm
    · exact ih frame hframe

/-- No more bodies are running than modules are registered. -/
theorem waiting_lt (h : r.Passes w id p) :
    p.waiting.length < r.modules.length := by
  have hsub : p.running ⊆ r.modules.map (·.id) := by
    show (p.frame :: p.waiting).map (·.module.id) ⊆ _
    intro a ha
    obtain ⟨f, hf, rfl⟩ := List.mem_map.1 ha
    exact List.mem_map_of_mem (h.registered f hf)
  have hle := (List.subperm_of_subset h.running_loading.2 hsub).length_le
  unfold Point.running at hle
  rw [List.length_cons, List.length_map, List.length_map] at hle
  exact hle

/-- There is room for the body that a statement begins. -/
theorem room_eq {waiting : List Frame} {f : Frame} {rest : List Statement} {v : World}
    (h : r.Passes w id ⟨waiting, f, rest, v⟩) :
    r.modules.length - waiting.length = r.modules.length - (f :: waiting).length + 1 := by
  have hlt : waiting.length < r.modules.length := h.waiting_lt
  rw [List.length_cons]
  omega

theorem requiring_eq {waiting : List Frame} {f : Frame} {rest : List Statement} {v : World}
    (h : r.Passes w id ⟨waiting, f, rest, v⟩) :
    Point.requiring r waiting =
      requireWithin r (r.modules.length - (f :: waiting).length + 1) := by
  unfold Point.requiring
  rw [h.room_eq]

/-- A require of a module that is not loaded runs its body, and then the module is loaded. -/
theorem requiring_ok {waiting : List Frame} {f : Frame} {rest : List Statement} {v u : World}
    {target : ModuleId} {m : Registered} (h : r.Passes w id ⟨waiting, f, rest, v⟩)
    (hnone : v.state.phase? target = none) (hm : r.get? target = some m)
    (hrun : (v.enter m).1.run (Point.requiring r (f :: waiting)) m.body (v.enter m).2 =
      (.ok (), u)) :
    Point.requiring r waiting target v = (.ok (v.enter m).1.exports,
      { u with state := u.state.put target (.loaded (v.enter m).1.exports) }) := by
  rw [h.requiring_eq]
  exact requireWithin_of_run_ok hnone hm hrun

/-- A require of a module whose body fails forgets the module. -/
theorem requiring_error {waiting : List Frame} {f : Frame} {rest : List Statement} {v u : World}
    {target : ModuleId} {m : Registered} {e : RunFailure}
    (h : r.Passes w id ⟨waiting, f, rest, v⟩) (hnone : v.state.phase? target = none)
    (hm : r.get? target = some m)
    (hrun : (v.enter m).1.run (Point.requiring r (f :: waiting)) m.body (v.enter m).2 =
      (.error e, u)) :
    Point.requiring r waiting target v =
      (.error e, { u with state := u.state.erase target }) := by
  rw [h.requiring_eq]
  exact requireWithin_of_run_error hnone hm hrun

end Registry.Passes

/-! ## Sessions -/

/-- A call of a loader from outside. -/
inductive Call where
  | run
  | require (id : ModuleId)

/-- The module that a call requires. -/
def Call.target (r : Registry) : Call → ModuleId
  | run => r.entry
  | require id => id

namespace Session

/-- Makes a call. -/
def call (s : Session) : Call → Except RunFailure Required × Session
  | .run => s.run
  | .require id => s.require id

/-- Makes calls one after the other, whether they succeed or not. -/
def callAll (s : Session) (calls : List Call) : Session :=
  calls.foldl (fun s c => (s.call c).2) s

/-- A call passes a point. -/
def Passes (s : Session) (c : Call) (p : Point) : Prop :=
  s.registry.Passes s.world (c.target s.registry) p

/-- No module is loading, and none has two entries. -/
structure Idle (s : Session) : Prop where
  keyed : s.world.state.Keyed
  not_loading : ∀ id, ¬ s.world.state.Loading id

theorem require_world (s : Session) (id : ModuleId) :
    (s.require id).2.world = (Loader.require s.registry id s.world).2 := by
  unfold require
  split <;> rename_i heq <;> rw [heq]

theorem call_world (s : Session) (c : Call) :
    (s.call c).2.world = (Loader.require s.registry (c.target s.registry) s.world).2 := by
  cases c with
  | run => exact require_world s s.registry.entry
  | require id => exact require_world s id

/-- A call gives the object that the require in it gives. -/
theorem call_object (s : Session) (c : Call) : (s.call c).1.map (·.object) =
    (Loader.require s.registry (c.target s.registry) s.world).1 := by
  have hobject : ∀ id, (s.require id).1.map (·.object) =
      (Loader.require s.registry id s.world).1 := by
    intro id
    unfold require
    split <;> rename_i heq <;> rw [heq] <;> rfl
  cases c with
  | run => exact hobject s.registry.entry
  | require id => exact hobject id

theorem idle_restart (s : Session) : s.restart.Idle := by
  refine ⟨keyed_nil, ?_⟩
  rintro id ⟨o, ho⟩
  cases ho

/-- A call leaves no module loading, whether it succeeds or not. -/
theorem Idle.call {s : Session} (h : s.Idle) (c : Call) : (s.call c).2.Idle := by
  refine ⟨?_, ?_⟩
  · rw [call_world]
    exact requireWithin_keyed _ _ _ _ h.keyed
  · intro id
    rw [call_world]
    unfold Loader.require
    rw [(requireWithin_grown _ _ _ _).loading_iff id]
    exact h.not_loading id

theorem Idle.callAll {s : Session} (h : s.Idle) (calls : List Call) : (s.callAll calls).Idle := by
  unfold Session.callAll
  induction calls generalizing s with
  | nil => exact h
  | cons c rest ih => exact ih (h.call c)

/-- Between calls, every entry is of a module that is loaded. -/
theorem Idle.length_eq {s : Session} (h : s.Idle) :
    s.world.state.length = {id | s.world.state.Loaded id}.ncard := by
  rw [h.keyed.length_eq]
  congr 1
  ext id
  rw [Set.mem_ofPred_eq, Set.mem_ofPred_eq]
  constructor
  · intro hsome
    obtain ⟨phase, hphase⟩ := Option.isSome_iff_exists.1 hsome
    cases phase with
    | loading o => exact absurd ⟨o, hphase⟩ (h.not_loading id)
    | loaded o => exact ⟨o, hphase⟩
  · rintro ⟨o, ho⟩
    rw [ho]
    rfl

/-- Whatever calls a loader has answered, at every point of a further one the modules that are
loading are those whose bodies are running, each once; and before it no module is loading, and the
entries are those of the loaded modules. -/
theorem callAll_tracked (s : Session) (calls : List Call) :
    (∀ c p, (s.restart.callAll calls).Passes c p → p.Tracked) ∧
      (∀ id, ¬ (s.restart.callAll calls).world.state.Loading id) ∧
      (s.restart.callAll calls).world.state.length =
        {id | (s.restart.callAll calls).world.state.Loaded id}.ncard := by
  have hidle := (idle_restart s).callAll calls
  exact ⟨fun c p hp => hp.tracked hidle.not_loading, hidle.not_loading, hidle.length_eq⟩

/-- The module `x` requires `y`, which tries `z` and then requires `x`; `z` fails. -/
def cyclicSession : Session :=
  .start ⟨.ofPath "x",
    [⟨.ofPath "x", [⟨"./y", .ofPath "y"⟩], [.require "./y" "y"]⟩,
      ⟨.ofPath "y", [⟨"./z", .ofPath "z"⟩, ⟨"./x", .ofPath "x"⟩],
        [.attempt "./z" "z", .require "./x" "x"]⟩,
      ⟨.ofPath "z", [], [.throw "unready"]⟩]⟩ []

theorem cyclicSession_tracked :
    ∃ p, (cyclicSession.restart.callAll [.require (.ofPath "z")]).Passes .run p ∧
      p.running = [.ofPath "y", .ofPath "x"] ∧ p.rest = [.require "./x" "x"] ∧ p.Tracked := by
  have hx : cyclicSession.registry.Passes
      (cyclicSession.restart.callAll [.require (.ofPath "z")]).world (.ofPath "x") _ :=
    .enter rfl rfl
  have hy := hx.nested rfl rfl rfl rfl
  have hcaught := hy.next rfl
  exact ⟨_, hcaught, rfl, rfl,
    (callAll_tracked cyclicSession [.require (.ofPath "z")]).1 .run _ hcaught⟩

end Session

end ModuleBundler.Loader
