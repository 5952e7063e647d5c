import ModuleBundler.Proofs.Loader.Point

/-!
# What happens to modules in a run

A require is recorded as a list of `Event`s, in the order of time: a body begins, a body ends or
fails, and a require gives an exports object.  The record follows the require through the same
bodies (`eventsWithin`): a require that succeeds is recorded last, with what it gives
(`getLast?_eventsWithin`), and so is a call from outside (`Session.call_gave`).
`Registry.PassesAfter` says what has happened at each point that a require passes; all points have
such a record (`Registry.Passes.exists_events`).

What is true before anything happens and is kept by each kind of event is true of the whole record
(`Registry.Keeps`):

* `Registry.Keeps.require` — after a require, whether it succeeds or not;
* `Registry.Keeps.passes` — at every point on the way;
* `Registry.Keeps.moment` — at every moment in the use of a loader, between calls and within them.
-/

namespace ModuleBundler.Loader

open LoaderState

/-! ## Events -/

/-- Something that happens to a module. -/
inductive Event where
  /-- An execution of its body begins, with a new exports object. -/
  | began (id : ModuleId) (exports : ObjectId)
  /-- Its body has succeeded, and the module is loaded. -/
  | completed (id : ModuleId) (exports : ObjectId)
  /-- Its body has failed, and the module is forgotten. -/
  | failed (id : ModuleId)
  /-- A require of it gives an exports object. -/
  | gave (id : ModuleId) (exports : ObjectId)
deriving DecidableEq

/-- What happens while a module is required. -/
abbrev Recording := ModuleId → World → List Event

/-- What happens while a statement runs. -/
def Frame.stepEvents (recording : Recording) (f : Frame) (w : World) (s : Statement) :
    List Event :=
  match f.target s with
  | none => []
  | some id => recording id w

/-- What happens while statements run, up to the first failure. -/
def Frame.runEvents (requiring : Requiring) (recording : Recording) (f : Frame) :
    List Statement → World → List Event
  | [], _ => []
  | s :: rest, w =>
    f.stepEvents recording w s ++
      match f.step requiring w s with
      | (.ok f, w) => f.runEvents requiring recording rest w
      | (.error _, _) => []

/-- What happens while a module is required with room for `n` nested bodies. -/
def eventsWithin (r : Registry) : Nat → Recording
  | 0, _, _ => []
  | n + 1, id, w =>
    match w.state.phase? id with
    | some phase => [.gave id phase.exports]
    | none =>
      match r.get? id with
      | none => []
      | some m =>
        let (frame, entered) := w.enter m
        .began id frame.exports ::
          (frame.runEvents (requireWithin r n) (eventsWithin r n) m.body entered ++
            match frame.run (requireWithin r n) m.body entered with
            | (.ok _, _) => [.completed id frame.exports, .gave id frame.exports]
            | (.error _, _) => [.failed id])

/-- How the requires of the bodies at a point are recorded. -/
def Point.recording (r : Registry) (waiting : List Frame) : Recording :=
  eventsWithin r (r.modules.length - waiting.length)

/-- Requiring the module `id` in the world `w` passes a point, after some events. -/
inductive Registry.PassesAfter (r : Registry) (w : World) (id : ModuleId) :
    List Event → Point → Prop
  /-- The body of the module begins. -/
  | enter {m : Registered} : w.state.phase? id = none → r.get? id = some m →
      PassesAfter r w id [.began id (w.enter m).1.exports]
        ⟨[], (w.enter m).1, m.body, (w.enter m).2⟩
  /-- A statement is done. -/
  | next {es : List Event} {waiting : List Frame} {f f' : Frame} {s : Statement}
      {rest : List Statement} {v v' : World} :
      PassesAfter r w id es ⟨waiting, f, s :: rest, v⟩ →
      f.step (Point.requiring r waiting) v s = (.ok f', v') →
      PassesAfter r w id (es ++ f.stepEvents (Point.recording r waiting) v s)
        ⟨waiting, f', rest, v'⟩
  /-- The body of a module that a statement requires begins. -/
  | nested {es : List Event} {waiting : List Frame} {f : Frame} {s : Statement}
      {rest : List Statement} {v : World} {specifier : String} {target : ModuleId}
      {m : Registered} :
      PassesAfter r w id es ⟨waiting, f, s :: rest, v⟩ → s.requested = some specifier →
      targetOf f.module.imports specifier = some target → v.state.phase? target = none →
      r.get? target = some m →
      PassesAfter r w id (es ++ [.began target (v.enter m).1.exports])
        ⟨f :: waiting, (v.enter m).1, m.body, (v.enter m).2⟩

/-- At every point that is passed, something has happened. -/
theorem Registry.Passes.exists_events {r : Registry} {w : World} {id : ModuleId} {p : Point}
    (h : r.Passes w id p) : ∃ es, r.PassesAfter w id es p := by
  induction h with
  | enter hnone hm => exact ⟨_, .enter hnone hm⟩
  | next _ hstep ih =>
    obtain ⟨es, hes⟩ := ih
    exact ⟨_, hes.next hstep⟩
  | nested _ hs htarget hnone hm ih =>
    obtain ⟨es, hes⟩ := ih
    exact ⟨_, hes.nested hs htarget hnone hm⟩

section Records

variable {r : Registry} {n : Nat} {id : ModuleId} {m : Registered} {w u : World}

theorem eventsWithin_of_phase {phase : Phase} (h : w.state.phase? id = some phase) :
    eventsWithin r (n + 1) id w = [.gave id phase.exports] := by
  unfold eventsWithin
  rw [h]

theorem eventsWithin_of_unknown (hnone : w.state.phase? id = none) (hm : r.get? id = none) :
    eventsWithin r (n + 1) id w = [] := by
  unfold eventsWithin
  rw [hnone]
  dsimp only
  rw [hm]

theorem eventsWithin_of_run_ok (hnone : w.state.phase? id = none) (hm : r.get? id = some m)
    (hrun : (w.enter m).1.run (requireWithin r n) m.body (w.enter m).2 = (.ok (), u)) :
    eventsWithin r (n + 1) id w =
      [.began id (w.enter m).1.exports] ++
        (w.enter m).1.runEvents (requireWithin r n) (eventsWithin r n) m.body (w.enter m).2 ++
        [.completed id (w.enter m).1.exports] ++ [.gave id (w.enter m).1.exports] := by
  rw [eventsWithin, hnone]
  simp only [hm, hrun, List.append_assoc, List.cons_append, List.nil_append]

theorem eventsWithin_of_run_error {e : RunFailure} (hnone : w.state.phase? id = none)
    (hm : r.get? id = some m)
    (hrun : (w.enter m).1.run (requireWithin r n) m.body (w.enter m).2 = (.error e, u)) :
    eventsWithin r (n + 1) id w =
      [.began id (w.enter m).1.exports] ++
        (w.enter m).1.runEvents (requireWithin r n) (eventsWithin r n) m.body (w.enter m).2 ++
        [.failed id] := by
  rw [eventsWithin, hnone]
  simp only [hm, hrun, List.cons_append, List.nil_append]

/-- A require that succeeds is recorded last, with what it gives; one that fails gives nothing. -/
theorem getLast?_eventsWithin (r : Registry) (n : Nat) (id : ModuleId) (w : World)
    (o : ObjectId) :
    (requireWithin r n id w).1 = .ok o ↔
      (eventsWithin r n id w).getLast? = some (.gave id o) := by
  cases n with
  | zero =>
    unfold requireWithin eventsWithin
    simp
  | succ n =>
    rcases requireWithin_cases r n id w with ⟨phase, hphase, heq⟩ | ⟨hnone, hm, heq⟩ |
      ⟨m, u, hnone, hm, hrun, heq⟩ | ⟨m, e, u, hnone, hm, hrun, heq⟩ <;> rw [heq]
    · rw [eventsWithin_of_phase hphase]
      simp
    · rw [eventsWithin_of_unknown hnone hm]
      simp
    · rw [eventsWithin_of_run_ok hnone hm hrun, List.getLast?_concat]
      simp
    · rw [eventsWithin_of_run_error hnone hm hrun, List.getLast?_concat]
      simp

end Records

/-! ## What events keep -/

/-- What holds of the events so far and of the world is kept by whatever can happen next. -/
structure Registry.Keeps (r : Registry) (inv : List Event → World → Prop) : Prop where
  same : ∀ {es w v}, inv es w → w.SameLoader v → inv es v
  began : ∀ {es w id m}, inv es w → w.state.phase? id = none → r.get? id = some m →
    inv (es ++ [.began id (w.enter m).1.exports]) (w.enter m).2
  completed : ∀ {es w id o}, inv es w → w.state.phase? id = some (.loading o) →
    inv (es ++ [.completed id o]) { w with state := w.state.put id (.loaded o) }
  failed : ∀ {es w id o}, inv es w → w.state.phase? id = some (.loading o) →
    inv (es ++ [.failed id]) { w with state := w.state.erase id }
  gave : ∀ {es w id phase}, inv es w → w.state.phase? id = some phase →
    inv (es ++ [.gave id phase.exports]) w

/-- A way to require keeps what holds of the events so far and of the world. -/
def KeptBy (inv : List Event → World → Prop) (requiring : Requiring) (recording : Recording) :
    Prop :=
  ∀ es id w, inv es w → inv (es ++ recording id w) (requiring id w).2

namespace Registry.Keeps

variable {r : Registry} {inv : List Event → World → Prop} {requiring : Requiring}
  {recording : Recording} {es : List Event} {w : World}

/-- A statement keeps what the requires in it keep. -/
theorem step (h : r.Keeps inv) (hkept : KeptBy inv requiring recording) (hw : inv es w)
    (f : Frame) (s : Statement) :
    inv (es ++ f.stepEvents recording w s) (f.step requiring w s).2 := by
  unfold Frame.stepEvents
  cases htarget : f.target s with
  | none =>
    dsimp only
    rw [List.append_nil]
    exact h.same hw (Frame.step_of_target_none requiring w htarget)
  | some id => exact h.same (hkept es id w hw) (Frame.step_of_target requiring w htarget)

/-- And so does a body. -/
theorem run (h : r.Keeps inv) (hkept : KeptBy inv requiring recording) (hw : inv es w)
    (f : Frame) (body : List Statement) :
    inv (es ++ f.runEvents requiring recording body w) (f.run requiring body w).2 := by
  induction body generalizing f w es with
  | nil =>
    unfold Frame.runEvents
    rw [List.append_nil]
    exact hw
  | cons s rest ih =>
    have hfirst := h.step hkept hw f s
    unfold Frame.runEvents Frame.run
    rw [← List.append_assoc]
    rcases hstep : f.step requiring w s with ⟨_ | f', v⟩ <;> rw [hstep] at hfirst
    · dsimp only
      rw [List.append_nil]
      exact hfirst
    · exact ih hfirst f'

/-- What the events keep is kept by a require, whether it succeeds or not. -/
theorem require (h : r.Keeps inv) (n : Nat) :
    KeptBy inv (requireWithin r n) (eventsWithin r n) := by
  induction n with
  | zero =>
    intro es id w hw
    unfold eventsWithin
    rw [List.append_nil]
    exact hw
  | succ n ih =>
    intro es id w hw
    rcases requireWithin_cases r n id w with ⟨phase, hphase, heq⟩ | ⟨hnone, hm, heq⟩ |
      ⟨m, u, hnone, hm, hbody, heq⟩ | ⟨m, e, u, hnone, hm, hbody, heq⟩ <;> rw [heq]
    · rw [eventsWithin_of_phase hphase]
      exact h.gave hw hphase
    · rw [eventsWithin_of_unknown hnone hm, List.append_nil]
      exact hw
    · have hrun := h.run ih (h.began hw hnone hm) (w.enter m).1 m.body
      have hstill := loading_of_run (w := w) hm n
      rw [hbody] at hrun hstill
      rw [eventsWithin_of_run_ok hnone hm hbody, ← List.append_assoc, ← List.append_assoc,
        ← List.append_assoc]
      have hloaded : (u.state.put id (.loaded (w.enter m).1.exports)).phase? id =
          some (.loaded (w.enter m).1.exports) := by rw [phase?_put, if_pos rfl]
      exact h.gave (h.completed hrun hstill) hloaded
    · have hrun := h.run ih (h.began hw hnone hm) (w.enter m).1 m.body
      have hstill := loading_of_run (w := w) hm n
      rw [hbody] at hrun hstill
      rw [eventsWithin_of_run_error hnone hm hbody, ← List.append_assoc, ← List.append_assoc]
      exact h.failed hrun hstill

/-- And it is kept at every point that a require passes. -/
theorem passes (h : r.Keeps inv) {new : List Event} {id : ModuleId} {p : Point} (hw : inv es w)
    (hp : r.PassesAfter w id new p) : inv (es ++ new) p.world := by
  induction hp with
  | enter hnone hm => exact h.began hw hnone hm
  | @next new waiting f f' s rest v v' _ hstep ih =>
    have hnext := h.step (h.require (r.modules.length - waiting.length)) ih f s
    unfold Point.requiring at hstep
    rw [hstep, List.append_assoc] at hnext
    exact hnext
  | nested _ _ _ hnone hm ih =>
    rw [← List.append_assoc]
    exact h.began ih hnone hm

end Registry.Keeps

/-! ## Sessions -/

namespace Session

/-- What happens in a call. -/
def callEvents (s : Session) (c : Call) : List Event :=
  eventsWithin s.registry (s.registry.modules.length + 1) (c.target s.registry) s.world

/-- What happens in calls, one after the other. -/
def allEvents (s : Session) : List Call → List Event
  | [] => []
  | c :: rest => s.callEvents c ++ (s.call c).2.allEvents rest

/-- A moment in the use of a loader, with what has happened so far: between two calls, or at a point
of a call. -/
inductive Moment (s : Session) : List Event → World → Prop
  | between (calls : List Call) : Moment s (s.allEvents calls) (s.callAll calls).world
  | within (calls : List Call) {c : Call} {es : List Event} {p : Point} :
      (s.callAll calls).registry.PassesAfter (s.callAll calls).world
        (c.target (s.callAll calls).registry) es p →
      Moment s (s.allEvents calls ++ es) p.world

/-- A call gives what is recorded last. -/
theorem call_gave (s : Session) (c : Call) (o : ObjectId) :
    (s.call c).1.map (·.object) = .ok o ↔
      (s.callEvents c).getLast? = some (.gave (c.target s.registry) o) := by
  rw [call_object]
  exact getLast?_eventsWithin s.registry _ _ s.world o

theorem call_registry (s : Session) (c : Call) : (s.call c).2.registry = s.registry := by
  cases c with
  | run =>
    show (s.require s.registry.entry).2.registry = s.registry
    unfold Session.require
    split <;> rfl
  | require id =>
    show (s.require id).2.registry = s.registry
    unfold Session.require
    split <;> rfl

theorem callAll_registry (s : Session) (calls : List Call) :
    (s.callAll calls).registry = s.registry := by
  unfold callAll
  induction calls generalizing s with
  | nil => rfl
  | cons c rest ih =>
    rw [List.foldl_cons, ih]
    exact call_registry s c

end Session

/-- What the events keep is kept by calls. -/
theorem Registry.Keeps.callAll {inv : List Event → World → Prop} {s : Session}
    (h : s.registry.Keeps inv) {es : List Event} (hs : inv es s.world) (calls : List Call) :
    inv (es ++ s.allEvents calls) (s.callAll calls).world := by
  unfold Session.callAll
  induction calls generalizing s es with
  | nil =>
    unfold Session.allEvents
    rw [List.append_nil]
    exact hs
  | cons c rest ih =>
    unfold Session.allEvents
    rw [List.foldl_cons, ← List.append_assoc]
    refine ih ?_ ?_
    · rw [Session.call_registry]
      exact h
    · rw [Session.call_world]
      exact h.require _ _ _ _ hs

/-- So it holds at every moment. -/
theorem Registry.Keeps.moment {inv : List Event → World → Prop} {s : Session}
    (h : s.registry.Keeps inv) (hs : inv [] s.world) {es : List Event} {w : World}
    (hm : s.Moment es w) : inv es w := by
  cases hm with
  | between calls => exact h.callAll hs calls
  | within calls hp =>
    have hcalls := h.callAll hs calls
    rw [List.nil_append] at hcalls
    rw [Session.callAll_registry] at hp
    exact h.passes hcalls hp

end ModuleBundler.Loader
