import ModuleBundler.Proofs.Loader.Effect
import ModuleBundler.Proofs.Loader.Identity

/-!
# Exports objects that importers hold on to

An execution that has required a module holds its exports object for good, while the loader forgets
the object when the execution that fills it fails.  So an importer and the loader share one object
exactly as long as that execution has not failed, and it can only fail later if it was still running
when it gave the object away: in a cycle.

* `Registry.PassesAfter.resumed` — what happens from a point on is the rest of the record of the
  require, and modules that are loaded when the body at the point is done are loaded in the end;
* `Session.Obtains` — at a point of a call, the running execution gets an exports object;
* **`Session.callAll_shared`** — between calls the loader has that object for the module, exactly if
  no execution of the module has failed since, and if one has, the module was loading when it was
  required;
* **`Session.not_shared_of_failure`** — a failure in a cycle can leave an importer loaded that holds
  the forgotten object.
-/

namespace ModuleBundler.Loader

open LoaderState

/-! ## Modules that stay loaded -/

/-- Modules that are loaded before are loaded after, with the same exports objects. -/
def LoaderState.LoadedIn (before after : LoaderState) : Prop :=
  ∀ id o, before.phase? id = some (.loaded o) → after.phase? id = some (.loaded o)

namespace LoaderState

variable {s t u : LoaderState} {id : ModuleId} {o : ObjectId}

theorem LoadedIn.trans (h : s.LoadedIn t) (h' : t.LoadedIn u) : s.LoadedIn u :=
  fun id o ho => h' id o (h id o ho)

theorem Grown.loadedIn (h : s.Grown t) : s.LoadedIn t := fun _ _ ho => h.phase?_eq ho

/-- Whatever is done to a module that is loading, the loaded ones are others. -/
theorem loadedIn_of_loading (h : s.phase? id = some (.loading o))
    (hother : ∀ other, other ≠ id → t.phase? other = s.phase? other) : s.LoadedIn t := by
  intro other o' ho
  by_cases heq : other = id
  · rw [heq, h] at ho
    cases ho
  · rw [hother other heq]
    exact ho

end LoaderState

section Bodies

variable {r : Registry} {n : Nat} {id : ModuleId} {m : Registered} {w : World}

/-- What is loaded when a body is done is loaded after the require that has run it. -/
theorem loadedIn_requireWithin (hnone : w.state.phase? id = none) (hm : r.get? id = some m) :
    ((w.enter m).1.run (requireWithin r n) m.body (w.enter m).2).2.state.LoadedIn
      (requireWithin r (n + 1) id w).2.state := by
  have hloading := loading_of_run (w := w) hm n
  rcases hrun : (w.enter m).1.run (requireWithin r n) m.body (w.enter m).2 with ⟨_ | _, u⟩ <;>
    rw [hrun] at hloading
  · rw [requireWithin_of_run_error hnone hm hrun]
    refine loadedIn_of_loading hloading ?_
    intro other hne
    show (u.state.erase id).phase? other = u.state.phase? other
    rw [phase?_erase, if_neg hne]
  · rw [requireWithin_of_run_ok hnone hm hrun]
    refine loadedIn_of_loading hloading ?_
    intro other hne
    show (u.state.put id _).phase? other = u.state.phase? other
    rw [phase?_put, if_neg hne]

/-- The record of a require begins with what happens in the body that it runs. -/
theorem prefix_eventsWithin (hnone : w.state.phase? id = none) (hm : r.get? id = some m) :
    [.began id (w.enter m).1.exports] ++ (w.enter m).1.runEvents (requireWithin r n)
      (eventsWithin r n) m.body (w.enter m).2 <+: eventsWithin r (n + 1) id w := by
  rcases hrun : (w.enter m).1.run (requireWithin r n) m.body (w.enter m).2 with ⟨_ | _, u⟩
  · rw [eventsWithin_of_run_error hnone hm hrun]
    exact List.prefix_append _ _
  · rw [eventsWithin_of_run_ok hnone hm hrun, List.append_assoc _ [_] [_]]
    exact List.prefix_append _ _

end Bodies

namespace Frame

variable {requiring : Requiring} {recording : Recording} {f f' : Frame} {s : Statement}
  {rest : List Statement} {v v' : World}

theorem run_cons_of_ok (h : f.step requiring v s = (.ok f', v')) :
    f.run requiring (s :: rest) v = f'.run requiring rest v' := by
  rw [run, h]

theorem runEvents_cons_of_ok (h : f.step requiring v s = (.ok f', v')) :
    f.runEvents requiring recording (s :: rest) v =
      f.stepEvents recording v s ++ f'.runEvents requiring recording rest v' := by
  rw [runEvents, h]

/-- The record of a body begins with what happens in its first statement. -/
theorem prefix_runEvents (requiring : Requiring) (recording : Recording) (f : Frame)
    (s : Statement) (rest : List Statement) (v : World) :
    f.stepEvents recording v s <+: f.runEvents requiring recording (s :: rest) v :=
  List.prefix_append _ _

/-- After its first statement a body lets the loader state grow, if requiring does. -/
theorem step_grown_run (h : ∀ id (w : World), w.state.Grown (requiring id w).2.state) (f : Frame)
    (s : Statement) (rest : List Statement) (v : World) :
    (f.step requiring v s).2.state.Grown (f.run requiring (s :: rest) v).2.state := by
  rw [run]
  split <;> rename_i heq <;> rw [heq]
  · exact run_grown h _ rest _
  · exact Grown.refl _

end Frame

/-! ## From a point to the end -/

/-- The requires of the bodies at a point let the loader state grow. -/
theorem Point.requiring_grown (r : Registry) (waiting : List Frame) (id : ModuleId) (w : World) :
    w.state.Grown (Point.requiring r waiting id w).2.state :=
  requireWithin_grown r _ id w

namespace Registry.PassesAfter

variable {r : Registry} {w : World} {id : ModuleId} {es : List Event} {p : Point}

theorem passes (h : r.PassesAfter w id es p) : r.Passes w id p := by
  induction h with
  | enter hnone hm => exact .enter hnone hm
  | next _ hstep ih => exact ih.next hstep
  | nested _ hs htarget hnone hm ih => exact ih.nested hs htarget hnone hm

/-- What happens in the rest of the body at a point follows what has happened before it, in the
record of the whole require, and what is loaded when that body is done is loaded in the end. -/
theorem resumed (h : r.PassesAfter w id es p) :
    es ++ p.frame.runEvents (Point.requiring r p.waiting) (Point.recording r p.waiting) p.rest
        p.world <+: eventsWithin r (r.modules.length + 1) id w ∧
      (p.frame.run (Point.requiring r p.waiting) p.rest p.world).2.state.LoadedIn
        (require r id w).2.state := by
  induction h with
  | enter hnone hm => exact ⟨prefix_eventsWithin hnone hm, loadedIn_requireWithin hnone hm⟩
  | @next es waiting f f' s rest v v' _ hstep ih =>
    dsimp only at ih ⊢
    rw [Frame.runEvents_cons_of_ok hstep, ← List.append_assoc, Frame.run_cons_of_ok hstep] at ih
    exact ih
  | @nested es waiting f s rest v specifier target m hp hs htarget hnone hm ih =>
    obtain ⟨hrecord, hloaded⟩ := ih
    have hroom := hp.passes.room_eq
    have hf : f.target s = some target := by
      unfold Frame.target
      rw [hs]
      exact htarget
    constructor
    · have hbody : [Event.began target (v.enter m).1.exports] ++
          (v.enter m).1.runEvents (Point.requiring r (f :: waiting))
            (Point.recording r (f :: waiting)) m.body (v.enter m).2 <+:
          f.stepEvents (Point.recording r waiting) v s := by
        unfold Frame.stepEvents
        rw [hf]
        unfold Point.recording
        rw [hroom]
        exact prefix_eventsWithin hnone hm
      have hrest := hbody.trans
        (Frame.prefix_runEvents (Point.requiring r waiting) (Point.recording r waiting) f s rest v)
      rw [List.append_assoc]
      exact ((List.prefix_append_right_inj es).2 hrest).trans hrecord
    · have hbody : ((v.enter m).1.run (Point.requiring r (f :: waiting)) m.body
          (v.enter m).2).2.state.LoadedIn (Point.requiring r waiting target v).2.state := by
        rw [hp.passes.requiring_eq]
        exact loadedIn_requireWithin hnone hm
      rw [← (Frame.step_of_target (Point.requiring r waiting) v hf).state_eq] at hbody
      have hgrown := Frame.step_grown_run (Point.requiring_grown r waiting) f s rest v
      exact (hbody.trans hgrown.loadedIn).trans hloaded

end Registry.PassesAfter

/-! ## Sessions -/

namespace Session

/-- In the call `c` after the calls `earlier`, the execution that is running at the point `p` gets
the exports object `o` from requiring the module `id`; in this call, `es` has happened before. -/
structure Obtains (s : Session) (earlier : List Call) (c : Call) (p : Point) (id : ModuleId)
    (o : ObjectId) (es : List Event) : Prop where
  passes : s.registry.PassesAfter (s.callAll earlier).world (c.target s.registry) es p
  next : ∃ statement rest, p.rest = statement :: rest ∧ p.frame.target statement = some id
  given : (Point.requiring s.registry p.waiting id p.world).1 = .ok o

theorem callAll_append (s : Session) (calls more : List Call) :
    s.callAll (calls ++ more) = (s.callAll calls).callAll more := List.foldl_append

theorem allEvents_append (s : Session) (calls more : List Call) :
    s.allEvents (calls ++ more) = s.allEvents calls ++ (s.callAll calls).allEvents more := by
  induction calls generalizing s with
  | nil => rfl
  | cons c rest ih =>
    rw [List.cons_append, allEvents, allEvents, ih, List.append_assoc]
    rfl

/-- Calls let the loader state grow. -/
theorem callAll_grown (s : Session) (calls : List Call) :
    s.world.state.Grown (s.callAll calls).world.state := by
  unfold callAll
  induction calls generalizing s with
  | nil => exact Grown.refl _
  | cons c rest ih =>
    have hcall : s.world.state.Grown (s.call c).2.world.state := by
      rw [call_world]
      exact requireWithin_grown _ _ _ _
    exact hcall.trans (ih _)

/-- Between calls, the object of a module that is loaded is the current one. -/
theorem Idle.loaded_iff {s : Session} (h : s.Idle) {before : List ModuleId} {es : List Event}
    (haccounted : Accounted before es s.world) (id : ModuleId) (o : ObjectId) :
    s.world.state.phase? id = some (.loaded o) ↔ currentObject id es = some o := by
  rw [haccounted.current_eq]
  cases hphase : s.world.state.phase? id with
  | none => simp
  | some phase =>
    cases phase with
    | loading o' => exact absurd ⟨o', hphase⟩ (h.not_loading id)
    | loaded o' => simp [Phase.exports]

namespace Obtains

variable {s : Session} {earlier : List Call} {c : Call} {p : Point} {id : ModuleId} {o : ObjectId}
  {es : List Event}

/-- What has happened up to the moment when the object is given begins the record of the calls. -/
theorem prefix_allEvents (h : s.Obtains earlier c p id o es) (later : List Call) :
    s.allEvents earlier ++ es ++ Point.recording s.registry p.waiting id p.world <+:
      s.allEvents (earlier ++ c :: later) := by
  obtain ⟨statement, rest, hrest, htarget⟩ := h.next
  have hstep : p.frame.stepEvents (Point.recording s.registry p.waiting) p.world statement =
      Point.recording s.registry p.waiting id p.world := by
    unfold Frame.stepEvents
    rw [htarget]
  have hbody := Frame.prefix_runEvents (Point.requiring s.registry p.waiting)
    (Point.recording s.registry p.waiting) p.frame statement rest p.world
  rw [hstep, ← hrest] at hbody
  have hcall : es ++ Point.recording s.registry p.waiting id p.world <+:
      (s.callAll earlier).callEvents c := by
    unfold callEvents
    rw [callAll_registry]
    exact ((List.prefix_append_right_inj es).2 hbody).trans h.passes.resumed.1
  rw [allEvents_append, List.append_assoc, allEvents, List.prefix_append_right_inj]
  exact hcall.trans (List.prefix_append _ _)

/-- The last thing to happen until then is that the module gives the object. -/
theorem recording_eq (h : s.Obtains earlier c p id o es) :
    ∃ before, Point.recording s.registry p.waiting id p.world = before ++ [.gave id o] :=
  List.getLast?_eq_some_iff.1 ((getLast?_eventsWithin _ _ _ _ o).1 h.given)

/-- A module that is loaded when it has given the object is loaded after all calls. -/
theorem loaded_of_loaded (h : s.Obtains earlier c p id o es) (later : List Call)
    (hloaded : (Point.requiring s.registry p.waiting id p.world).2.state.phase? id =
      some (.loaded o)) :
    (s.callAll (earlier ++ c :: later)).world.state.phase? id = some (.loaded o) := by
  obtain ⟨statement, rest, hrest, htarget⟩ := h.next
  have hsame := Frame.step_of_target (Point.requiring s.registry p.waiting) p.world htarget
  have hbody := Frame.step_grown_run (Point.requiring_grown s.registry p.waiting) p.frame
    statement rest p.world
  rw [hsame.state_eq, ← hrest] at hbody
  have hcall : (p.frame.run (Point.requiring s.registry p.waiting) p.rest p.world).2.state.LoadedIn
      ((s.callAll earlier).call c).2.world.state := by
    rw [call_world, callAll_registry]
    exact h.passes.resumed.2
  have hlater := callAll_grown ((s.callAll earlier).call c).2 later
  rw [callAll_append]
  exact ((hbody.loadedIn.trans hcall).trans hlater.loadedIn) id o hloaded

end Obtains

/-- An execution that has got the exports object of a module shares it with the loader between later
calls, and with every other importer for which the same holds, exactly if no execution of the module
has failed since.  If one has, then the module was loading when it was required. -/
theorem callAll_shared (s : Session) (earlier : List Call) (c : Call) (later : List Call)
    (p : Point) (id : ModuleId) (o : ObjectId) (es : List Event)
    (h : s.restart.Obtains earlier c p id o es) :
    ∃ since, s.restart.allEvents (earlier ++ c :: later) =
        s.restart.allEvents earlier ++ es ++ Point.recording s.registry p.waiting id p.world
          ++ since ∧
      ((s.restart.callAll (earlier ++ c :: later)).world.state.phase? id = some (.loaded o) ↔
        Event.failed id ∉ since) ∧
      (Event.failed id ∈ since → p.world.state.phase? id = some (.loading o)) := by
  obtain ⟨since, hsince⟩ := h.prefix_allEvents later
  have haccounted := (keeps_accounted s.restart.registry s.world.started).moment
    (accounted_restart s) (Moment.between (earlier ++ c :: later))
  have hregular := haccounted.regular
  rw [← hsince] at hregular
  obtain ⟨before, hbefore⟩ := h.recording_eq
  have hcurrent : currentObject id (s.restart.allEvents earlier ++ es ++
      Point.recording s.restart.registry p.waiting id p.world) = some o := by
    rw [hbefore, ← List.append_assoc, List.append_assoc _ [Event.gave id o] since] at hregular
    rw [hbefore, ← List.append_assoc, currentObject_gave]
    exact hregular.current_of_gave
  have hshared : (s.restart.callAll (earlier ++ c :: later)).world.state.phase? id =
      some (.loaded o) ↔ Event.failed id ∉ since := by
    rw [((idle_restart s).callAll _).loaded_iff haccounted, ← hsince]
    exact hregular.current_iff hcurrent
  refine ⟨since, hsince.symm, hshared, ?_⟩
  intro hfailed
  have hframed := s.restart.registry.framed_requireWithin
    (s.restart.registry.modules.length - (p.frame :: p.waiting).length) id p.world
  rw [← h.passes.passes.requiring_eq] at hframed
  rcases hframed.given o h.given with hloaded | ⟨hloading, -⟩
  · -- a module that is loaded does not fail any more
    exact absurd hfailed (hshared.1 (h.loaded_of_loaded later hloaded))
  · exact hloading

/-- The module `x` requires `y` and fails after that the first time; `y` requires `x`. -/
def abandonedSession : Session :=
  .start ⟨.ofPath "x",
    [⟨.ofPath "x", [⟨"./y", .ofPath "y"⟩], [.require "./y" "y", .throwFirst "unready" 1]⟩,
      ⟨.ofPath "y", [⟨"./x", .ofPath "x"⟩], [.require "./x" "x"]⟩]⟩ []

/-- In the first run, `y` gets the object 0 of `x` and fills the object 1. -/
theorem abandonedSession_obtains :
    ∃ p, p.frame.module.id = .ofPath "y" ∧ p.frame.exports = 1 ∧
      abandonedSession.restart.Obtains [] .run p (.ofPath "x") 0
        [.began (.ofPath "x") 0, .began (.ofPath "y") 1] := by
  have hx : abandonedSession.registry.PassesAfter abandonedSession.restart.world (.ofPath "x") _ _ :=
    .enter rfl rfl
  have hy := hx.nested rfl rfl rfl rfl
  exact ⟨_, rfl, rfl, hy, ⟨_, _, rfl, rfl⟩, rfl⟩

theorem abandonedSession_shared :
    ∃ p, abandonedSession.restart.Obtains [] .run p (.ofPath "x") 0
        [.began (.ofPath "x") 0, .began (.ofPath "y") 1] ∧
      ∃ since, abandonedSession.restart.allEvents [.run, .run] =
          [.began (.ofPath "x") 0, .began (.ofPath "y") 1]
            ++ Point.recording abandonedSession.registry p.waiting (.ofPath "x") p.world ++ since ∧
        ((abandonedSession.restart.callAll [.run, .run]).world.state.phase? (.ofPath "x") =
          some (.loaded 0) ↔ Event.failed (.ofPath "x") ∉ since) ∧
        (Event.failed (.ofPath "x") ∈ since →
          p.world.state.phase? (.ofPath "x") = some (.loading 0)) := by
  obtain ⟨p, -, -, hp⟩ := abandonedSession_obtains
  exact ⟨p, hp, callAll_shared abandonedSession [] .run [.run] p _ _ _ hp⟩

/-- When `x` fails, `y` stays loaded with an object that the loader has forgotten. -/
theorem not_shared_of_failure :
    ¬ ∀ (s : Session) (earlier : List Call) (c : Call) (later : List Call) (p : Point)
      (id : ModuleId) (o : ObjectId) (es : List Event), s.restart.Obtains earlier c p id o es →
      (s.restart.callAll (earlier ++ c :: later)).world.state.phase? p.frame.module.id =
        some (.loaded p.frame.exports) →
      (s.restart.callAll (earlier ++ c :: later)).world.state.phase? id = some (.loaded o) := by
  intro hshared
  obtain ⟨p, hid, hexports, hp⟩ := abandonedSession_obtains
  have hloaded : (abandonedSession.restart.callAll [.run]).world.state.phase? p.frame.module.id =
      some (.loaded p.frame.exports) := by
    rw [hid, hexports]
    rfl
  have hx := hshared abandonedSession [] .run [] p _ _ _ hp hloaded
  have hforgotten : (abandonedSession.restart.callAll [.run]).world.state.phase? (.ofPath "x") =
      none := rfl
  rw [List.nil_append, hforgotten] at hx
  cases hx

end Session

end ModuleBundler.Loader
