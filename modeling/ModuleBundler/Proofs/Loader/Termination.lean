import ModuleBundler.Proofs.Loader.Forwarding
import ModuleBundler.Proofs.Loader.Point

/-!
# Every require ends

A require runs bodies, and bodies require modules; a body that fails can be run again and again in
one call.  `Registry.Ends` says when all of this comes to an end, step by step and without a bound
on anything: a statement ends if the places that it reads do and the require in it does.

* `Frame.step_congr` — what a statement does depends on requiring the module that it requires, and
  on requiring nothing else;
* `Registry.Ends.unique` — so there is one way for a require to end;
* `Registry.Passes.body_ends` — a body ends from each point that a require passes, by induction on
  how many more bodies can wait, and within a body on the statements that are left;
* `Registry.Passes.running_le` — there are never more bodies running than modules are registered;
* **`Session.call_ends`** — so a call ends in whatever state the loader is, unless it reads a place
  that forwards to itself.
-/

namespace ModuleBundler.Loader

/-! ## Steps that end -/

/-- The places that a statement reads.  An object that is new has none. -/
def Frame.reads (f : Frame) (w : World) : Statement → List Place
  | .inspect _ handle (.value key) => [((f.object handle w).1, key)]
  | .inspect _ handle .snapshot =>
    (w.heap.names (f.object handle w).1).map fun key => ((f.object handle w).1, key)
  | _ => []

/-- Something that takes its course: a require, or what is left of a body. -/
inductive Activity where
  | require (id : ModuleId)
  | body (f : Frame) (rest : List Statement)

/-- The loader state after a body, given the answer of the body. -/
def LoaderState.settle (s : LoaderState) (id : ModuleId) :
    Except RunFailure ObjectId → LoaderState
  | .ok o => s.put id (.loaded o)
  | .error _ => s.erase id

/-- An activity that begins in a world comes to an end, with an answer and in a world.  A body
answers with its exports. -/
inductive Registry.Ends (r : Registry) :
    Activity → World → Except RunFailure ObjectId → World → Prop
  /-- The module is loaded or loading. -/
  | given {id : ModuleId} {w : World} {phase : Phase} : w.state.phase? id = some phase →
      Ends r (.require id) w (.ok phase.exports) w
  | unknown {id : ModuleId} {w : World} : w.state.phase? id = none → r.get? id = none →
      Ends r (.require id) w (.error (.unknownModule id)) w
  /-- The body of the module is run. -/
  | ran {id : ModuleId} {m : Registered} {w u : World} {result : Except RunFailure ObjectId} :
      w.state.phase? id = none → r.get? id = some m →
      Ends r (.body (w.enter m).1 m.body) (w.enter m).2 result u →
      Ends r (.require id) w result { u with state := u.state.settle id result }
  | done {f : Frame} {w : World} : Ends r (.body f []) w (.ok f.exports) w
  /-- A statement is done, given what the require in it has answered, and so is the rest. -/
  | next {f f' : Frame} {s : Statement} {rest : List Statement} {w v u : World}
      {answer : Except RunFailure ObjectId × World} {result : Except RunFailure ObjectId} :
      (∀ place ∈ f.reads w s, ∃ reading, w.heap.Reads place reading) →
      (∀ id, f.target s = some id → Ends r (.require id) w answer.1 answer.2) →
      f.step (fun _ _ => answer) w s = (.ok f', v) →
      Ends r (.body f' rest) v result u → Ends r (.body f (s :: rest)) w result u
  /-- A statement fails. -/
  | stop {f : Frame} {s : Statement} {rest : List Statement} {w u : World}
      {answer : Except RunFailure ObjectId × World} {e : RunFailure} :
      (∀ place ∈ f.reads w s, ∃ reading, w.heap.Reads place reading) →
      (∀ id, f.target s = some id → Ends r (.require id) w answer.1 answer.2) →
      f.step (fun _ _ => answer) w s = (.error e, u) →
      Ends r (.body f (s :: rest)) w (.error e) u

/-! ## One way to end -/

/-- What a statement does depends on what requiring its target does. -/
theorem Frame.step_congr {requiring other : Requiring} {f : Frame} {w : World} {s : Statement}
    (h : ∀ id, f.target s = some id → requiring id w = other id w) :
    f.step requiring w s = f.step other w s := by
  have hspecifier : ∀ specifier, s.requested = some specifier →
      f.requireSpecifier requiring specifier w = f.requireSpecifier other specifier w := by
    intro specifier hs
    cases htarget : targetOf f.module.imports specifier with
    | none => simp only [requireSpecifier_of_target_none _ htarget]
    | some id =>
      simp only [requireSpecifier_of_target _ htarget]
      exact h id (by simp [target, hs, htarget])
  cases s with
  | require specifier handle => simp only [step, hspecifier specifier rfl]
  | attempt specifier handle => simp only [step, hspecifier specifier rfl]
  | _ => rfl

/-- Equal answers to the require in a statement make no difference. -/
theorem Frame.step_answer {answer other : Except RunFailure ObjectId × World} {f : Frame}
    {w : World} {s : Statement}
    (h : ∀ id, f.target s = some id → answer.1 = other.1 ∧ answer.2 = other.2) :
    f.step (fun _ _ => answer) w s = f.step (fun _ _ => other) w s :=
  step_congr fun id hid => Prod.ext (h id hid).1 (h id hid).2

/-- A frame goes on with the same exports object. -/
theorem Frame.step_exports {requiring : Requiring} {f f' : Frame} {w w' : World} {s : Statement}
    (h : f.step requiring w s = (.ok f', w')) : f'.exports = f.exports := by
  rcases step_frame h with rfl | ⟨handle, o, rfl⟩ <;> rfl

/-- There is one answer to a require, and one world after it. -/
theorem Registry.Ends.unique {r : Registry} {a : Activity} {w u u' : World}
    {x x' : Except RunFailure ObjectId} (h : r.Ends a w x u) (h' : r.Ends a w x' u') :
    x = x' ∧ u = u' := by
  induction h generalizing x' u' with
  | given hphase =>
    cases h' with
    | given hphase' =>
      rw [hphase] at hphase'
      cases hphase'
      exact ⟨rfl, rfl⟩
    | unknown hnone => simp [hphase] at hnone
    | ran hnone => simp [hphase] at hnone
  | unknown hnone hm =>
    cases h' with
    | given hphase => simp [hnone] at hphase
    | unknown => exact ⟨rfl, rfl⟩
    | ran _ hm' => simp [hm] at hm'
  | ran hnone hm _ ih =>
    cases h' with
    | given hphase => simp [hnone] at hphase
    | unknown _ hm' => simp [hm] at hm'
    | ran _ hm' hbody =>
      rw [hm] at hm'
      cases hm'
      obtain ⟨rfl, rfl⟩ := ih hbody
      exact ⟨rfl, rfl⟩
  | done =>
    cases h' with
    | done => exact ⟨rfl, rfl⟩
  | @next f f' s rest w v u answer result _ _ hstep _ ihrequire ihrest =>
    cases h' with
    | next _ hrequire hstep' hrest =>
      rw [Frame.step_answer fun id hid => ihrequire id hid (hrequire id hid), hstep'] at hstep
      cases hstep
      exact ihrest hrest
    | stop _ hrequire hstep' =>
      rw [Frame.step_answer fun id hid => ihrequire id hid (hrequire id hid), hstep'] at hstep
      cases hstep
  | @stop f s rest w u answer e _ _ hstep ihrequire =>
    cases h' with
    | next _ hrequire hstep' hrest =>
      rw [Frame.step_answer fun id hid => ihrequire id hid (hrequire id hid), hstep'] at hstep
      cases hstep
    | stop _ hrequire hstep' =>
      rw [Frame.step_answer fun id hid => ihrequire id hid (hrequire id hid), hstep'] at hstep
      cases hstep
      exact ⟨rfl, rfl⟩

/-! ## Bodies within bodies -/

namespace Registry

variable {r : Registry} {n : Nat} {id : ModuleId} {w : World}

/-- A require ends if the body that it runs does. -/
theorem ends_requireWithin
    (hbody : ∀ m, w.state.phase? id = none → r.get? id = some m →
      r.Ends (.body (w.enter m).1 m.body) (w.enter m).2
        (((w.enter m).1.run (requireWithin r n) m.body (w.enter m).2).1.map
          fun _ => (w.enter m).1.exports)
        ((w.enter m).1.run (requireWithin r n) m.body (w.enter m).2).2) :
    r.Ends (.require id) w (requireWithin r (n + 1) id w).1 (requireWithin r (n + 1) id w).2 := by
  rcases requireWithin_cases r n id w with ⟨phase, hphase, heq⟩ | ⟨hnone, hm, heq⟩ |
    ⟨m, u, hnone, hm, hrun, heq⟩ | ⟨m, e, u, hnone, hm, hrun, heq⟩ <;> rw [heq]
  · exact .given hphase
  · exact .unknown hnone hm
  · have hends := hbody m hnone hm
    rw [hrun] at hends
    exact .ran hnone hm hends
  · have hends := hbody m hnone hm
    rw [hrun] at hends
    exact .ran hnone hm hends

/-- On the way, a statement reads a place that forwards to itself. -/
def ReadsCircularly (r : Registry) (w : World) (id : ModuleId) : Prop :=
  ∃ p s rest, r.Passes w id p ∧ p.rest = s :: rest ∧
    ∃ place ∈ p.frame.reads p.world s, p.world.heap.Circular place

/-- From each point that a require passes, the body ends. -/
theorem Passes.body_ends (hreads : ¬ r.ReadsCircularly w id) {waiting : List Frame} {f : Frame}
    {rest : List Statement} {v : World} (h : r.Passes w id ⟨waiting, f, rest, v⟩) :
    r.Ends (.body f rest) v ((f.run (Point.requiring r waiting) rest v).1.map fun _ => f.exports)
      (f.run (Point.requiring r waiting) rest v).2 := by
  -- a body that is begun again waits for no fewer bodies, so there is as much room as before
  generalize hroom : r.modules.length - waiting.length = room
  induction room using Nat.strong_induction_on generalizing waiting f rest v with
  | _ room ihroom =>
    induction rest generalizing f v with
    | nil => exact .done
    | cons s rest ih =>
      have hread : ∀ place ∈ f.reads v s, ∃ reading, v.heap.Reads place reading := by
        intro place hplace
        exact Heap.exists_reads_iff.2 fun hcircular =>
          hreads ⟨_, s, rest, h, rfl, place, hplace, hcircular⟩
      have hrequire : ∀ target, f.target s = some target →
          r.Ends (.require target) v (Point.requiring r waiting target v).1
            (Point.requiring r waiting target v).2 := by
        intro target htarget
        obtain ⟨specifier, hs, hlink⟩ := Option.bind_eq_some_iff.1 htarget
        rw [h.requiring_eq]
        refine ends_requireWithin fun m hnone hm => ?_
        have hless : r.modules.length - (f :: waiting).length < room := by
          rw [← hroom, h.room_eq]
          exact Nat.lt_succ_self _
        exact ihroom _ hless (h.nested hs hlink hnone hm) rfl
      -- one answer is as good as the way to require that gives it
      obtain ⟨answer, hanswer⟩ : ∃ answer, ∀ target, f.target s = some target →
          Point.requiring r waiting target v = answer := by
        cases htarget : f.target s with
        | none => exact ⟨(.error .tooDeep, v), by simp⟩
        | some target => exact ⟨Point.requiring r waiting target v, by simp⟩
      have hsame : f.step (Point.requiring r waiting) v s = f.step (fun _ _ => answer) v s :=
        Frame.step_congr hanswer
      have hends : ∀ target, f.target s = some target →
          r.Ends (.require target) v answer.1 answer.2 := by
        intro target htarget
        rw [← hanswer target htarget]
        exact hrequire target htarget
      rcases hstep : f.step (Point.requiring r waiting) v s with ⟨e | f', v'⟩
      · rw [Frame.run, hstep]
        exact .stop hread hends (hsame.symm.trans hstep)
      · have hrest := ih (h.next hstep)
        rw [Frame.step_exports hstep] at hrest
        rw [Frame.run, hstep]
        exact .next hread hends (hsame.symm.trans hstep) hrest

/-- There are never more bodies running than modules are registered. -/
theorem Passes.running_le {p : Point} (h : r.Passes w id p) :
    p.running.length ≤ (r.modules.map (·.id)).dedup.length := by
  refine (List.subperm_of_subset h.running_loading.2 fun a ha => ?_).length_le
  have hrunning : a ∈ (p.frame :: p.waiting).map (·.module.id) := ha
  obtain ⟨f, hf, rfl⟩ := List.mem_map.1 hrunning
  exact List.mem_dedup.2 (List.mem_map_of_mem (h.registered f hf))

end Registry

/-! ## Calls -/

namespace Session

/-- A call ends, in one way, which is how the loader answers it, and at no point of it are more
bodies running than modules are registered; this holds of every call of every loader in every state,
unless a place is read on the way that forwards to itself. -/
theorem call_ends (s : Session) (c : Call)
    (h : ¬ s.registry.ReadsCircularly s.world (c.target s.registry)) :
    (∀ answer world, s.registry.Ends (.require (c.target s.registry)) s.world answer world ↔
      answer = (s.call c).1.map (·.object) ∧ world = (s.call c).2.world) ∧
    ∀ p, s.Passes c p → p.running.length ≤ (s.registry.modules.map (·.id)).dedup.length := by
  refine ⟨fun answer world => ?_, fun p hp => hp.running_le⟩
  have hends : s.registry.Ends (.require (c.target s.registry)) s.world
      ((s.call c).1.map (·.object)) (s.call c).2.world := by
    rw [call_object, call_world]
    refine Registry.ends_requireWithin fun m hnone hm => ?_
    exact Registry.Passes.body_ends h (.enter hnone hm)
  constructor
  · exact fun hother => hother.unique hends
  · rintro ⟨rfl, rfl⟩
    exact hends

/-- A module that requires itself and reads, through the exports that this gives, a name that it
has forwarded to another one; on the way it tries to require what it has no link for. -/
def echoModule : Registered where
  id := .ofPath "echo"
  imports := [⟨"./echo", .ofPath "echo"⟩]
  body := [.forward "a" "self" "b", .set "b" .null, .attempt "./none" "none",
    .require "./echo" "again", .inspect "c" "again" (.value "a")]

/-- A loader of this module alone. -/
def echoSession : Session := .start ⟨.ofPath "echo", [echoModule]⟩ []

/-- The points that a body passes in its own execution. -/
def course (r : Registry) (f : Frame) (w : World) : List Statement → List Point
  | [] => [⟨[], f, [], w⟩]
  | s :: rest => ⟨[], f, s :: rest, w⟩ ::
    match f.step (Point.requiring r []) w s with
    | (.ok f, w) => course r f w rest
    | (.error _, _) => []

/-- The points of the body that runs for this loader. -/
def echoPoints : List Point :=
  course echoSession.registry (echoSession.world.enter echoModule).1
    (echoSession.world.enter echoModule).2 echoModule.body

theorem mem_echoPoints {p : Point} (h : echoSession.Passes .run p) : p ∈ echoPoints := by
  induction h with
  | enter _ hm =>
    cases hm
    exact List.mem_cons_self
  | next _ hstep ih =>
    rcases ih with _ | ⟨_, _ | ⟨_, _ | ⟨_, _ | ⟨_, _ | ⟨_, _ | ⟨_, ⟨⟩⟩⟩⟩⟩⟩⟩ <;> cases hstep
    · exact .tail _ (.head _)
    · exact .tail _ (.tail _ (.head _))
    · exact .tail _ (.tail _ (.tail _ (.head _)))
    · exact .tail _ (.tail _ (.tail _ (.tail _ (.head _))))
    · exact .tail _ (.tail _ (.tail _ (.tail _ (.tail _ (.head _)))))
  | nested _ hs htarget hnone =>
    -- the only module is running, so it is not begun again
    rcases ‹_ ∈ echoPoints› with _ | ⟨_, _ | ⟨_, _ | ⟨_, _ | ⟨_, _ | ⟨_, _ | ⟨_, ⟨⟩⟩⟩⟩⟩⟩⟩ <;>
      cases hs <;> cases htarget
    cases hnone

theorem echoSession_ends :
    ¬ echoSession.registry.ReadsCircularly echoSession.world (.ofPath "echo") ∧
      ∃ world, world.heap.names 0 = ["a", "b", "c"] ∧
        echoSession.registry.Ends (.require (.ofPath "echo")) echoSession.world (.ok 0) world := by
  have hreads : ¬ echoSession.registry.ReadsCircularly echoSession.world (.ofPath "echo") := by
    rintro ⟨p, s, rest, hp, hrest, place, hplace, hcircular⟩
    rcases mem_echoPoints hp with
      _ | ⟨_, _ | ⟨_, _ | ⟨_, _ | ⟨_, _ | ⟨_, _ | ⟨_, ⟨⟩⟩⟩⟩⟩⟩⟩ <;>
      cases hrest <;> cases hplace
    · cases Heap.get_eq_endless_iff.2 hcircular
    · rename_i hnone
      cases hnone
  exact ⟨hreads, _, rfl, ((call_ends echoSession .run hreads).1 _ _).2 ⟨rfl, rfl⟩⟩

end Session

end ModuleBundler.Loader
