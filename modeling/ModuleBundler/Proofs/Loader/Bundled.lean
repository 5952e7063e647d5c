import ModuleBundler.Loader.Bundled
import ModuleBundler.Proofs.Loader.Linked

/-!
# The loader in a bundle does what a loader with phases does

The two loaders run side by side.  Their worlds match (`Bundled.Matches`) when an id is in the cache
of one exactly if it has a phase in the other, with the same exports object, and when both have
started the same executions; objects have the same numbers on both sides.  What the objects hold is
the same too, as long as no statement looks at phases (`Registry.Blind`), which a bundle does not
have.

* `Bundled.step_agrees`, `Bundled.run_agrees` — worlds that match still match after a statement and
  after a body, and the results are the same up to the wording of failures (`Bundled.Agree`);
* `Bundled.requireWithin_agrees` — so the two loaders require a module alike;
* `Bundled.passes_of_phased`, `Bundled.passes_of_bundled` — at every point that one loader passes,
  the other passes the same point in a world that matches;
* `Bundled.hasRoom_of_passes` — nothing that code requires runs out of room;
* `Bundled.Session.Mirrors` — what the two loaders are between calls, kept by every call;
* **`Session.callAll_bundled`** — the two loaders answer any sequence of calls alike.
-/

namespace ModuleBundler.Loader

open LoaderState

/-! ## Statements that look at phases -/

/-- A statement looks at a phase. -/
def Statement.LooksAtPhase (s : Statement) : Prop := ∃ name id, s = .phase name id

/-- No body of a registry looks at phases. -/
def Registry.Blind (r : Registry) : Prop :=
  ∀ m ∈ r.modules, ∀ s ∈ m.body, ¬ s.LooksAtPhase

/-- The second heap has as many objects as the first, and is the first if bodies are blind. -/
structure Heap.Follows (blind : Prop) (h h' : Heap) : Prop where
  fresh_eq : h'.fresh = h.fresh
  heap_eq : blind → h' = h

namespace Heap.Follows

variable {blind : Prop} {h h' : Heap}

theorem define (hh : h.Follows blind h') (o : ObjectId) (name : String) {slot slot' : Slot}
    (hslot : blind → slot' = slot) :
    (h.define o name slot).Follows blind (h'.define o name slot') := by
  constructor
  · show (h'.objects.modify o _).length = (h.objects.modify o _).length
    rw [List.length_modify, List.length_modify]
    exact hh.fresh_eq
  · intro hb
    rw [hh.heap_eq hb, hslot hb]

theorem allocate (hh : h.Follows blind h') : h.allocate.Follows blind h'.allocate := by
  constructor
  · show (h'.objects ++ [[]]).length = (h.objects ++ [[]]).length
    rw [List.length_append, List.length_append]
    exact congrArg (· + 1) hh.fresh_eq
  · intro hb
    rw [hh.heap_eq hb]

theorem assign (hh : h.Follows blind h') (c : Cell) (v : Value) :
    (h.assign c v).Follows blind (h'.assign c v) :=
  ⟨hh.fresh_eq, fun hb => by rw [hh.heap_eq hb]⟩

/-- A handle means the same object on both sides. -/
theorem object {w w' : World} (hw : w.heap.Follows blind w'.heap) (f : Frame) (handle : String) :
    (f.object handle w').1 = (f.object handle w).1 ∧
      (f.object handle w).2.heap.Follows blind (f.object handle w').2.heap := by
  unfold Frame.object
  split
  · exact ⟨rfl, hw⟩
  · exact ⟨hw.fresh_eq, hw.allocate⟩

end Heap.Follows

/-- A statement without a require gives the same result in two worlds with matching heaps. -/
theorem Frame.step_follows {blind : Prop} {s : Statement} {w w' : World} (f : Frame)
    (requiring requiring' : Requiring) (hs : s.requested = none) (hb : blind → ¬ s.LooksAtPhase)
    (hw : w.heap.Follows blind w'.heap) :
    (f.step requiring' w' s).1 = (f.step requiring w s).1 ∧
      (f.step requiring w s).2.heap.Follows blind (f.step requiring' w' s).2.heap := by
  cases s with
  | require specifier handle => cases hs
  | attempt specifier handle => cases hs
  | set name value => exact ⟨rfl, hw.define _ _ fun _ => rfl⟩
  | alter handle name value =>
    obtain ⟨hobject, hheap⟩ := hw.object f handle
    unfold step
    dsimp only
    rw [hobject]
    exact ⟨rfl, hheap.define _ _ fun _ => rfl⟩
  | assign cell value => exact ⟨rfl, hw.assign _ _⟩
  | getter name cell => exact ⟨rfl, hw.define _ _ fun _ => rfl⟩
  | forward name handle key =>
    obtain ⟨hobject, hheap⟩ := hw.object f handle
    unfold step
    dsimp only
    rw [hobject]
    exact ⟨rfl, hheap.define _ _ fun _ => rfl⟩
  | inspect name handle what =>
    obtain ⟨hobject, hheap⟩ := hw.object f handle
    unfold step
    dsimp only
    rw [hobject]
    exact ⟨rfl, hheap.define _ _ fun hb => by rw [hheap.heap_eq hb]⟩
  | same name first second =>
    obtain ⟨hfirst, hheap⟩ := hw.object f first
    obtain ⟨hsecond, hheap⟩ := hheap.object f second
    unfold step
    dsimp only
    rw [hfirst, hsecond]
    exact ⟨rfl, hheap.define _ _ fun _ => rfl⟩
  | phase name id => exact ⟨rfl, hw.define _ _ fun h => absurd ⟨name, id, rfl⟩ (hb h)⟩
  | importer name => exact ⟨rfl, hw.define _ _ fun _ => rfl⟩
  | log line => exact ⟨rfl, hw⟩
  | throw message => exact ⟨rfl, hw⟩
  | throwFirst message times =>
    unfold step
    dsimp only
    split <;> exact ⟨rfl, hw⟩

/-- No call runs out of room. -/
theorem Session.call_ne_tooDeep (s : Session) (c : Call) : (s.call c).1 ≠ .error .tooDeep := by
  intro h
  have hobject := call_object s c
  rw [h] at hobject
  have hrefused : Loader.require s.registry (c.target s.registry) s.world =
      (.error .tooDeep, (Loader.require s.registry (c.target s.registry) s.world).2) :=
    Prod.ext hobject.symm rfl
  rcases Registry.explains_of_require hrefused with hexplained | ⟨heq, -⟩
  · exact hexplained.ne_tooDeep rfl
  · cases heq

namespace Bundled

/-! ## The cache -/

namespace Cache

theorem get?_delete (c : Cache) (id other : ModuleId) :
    (c.delete id).get? other = if other = id then none else c.get? other := by
  unfold get? delete
  rw [List.find?_filter]
  by_cases h : other = id
  · simp [h]
  · rw [if_neg h]
    congr 2
    funext entry
    by_cases hkey : entry.1 = other <;> simp [hkey, h]

theorem get?_set (c : Cache) (id : ModuleId) (o : ObjectId) (other : ModuleId) :
    (c.set id o).get? other = if other = id then some o else c.get? other := by
  have hdelete := get?_delete c id other
  unfold get? set at *
  rw [List.find?_append, Option.map_or, hdelete]
  by_cases h : other = id
  · simp [h]
  · simp [h, Ne.symm h]

end Cache

/-! ## Worlds that match -/

variable {r : Registry}

/-- The worlds of a loader with phases and of a loader in a bundle. -/
structure Matches (r : Registry) (w : Loader.World) (v : World) : Prop where
  /-- Kept are the modules that are loading or loaded. -/
  cached : ∀ id, v.cache.get? id = (w.state.phase? id).map Phase.exports
  started_eq : v.started = w.started
  heap : w.heap.Follows r.Blind v.heap

/-- Two results are the same up to the wording of failures, in worlds that match. -/
structure Agree {α : Type} (r : Registry) (a : Except RunFailure α × Loader.World)
    (b : Except Thrown α × World) : Prop where
  result_eq : b.1 = a.1.mapError Thrown.of
  worlds : Matches r a.2 b.2

/-- Two ways to require give results that agree in worlds that match. -/
def Corresponds (r : Registry) (requiring : Loader.Requiring) (requiring' : Requiring) : Prop :=
  ∀ id w v, Matches r w v → Agree r (requiring id w) (requiring' id v)

section Loaders

variable {requiring : Loader.Requiring} {requiring' : Requiring} {f : Frame} {w : Loader.World}
  {v : World}

theorem localRequire_agrees (hr : Corresponds r requiring requiring') (hw : Matches r w v)
    (specifier : String) :
    Agree r (f.requireSpecifier requiring specifier w)
      (localRequire requiring' f.module specifier v) := by
  unfold Frame.requireSpecifier localRequire
  cases targetOf f.module.imports specifier with
  | none => exact ⟨rfl, hw⟩
  | some target => exact hr target w v hw

/-- A statement without a require does the same on both sides. -/
theorem step_unrequested {s : Statement} (hs : s.requested = none)
    (hb : r.Blind → ¬ s.LooksAtPhase) (hw : Matches r w v) :
    Agree r (f.step requiring w s) (step requiring' f v s) := by
  have hstep : step requiring' f v s = ((f.step noRequire v.bare s).1.mapError Thrown.of,
      v.after (f.step noRequire v.bare s).2) := by
    cases s with
    | require specifier handle => cases hs
    | attempt specifier handle => cases hs
    | _ => rfl
  have hbare : w.heap.Follows r.Blind v.bare.heap := hw.heap
  obtain ⟨hresult, hheap⟩ := f.step_follows requiring noRequire hs hb hbare
  have hkept := Frame.step_of_unrequested requiring f w hs
  have hkept' := Frame.step_of_unrequested noRequire f v.bare hs
  rw [hstep]
  refine ⟨by rw [hresult], ⟨?_, ?_, hheap⟩⟩
  · intro id
    rw [hkept.state_eq]
    exact hw.cached id
  · show (f.step noRequire v.bare s).2.started = _
    rw [hkept.started_eq, hkept'.started_eq]
    exact hw.started_eq

/-- Results that agree, by cases. -/
theorem Agree.cases {α : Type} {a : Except RunFailure α × Loader.World}
    {b : Except Thrown α × World} (h : Agree r a b) :
    (∃ x w v, a = (.ok x, w) ∧ b = (.ok x, v) ∧ Matches r w v) ∨
      ∃ e w v, a = (.error e, w) ∧ b = (.error (.of e), v) ∧ Matches r w v := by
  obtain ⟨result, w⟩ := a
  obtain ⟨result', v⟩ := b
  obtain ⟨rfl, hworlds⟩ := h
  cases result with
  | ok x => exact Or.inl ⟨x, w, v, rfl, rfl, hworlds⟩
  | error e => exact Or.inr ⟨e, w, v, rfl, rfl, hworlds⟩

theorem Matches.say (hw : Matches r w v) (line line' : String) :
    Matches r (w.say line) (v.say line') := ⟨hw.cached, hw.started_eq, hw.heap⟩

/-- A statement does the same on both sides. -/
theorem step_agrees (hr : Corresponds r requiring requiring') {s : Statement}
    (hb : r.Blind → ¬ s.LooksAtPhase) (hw : Matches r w v) :
    Agree r (f.step requiring w s) (step requiring' f v s) := by
  cases s with
  | require specifier handle =>
    unfold Frame.step step
    dsimp only
    rcases (localRequire_agrees (f := f) hr hw specifier).cases with
      ⟨o, w', v', ha, hb, hw'⟩ | ⟨e, w', v', ha, hb, hw'⟩ <;> rw [ha, hb] <;> exact ⟨rfl, hw'⟩
  | attempt specifier handle =>
    unfold Frame.step step
    dsimp only
    rcases (localRequire_agrees (f := f) hr hw specifier).cases with
      ⟨o, w', v', ha, hb, hw'⟩ | ⟨e, w', v', ha, hb, hw'⟩ <;> rw [ha, hb]
    · exact ⟨rfl, hw'⟩
    · exact ⟨rfl, hw'.say _ _⟩
  | _ => exact step_unrequested rfl hb hw

/-- A body does the same on both sides. -/
theorem run_agrees (hr : Corresponds r requiring requiring') {body : List Statement}
    (hb : ∀ s ∈ body, r.Blind → ¬ s.LooksAtPhase) (hw : Matches r w v) :
    Agree r (f.run requiring body w) (run requiring' f body v) := by
  induction body generalizing f w v with
  | nil => exact ⟨rfl, hw⟩
  | cons s rest ih =>
    unfold Frame.run run
    rcases (step_agrees (f := f) hr (hb s List.mem_cons_self) hw).cases with
      ⟨f', w', v', ha, hb', hw'⟩ | ⟨e, w', v', ha, hb', hw'⟩ <;> rw [ha, hb']
    · exact ih (fun s hs => hb s (List.mem_cons_of_mem _ hs)) hw'
    · exact ⟨rfl, hw'⟩

/-! ## Requires -/

variable {n : Nat} {id : ModuleId} {m : Registered}

theorem Matches.get?_eq_none_iff (hw : Matches r w v) :
    v.cache.get? id = none ↔ w.state.phase? id = none := by
  rw [hw.cached, Option.map_eq_none_iff]

/-- An execution begins in the same way on both sides. -/
theorem Matches.enter (hw : Matches r w v) (m : Registered) :
    (v.enter m).1 = (w.enter m).1 ∧ Matches r (w.enter m).2 (v.enter m).2 := by
  have hframe : (v.enter m).1 = (w.enter m).1 := by
    show (v.bare.enter m).1 = (w.enter m).1
    unfold World.bare Loader.World.enter
    rw [hw.heap.fresh_eq, hw.started_eq]
  refine ⟨hframe, ⟨?_, ?_, hw.heap.allocate⟩⟩
  · intro other
    show (v.cache.set m.id (v.enter m).1.exports).get? other =
      ((w.state.put m.id (.loading (w.enter m).1.exports)).phase? other).map Phase.exports
    rw [Cache.get?_set, phase?_put, hframe, hw.cached]
    split <;> rfl
  · show v.started ++ [m.id] = w.started ++ [m.id]
    rw [hw.started_eq]

theorem requireWithin_of_kept {o : ObjectId} (h : v.cache.get? id = some o) :
    requireWithin r (n + 1) id v = (.ok o, v) := by
  unfold requireWithin
  rw [h]

theorem requireWithin_of_missing (hnone : v.cache.get? id = none) (hm : r.get? id = none) :
    requireWithin r (n + 1) id v = (.error (.missingModule id), v) := by
  unfold requireWithin
  rw [hnone]
  dsimp only
  rw [hm]

/-- A module whose code ends is kept. -/
theorem requireWithin_of_ended {u : World} (hnone : v.cache.get? id = none)
    (hm : r.get? id = some m)
    (hrun : run (requireWithin r n) (v.enter m).1 m.body (v.enter m).2 = (.ok (), u)) :
    requireWithin r (n + 1) id v = (.ok (v.enter m).1.exports, u) := by
  rw [requireWithin, hnone]
  simp only [hm, hrun]

/-- A module whose code throws is taken out. -/
theorem requireWithin_of_thrown {u : World} {e : Thrown} (hnone : v.cache.get? id = none)
    (hm : r.get? id = some m)
    (hrun : run (requireWithin r n) (v.enter m).1 m.body (v.enter m).2 = (.error e, u)) :
    requireWithin r (n + 1) id v = (.error e, { u with cache := u.cache.delete id }) := by
  rw [requireWithin, hnone]
  simp only [hm, hrun]

/-- A loaded module stays in the cache. -/
theorem Matches.put_loaded {o : ObjectId} (hw : Matches r w v)
    (h : w.state.phase? id = some (.loading o)) :
    Matches r { w with state := w.state.put id (.loaded o) } v := by
  refine ⟨?_, hw.started_eq, hw.heap⟩
  intro other
  rw [hw.cached]
  show _ = ((w.state.put id (.loaded o)).phase? other).map Phase.exports
  rw [phase?_put]
  by_cases heq : other = id
  · rw [if_pos heq, heq, h]
    rfl
  · rw [if_neg heq]

/-- A failed module is forgotten on both sides. -/
theorem Matches.erase (hw : Matches r w v) (id : ModuleId) :
    Matches r { w with state := w.state.erase id } { v with cache := v.cache.delete id } := by
  refine ⟨?_, hw.started_eq, hw.heap⟩
  intro other
  show (v.cache.delete id).get? other = ((w.state.erase id).phase? other).map Phase.exports
  rw [Cache.get?_delete, phase?_erase, hw.cached]
  split <;> rfl

/-- The two loaders require a module alike. -/
theorem requireWithin_agrees (r : Registry) (n : Nat) :
    Corresponds r (Loader.requireWithin r n) (requireWithin r n) := by
  induction n with
  | zero => exact fun id w v hw => ⟨rfl, hw⟩
  | succ n ih =>
    intro id w v hw
    -- how the body of a module that is not loaded runs in the bundle
    have hruns : ∀ m, r.get? id = some m →
        Agree r ((w.enter m).1.run (Loader.requireWithin r n) m.body (w.enter m).2)
          (run (requireWithin r n) (v.enter m).1 m.body (v.enter m).2) := by
      intro m hm
      obtain ⟨hframe, hentered⟩ := hw.enter m
      rw [hframe]
      exact run_agrees ih (fun s hs hblind => hblind m (Registry.mem_of_get? hm) s hs) hentered
    rcases requireWithin_cases r n id w with ⟨phase, hphase, heq⟩ | ⟨hnone, hm, heq⟩ |
      ⟨m, u, hnone, hm, hrun, heq⟩ | ⟨m, e, u, hnone, hm, hrun, heq⟩ <;> rw [heq]
    · have hkept : v.cache.get? id = some phase.exports := by
        rw [hw.cached, hphase]
        rfl
      rw [requireWithin_of_kept hkept]
      exact ⟨rfl, hw⟩
    · rw [requireWithin_of_missing (hw.get?_eq_none_iff.2 hnone) hm]
      exact ⟨rfl, hw⟩
    · have hloading := loading_of_run (w := w) hm n
      have hrun' := hruns m hm
      rw [hrun] at hloading hrun'
      rcases hrun'.cases with ⟨_, w', v', ha, hb, hw'⟩ | ⟨_, _, _, ha, _, _⟩ <;> cases ha
      rw [requireWithin_of_ended (hw.get?_eq_none_iff.2 hnone) hm hb, (hw.enter m).1]
      exact ⟨rfl, hw'.put_loaded hloading⟩
    · have hrun' := hruns m hm
      rw [hrun] at hrun'
      rcases hrun'.cases with ⟨_, _, _, ha, _, _⟩ | ⟨e', w', v', ha, hb, hw'⟩ <;> cases ha
      rw [requireWithin_of_thrown (hw.get?_eq_none_iff.2 hnone) hm hb]
      exact ⟨rfl, hw'.erase id⟩

end Loaders

/-! ## Points -/

/-- A place between two statements of code in a bundle. -/
structure Point where
  /-- The executions that wait for the running one, the innermost first. -/
  waiting : List Frame
  frame : Frame
  /-- The statements that are left of the code. -/
  rest : List Statement
  world : World

/-- How the code at a point requires modules. -/
def Point.requiring (r : Registry) (waiting : List Frame) : Requiring :=
  requireWithin r (r.modules.length - waiting.length)

/-- Requiring the module `id` in the world `w` of a bundle passes a point. -/
inductive Passes (r : Registry) (w : World) (id : ModuleId) : Point → Prop
  /-- The code of the module begins. -/
  | enter {m : Registered} : w.cache.get? id = none → r.get? id = some m →
      Passes r w id ⟨[], (w.enter m).1, m.body, (w.enter m).2⟩
  /-- A statement is done. -/
  | next {waiting : List Frame} {f f' : Frame} {s : Statement} {rest : List Statement}
      {v v' : World} : Passes r w id ⟨waiting, f, s :: rest, v⟩ →
      step (Point.requiring r waiting) f v s = (.ok f', v') →
      Passes r w id ⟨waiting, f', rest, v'⟩
  /-- The code of a module that a statement requires begins. -/
  | nested {waiting : List Frame} {f : Frame} {s : Statement} {rest : List Statement} {v : World}
      {specifier : String} {target : ModuleId} {m : Registered} :
      Passes r w id ⟨waiting, f, s :: rest, v⟩ → s.requested = some specifier →
      targetOf f.module.imports specifier = some target → v.cache.get? target = none →
      r.get? target = some m →
      Passes r w id ⟨f :: waiting, (v.enter m).1, m.body, (v.enter m).2⟩

/-- At a point, a statement of a registry without looks at phases is none. -/
theorem not_looksAtPhase {w v : Loader.World} {id : ModuleId} {waiting : List Frame} {f : Frame}
    {s : Statement} {rest : List Statement} (h : r.Passes w id ⟨waiting, f, s :: rest, v⟩)
    (hblind : r.Blind) : ¬ s.LooksAtPhase := by
  obtain ⟨passed, hbody, -⟩ := h.required
  have hmem : s ∈ f.module.body := by
    rw [show f.module.body = passed ++ s :: rest from hbody]
    exact List.mem_append_right passed List.mem_cons_self
  exact hblind f.module h.module_mem s hmem

/-- Statements at a point do the same on both sides. -/
theorem step_agrees_of_passes {w u : Loader.World} {v : World} {id : ModuleId}
    {waiting : List Frame} {f : Frame} {s : Statement} {rest : List Statement}
    (h : r.Passes w id ⟨waiting, f, s :: rest, u⟩) (hu : Matches r u v) :
    Agree r (f.step (Loader.Point.requiring r waiting) u s)
      (step (Point.requiring r waiting) f v s) :=
  step_agrees (requireWithin_agrees r _) (not_looksAtPhase h) hu

/-- A run of the loader in a bundle passes each point of a run of the other. -/
theorem passes_of_phased {w : Loader.World} {v : World} {id : ModuleId} {p : Loader.Point}
    (hw : Matches r w v) (h : r.Passes w id p) :
    ∃ u, Passes r v id ⟨p.waiting, p.frame, p.rest, u⟩ ∧ Matches r p.world u := by
  induction h with
  | @enter m hnone hm =>
    obtain ⟨hframe, hentered⟩ := hw.enter m
    have hpassed := Passes.enter (hw.get?_eq_none_iff.2 hnone) hm
    rw [hframe] at hpassed
    exact ⟨_, hpassed, hentered⟩
  | @next waiting f f' s rest u u' hp hstep ih =>
    obtain ⟨x, hpassed, hx⟩ := ih
    have hagrees := step_agrees_of_passes hp hx
    rw [hstep] at hagrees
    rcases hagrees.cases with ⟨_, _, x', ha, hb, hx'⟩ | ⟨_, _, _, ha, _, _⟩ <;> cases ha
    exact ⟨x', hpassed.next hb, hx'⟩
  | @nested waiting f s rest u specifier target m hp hs htarget hnone hm ih =>
    obtain ⟨x, hpassed, hx⟩ := ih
    obtain ⟨hframe, hentered⟩ := hx.enter m
    have hnested := hpassed.nested hs htarget (hx.get?_eq_none_iff.2 hnone) hm
    rw [hframe] at hnested
    exact ⟨_, hnested, hentered⟩

/-- And the other way round. -/
theorem passes_of_bundled {w : Loader.World} {v : World} {id : ModuleId} {q : Point}
    (hw : Matches r w v) (h : Passes r v id q) :
    ∃ u, r.Passes w id ⟨q.waiting, q.frame, q.rest, u⟩ ∧ Matches r u q.world := by
  induction h with
  | @enter m hnone hm =>
    obtain ⟨hframe, hentered⟩ := hw.enter m
    have hpassed : r.Passes w id _ := .enter (hw.get?_eq_none_iff.1 hnone) hm
    exact ⟨_, by rw [hframe]; exact hpassed, hentered⟩
  | @next waiting f f' s rest u u' hp hstep ih =>
    obtain ⟨x, hpassed, hx⟩ := ih
    have hagrees := step_agrees_of_passes hpassed hx
    rw [hstep] at hagrees
    rcases hagrees.cases with ⟨_, x', _, ha, hb, hx'⟩ | ⟨_, _, _, _, hb, _⟩ <;> cases hb
    exact ⟨x', hpassed.next ha, hx'⟩
  | @nested waiting f s rest u specifier target m hp hs htarget hnone hm ih =>
    obtain ⟨x, hpassed, hx⟩ := ih
    obtain ⟨hframe, hentered⟩ := hx.enter m
    have hnested := hpassed.nested hs htarget (hx.get?_eq_none_iff.1 hnone) hm
    exact ⟨_, by rw [hframe]; exact hnested, hentered⟩

/-- There is room for the code that the next statement begins. -/
def Point.HasRoom (r : Registry) (q : Point) : Prop :=
  ∀ s rest specifier, q.rest = s :: rest → s.requested = some specifier →
    (localRequire (Point.requiring r q.waiting) q.frame.module specifier q.world).1 ≠
      .error .tooDeep

/-- What does not run out of room on one side does not on the other. -/
theorem mapError_ne_tooDeep {α : Type} {result : Except RunFailure α}
    (h : result ≠ .error .tooDeep) : result.mapError Thrown.of ≠ .error .tooDeep := by
  intro heq
  cases result with
  | ok x => cases heq
  | error e =>
    cases e with
    | tooDeep => exact h rfl
    | _ => cases heq

theorem hasRoom_of_passes {w u : Loader.World} {v : World} {id : ModuleId} {waiting : List Frame}
    {f : Frame} {rest : List Statement} (h : r.Passes w id ⟨waiting, f, rest, u⟩)
    (hu : Matches r u v) : Point.HasRoom r ⟨waiting, f, rest, v⟩ := by
  intro s rest' specifier hrest hs
  cases hrest
  have hagrees : Agree r (f.requireSpecifier (Loader.Point.requiring r waiting) specifier u)
      (localRequire (Point.requiring r waiting) f.module specifier v) :=
    localRequire_agrees (requireWithin_agrees r _) hu specifier
  show (localRequire (Point.requiring r waiting) f.module specifier v).1 ≠ _
  rw [hagrees.result_eq]
  refine mapError_ne_tooDeep fun herror => ?_
  exact (h.require_explained hs (Prod.ext herror rfl)).ne_tooDeep rfl

/-! ## Sessions -/

namespace Session

/-- Makes a call. -/
def call (s : Session) : Call → Except Thrown ObjectId × Session
  | .run => s.run
  | .require id => s.require id

/-- Makes calls one after the other, whether they succeed or not. -/
def callAll (s : Session) (calls : List Call) : Session :=
  calls.foldl (fun s c => (s.call c).2) s

/-- A call passes a point. -/
def Passes (s : Session) (c : Call) (q : Point) : Prop :=
  Bundled.Passes s.registry s.world (c.target s.registry) q

theorem call_eq (s : Session) (c : Call) :
    s.call c = ((Bundled.require s.registry (c.target s.registry) s.world).1,
      { s with world := (Bundled.require s.registry (c.target s.registry) s.world).2 }) := by
  cases c <;> rfl

end Session

/-- The same registry, in worlds that match. -/
structure Session.Mirrors (there : Session) (here : Loader.Session) : Prop where
  registry_eq : there.registry = here.registry
  worlds : Matches here.registry here.world there.world

/-- A call is answered alike, and leaves sessions that mirror each other. -/
theorem Session.Mirrors.call {there : Session} {here : Loader.Session}
    (h : there.Mirrors here) (c : Call) :
    (there.call c).1 = ((here.call c).1.map (·.object)).mapError Thrown.of ∧
      (there.call c).2.Mirrors (here.call c).2 := by
  obtain ⟨hregistry, hworlds⟩ := h
  have hagrees := requireWithin_agrees here.registry (here.registry.modules.length + 1)
    (c.target here.registry) _ _ hworlds
  rw [Session.call_eq, hregistry, Loader.Session.call_object]
  refine ⟨hagrees.result_eq, ?_, ?_⟩
  · rw [Loader.Session.call_registry]
  · rw [Loader.Session.call_registry, Loader.Session.call_world]
    exact hagrees.worlds

theorem Session.Mirrors.callAll {there : Session} {here : Loader.Session}
    (h : there.Mirrors here) (calls : List Call) :
    (there.callAll calls).Mirrors (here.callAll calls) := by
  unfold Session.callAll Loader.Session.callAll
  induction calls generalizing there here with
  | nil => exact h
  | cons c rest ih => exact ih (h.call c).2

/-- Nor does the loader in a bundle run out of room in a call. -/
theorem Session.Mirrors.call_ne_tooDeep {there : Session} {here : Loader.Session}
    (h : there.Mirrors here) (c : Call) : (there.call c).1 ≠ .error .tooDeep := by
  rw [(h.call c).1]
  refine mapError_ne_tooDeep fun herror => ?_
  cases hresult : (here.call c).1 with
  | ok required =>
    rw [hresult] at herror
    cases herror
  | error e =>
    rw [hresult] at herror
    cases herror
    exact here.call_ne_tooDeep c hresult

/-- What a call passes here, it passes there. -/
theorem Session.Mirrors.passes_there {there : Session} {here : Loader.Session} {c : Call}
    {p : Loader.Point} (h : there.Mirrors here) (hp : here.Passes c p) :
    ∃ v, there.Passes c ⟨p.waiting, p.frame, p.rest, v⟩ ∧ Matches here.registry p.world v := by
  unfold Passes
  rw [h.registry_eq]
  exact passes_of_phased h.worlds hp

/-- What a call passes there, it passes here, and there is room for what comes next. -/
theorem Session.Mirrors.passes_here {there : Session} {here : Loader.Session} {c : Call}
    {q : Point} (h : there.Mirrors here) (hq : there.Passes c q) : q.HasRoom here.registry ∧
      ∃ w, here.Passes c ⟨q.waiting, q.frame, q.rest, w⟩ ∧ Matches here.registry w q.world := by
  unfold Passes at hq
  rw [h.registry_eq] at hq
  obtain ⟨w, hw, hmatches⟩ := passes_of_bundled h.worlds hq
  exact ⟨hasRoom_of_passes hw hmatches, w, hw, hmatches⟩

end Bundled

namespace Session

/-- The loader of a bundle with the registry, the objects and the executions of a session, that has
nothing in its cache. -/
def bundled (s : Session) : Bundled.Session :=
  ⟨s.registry, ⟨s.world.heap, [], s.world.log, s.world.started⟩⟩

theorem bundled_mirrors (s : Session) : s.bundled.Mirrors s.restart :=
  ⟨rfl, fun _ => rfl, rfl, ⟨rfl, fun _ => rfl⟩⟩

/-- Whatever calls they have answered, the two loaders have started the same executions and keep
the exports objects of the same modules; they answer a further call alike, and pass matching points
on the way.  Neither runs out of room. -/
theorem callAll_bundled (s : Session) (calls : List Call) (c : Call) :
    (s.bundled.callAll calls).Mirrors (s.restart.callAll calls) ∧
    ((s.bundled.callAll calls).call c).1 =
      (((s.restart.callAll calls).call c).1.map (·.object)).mapError Bundled.Thrown.of ∧
    ((s.bundled.callAll calls).call c).1 ≠ .error .tooDeep ∧
    (∀ p, (s.restart.callAll calls).Passes c p →
      ∃ v, (s.bundled.callAll calls).Passes c ⟨p.waiting, p.frame, p.rest, v⟩ ∧
        Bundled.Matches s.registry p.world v) ∧
    ∀ q, (s.bundled.callAll calls).Passes c q → q.HasRoom s.registry ∧
      ∃ w, (s.restart.callAll calls).Passes c ⟨q.waiting, q.frame, q.rest, w⟩ ∧
        Bundled.Matches s.registry w q.world := by
  have hmirrors := (bundled_mirrors s).callAll calls
  have hregistry : (s.restart.callAll calls).registry = s.registry :=
    callAll_registry s.restart calls
  rw [← hregistry]
  exact ⟨hmirrors, (hmirrors.call c).1, hmirrors.call_ne_tooDeep c,
    fun _ hp => hmirrors.passes_there hp, fun _ hq => hmirrors.passes_here hq⟩

/-- Two modules that require each other are run, and the call returns the exports object of the entry. -/
example :
    ((start ⟨.ofPath "x",
      [⟨.ofPath "x", [⟨"./y", .ofPath "y"⟩], [.require "./y" "y"]⟩,
        ⟨.ofPath "y", [⟨"./x", .ofPath "x"⟩], [.require "./x" "x"]⟩]⟩ []).bundled.call .run).1 = .ok 0 := by
  decide +kernel

end Session

end ModuleBundler.Loader
