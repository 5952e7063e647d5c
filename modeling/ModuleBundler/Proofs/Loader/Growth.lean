import ModuleBundler.Proofs.Loader.State
import ModuleBundler.Proofs.Loader.Step

/-!
# Requiring lets the loader state grow

A statement that requires nothing leaves the loader state alone (`Frame.step_state`), so what a body
does to it is what the requires in it do, one after the other (`Frame.run_related`).  A require
puts its module into the phase `loading` and takes it out again when the body is done
(`requireWithin_cases`), so all in all:

* `requireWithin_grown` — a require keeps every entry, and what it adds is loaded, whether it
  succeeds or not;
* `requireWithin_keyed` — and it makes no second entry for a module.
-/

namespace ModuleBundler.Loader

/-! ## Statements -/

namespace Frame

/-- A statement leaves the loader state alone, or does to it what requiring a module does. -/
theorem step_state (requiring : Requiring) (f : Frame) (w : World) (s : Statement) :
    (f.step requiring w s).2.state = w.state ∨
      ∃ target, (f.step requiring w s).2.state = (requiring target w).2.state := by
  cases h : f.target s with
  | none => exact Or.inl (step_of_target_none requiring w h).state_eq
  | some id => exact Or.inr ⟨id, (step_of_target requiring w h).state_eq⟩

/-- What relates the worlds before and after each statement relates those before and after a
body. -/
theorem run_related {R : World → World → Prop} (hrefl : ∀ w, R w w)
    (htrans : ∀ {u v w}, R u v → R v w → R u w) {requiring : Requiring}
    (hstep : ∀ (f : Frame) w s, R w (f.step requiring w s).2) (f : Frame)
    (body : List Statement) (w : World) : R w (f.run requiring body w).2 := by
  induction body generalizing f w with
  | nil => exact hrefl w
  | cons s rest ih =>
    have hfirst := hstep f w s
    unfold run
    split <;> rename_i heq <;> rw [heq] at hfirst
    · exact htrans hfirst (ih _ _)
    · exact hfirst

end Frame

/-! ## Requires -/

open LoaderState

theorem Registry.mem_of_get? {r : Registry} {id : ModuleId} {m : Registered}
    (h : r.get? id = some m) : m ∈ r.modules := List.mem_of_find?_eq_some h

theorem Registry.id_of_get? {r : Registry} {id : ModuleId} {m : Registered}
    (h : r.get? id = some m) : m.id = id := by
  unfold get? at h
  simpa using List.find?_some h

section Answers

variable {r : Registry} {n : Nat} {id : ModuleId} {m : Registered} {w u : World}

/-- A module that has a phase gives its exports. -/
theorem requireWithin_of_phase {phase : Phase} (h : w.state.phase? id = some phase) :
    requireWithin r (n + 1) id w = (.ok phase.exports, w) := by
  unfold requireWithin
  rw [h]

theorem requireWithin_of_unknown (hnone : w.state.phase? id = none) (hm : r.get? id = none) :
    requireWithin r (n + 1) id w = (.error (.unknownModule id), w) := by
  unfold requireWithin
  rw [hnone]
  dsimp only
  rw [hm]

/-- A module whose body succeeds is loaded. -/
theorem requireWithin_of_run_ok (hnone : w.state.phase? id = none) (hm : r.get? id = some m)
    (hrun : (w.enter m).1.run (requireWithin r n) m.body (w.enter m).2 = (.ok (), u)) :
    requireWithin r (n + 1) id w = (.ok (w.enter m).1.exports,
      { u with state := u.state.put id (.loaded (w.enter m).1.exports) }) := by
  rw [requireWithin, hnone]
  simp only [hm, hrun]

/-- A module whose body fails is forgotten. -/
theorem requireWithin_of_run_error {e : RunFailure} (hnone : w.state.phase? id = none)
    (hm : r.get? id = some m)
    (hrun : (w.enter m).1.run (requireWithin r n) m.body (w.enter m).2 = (.error e, u)) :
    requireWithin r (n + 1) id w = (.error e, { u with state := u.state.erase id }) := by
  rw [requireWithin, hnone]
  simp only [hm, hrun]

/-- What a require can do. -/
theorem requireWithin_cases (r : Registry) (n : Nat) (id : ModuleId) (w : World) :
    (∃ phase, w.state.phase? id = some phase ∧
      requireWithin r (n + 1) id w = (.ok phase.exports, w)) ∨
    (w.state.phase? id = none ∧ r.get? id = none ∧
      requireWithin r (n + 1) id w = (.error (.unknownModule id), w)) ∨
    (∃ m u, w.state.phase? id = none ∧ r.get? id = some m ∧
      (w.enter m).1.run (requireWithin r n) m.body (w.enter m).2 = (.ok (), u) ∧
      requireWithin r (n + 1) id w = (.ok (w.enter m).1.exports,
        { u with state := u.state.put id (.loaded (w.enter m).1.exports) })) ∨
    (∃ m e u, w.state.phase? id = none ∧ r.get? id = some m ∧
      (w.enter m).1.run (requireWithin r n) m.body (w.enter m).2 = (.error e, u) ∧
      requireWithin r (n + 1) id w = (.error e, { u with state := u.state.erase id })) := by
  cases hnone : w.state.phase? id with
  | some phase => exact Or.inl ⟨phase, rfl, requireWithin_of_phase hnone⟩
  | none =>
    cases hm : r.get? id with
    | none => exact Or.inr (Or.inl ⟨rfl, rfl, requireWithin_of_unknown hnone hm⟩)
    | some m =>
      rcases hrun : (w.enter m).1.run (requireWithin r n) m.body (w.enter m).2 with ⟨e | _, u⟩
      · exact Or.inr (Or.inr (Or.inr
          ⟨m, e, u, rfl, rfl, hrun, requireWithin_of_run_error hnone hm hrun⟩))
      · exact Or.inr (Or.inr (Or.inl
          ⟨m, u, rfl, rfl, hrun, requireWithin_of_run_ok hnone hm hrun⟩))

end Answers

/-- A statement lets the loader state grow if requiring does. -/
theorem Frame.step_grown {requiring : Requiring}
    (h : ∀ id (w : World), w.state.Grown (requiring id w).2.state) (f : Frame) (w : World)
    (s : Statement) : w.state.Grown (f.step requiring w s).2.state := by
  rcases f.step_state requiring w s with heq | ⟨target, heq⟩
  · rw [heq]
    exact Grown.refl _
  · rw [heq]
    exact h target w

/-- And so does a body. -/
theorem Frame.run_grown {requiring : Requiring}
    (h : ∀ id (w : World), w.state.Grown (requiring id w).2.state) (f : Frame)
    (body : List Statement) (w : World) : w.state.Grown (f.run requiring body w).2.state :=
  Frame.run_related (R := fun v w => v.state.Grown w.state) (fun _ => Grown.refl _)
    Grown.trans (Frame.step_grown h) f body w

theorem enter_state {r : Registry} {id : ModuleId} {m : Registered} {w : World}
    (h : r.get? id = some m) :
    (w.enter m).2.state = w.state.put id (.loading (w.enter m).1.exports) := by
  rw [← Registry.id_of_get? h]
  rfl

/-- A require keeps every entry of the loader state, and what it adds is loaded. -/
theorem requireWithin_grown (r : Registry) (n : Nat) (id : ModuleId) (w : World) :
    w.state.Grown (requireWithin r n id w).2.state := by
  induction n generalizing id w with
  | zero => exact Grown.refl _
  | succ n ih =>
    rcases requireWithin_cases r n id w with ⟨phase, -, heq⟩ | ⟨-, -, heq⟩ |
      ⟨m, u, hnone, hm, hbody, heq⟩ | ⟨m, e, u, hnone, hm, hbody, heq⟩ <;> rw [heq]
    · exact Grown.refl _
    · exact Grown.refl _
    · have hrun := Frame.run_grown ih (w.enter m).1 m.body (w.enter m).2
      rw [hbody, enter_state hm] at hrun
      exact Grown.put_loaded hnone hrun
    · have hrun := Frame.run_grown ih (w.enter m).1 m.body (w.enter m).2
      rw [hbody, enter_state hm] at hrun
      exact Grown.erase hnone hrun

/-- A module is loading until its body is done. -/
theorem loading_of_run {r : Registry} {id : ModuleId} {m : Registered} {w : World}
    (hm : r.get? id = some m) (n : Nat) :
    ((w.enter m).1.run (requireWithin r n) m.body (w.enter m).2).2.state.phase? id =
      some (.loading (w.enter m).1.exports) := by
  have hloading : (w.enter m).2.state.phase? id = some (.loading (w.enter m).1.exports) := by
    rw [enter_state hm, phase?_put, if_pos rfl]
  exact (Frame.run_grown (requireWithin_grown r n) _ _ _).phase?_eq hloading

theorem Frame.run_keyed {requiring : Requiring}
    (h : ∀ id (w : World), w.state.Keyed → (requiring id w).2.state.Keyed) (f : Frame)
    (body : List Statement) (w : World) :
    w.state.Keyed → (f.run requiring body w).2.state.Keyed := by
  refine Frame.run_related (R := fun v w => v.state.Keyed → w.state.Keyed) (fun _ => id)
    (fun h h' => h' ∘ h) ?_ f body w
  intro f w s hw
  rcases f.step_state requiring w s with heq | ⟨target, heq⟩
  · rw [heq]
    exact hw
  · rw [heq]
    exact h target w hw

/-- A require makes no second entry for a module. -/
theorem requireWithin_keyed (r : Registry) (n : Nat) (id : ModuleId) (w : World)
    (hw : w.state.Keyed) : (requireWithin r n id w).2.state.Keyed := by
  induction n generalizing id w with
  | zero => exact hw
  | succ n ih =>
    rcases requireWithin_cases r n id w with ⟨phase, -, heq⟩ | ⟨-, -, heq⟩ |
      ⟨m, u, -, -, hbody, heq⟩ | ⟨m, e, u, -, -, hbody, heq⟩ <;> rw [heq]
    · exact hw
    · exact hw
    · have hrun := Frame.run_keyed ih (w.enter m).1 m.body (w.enter m).2 (hw.put m.id _)
      rw [hbody] at hrun
      exact hrun.put id _
    · have hrun := Frame.run_keyed ih (w.enter m).1 m.body (w.enter m).2 (hw.put m.id _)
      rw [hbody] at hrun
      exact hrun.erase id

end ModuleBundler.Loader
