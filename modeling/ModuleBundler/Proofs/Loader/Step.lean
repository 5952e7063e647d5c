import ModuleBundler.Loader.Run

/-!
# What a statement does to the loader

A statement defines names, assigns variables and writes lines, and all of that leaves the loader
alone (`World.SameLoader`): the phases of the modules and the executions started stay as they are,
and no exports object goes away.  Whatever else a statement does is done by the require in it.

* `Frame.step_of_target_none` — a statement that requires no module leaves the loader alone;
* `Frame.step_of_target` — one that requires a module (`Frame.target`) leaves it as the require
  does;
* `Frame.step_frame` — the execution goes on with at most one more object at a handle.
-/

namespace ModuleBundler.Loader

/-- The specifier that a statement requires. -/
def Statement.requested : Statement → Option String
  | .require specifier _ => some specifier
  | .attempt specifier _ => some specifier
  | _ => none

/-- The module that a statement of the running body requires. -/
def Frame.target (f : Frame) (s : Statement) : Option ModuleId :=
  s.requested.bind (targetOf f.module.imports)

/-! ## Worlds with the same loader -/

/-- The second world has the phases and the executions of the first, and at least its objects. -/
structure World.SameLoader (w v : World) : Prop where
  state_eq : v.state = w.state
  started_eq : v.started = w.started
  fresh_le : w.heap.fresh ≤ v.heap.fresh

namespace World.SameLoader

variable {u v w : World}

theorem refl (w : World) : w.SameLoader w := ⟨rfl, rfl, Nat.le_refl _⟩

theorem trans (h : u.SameLoader v) (h' : v.SameLoader w) : u.SameLoader w :=
  ⟨h'.state_eq.trans h.state_eq, h'.started_eq.trans h.started_eq,
    Nat.le_trans h.fresh_le h'.fresh_le⟩

theorem say (w : World) (line : String) : w.SameLoader (w.say line) := ⟨rfl, rfl, Nat.le_refl _⟩

theorem define (w : World) (o : ObjectId) (name : String) (slot : Slot) :
    w.SameLoader (w.define o name slot) := by
  refine ⟨rfl, rfl, Nat.le_of_eq ?_⟩
  show w.heap.objects.length = (w.heap.objects.modify o (Loader.define name slot)).length
  rw [List.length_modify]

theorem allocate (w : World) : w.SameLoader { w with heap := w.heap.allocate } := by
  refine ⟨rfl, rfl, ?_⟩
  show w.heap.objects.length ≤ (w.heap.objects ++ [[]]).length
  rw [List.length_append]
  exact Nat.le_add_right _ _

/-- Looking an object up at a handle can make one. -/
theorem object (f : Frame) (handle : String) (w : World) :
    w.SameLoader (f.object handle w).2 := by
  unfold Frame.object
  split
  · exact refl w
  · exact allocate w

end World.SameLoader

/-! ## Statements -/

namespace Frame

open World

variable {requiring : Requiring} {f f' : Frame} {w w' : World} {s : Statement}

theorem requireSpecifier_of_target_none (requiring : Requiring) {specifier : String}
    (h : targetOf f.module.imports specifier = none) (w : World) :
    f.requireSpecifier requiring specifier w = (.error (.unresolved f.module.id specifier), w) := by
  unfold requireSpecifier
  rw [h]

theorem requireSpecifier_of_target (requiring : Requiring) {specifier : String} {id : ModuleId}
    (h : targetOf f.module.imports specifier = some id) (w : World) :
    f.requireSpecifier requiring specifier w = requiring id w := by
  unfold requireSpecifier
  rw [h]

/-- A statement leaves the loader as the require in it does. -/
theorem step_of_requested (requiring : Requiring) (f : Frame) (w : World) {specifier : String}
    (h : s.requested = some specifier) :
    (f.requireSpecifier requiring specifier w).2.SameLoader (f.step requiring w s).2 := by
  cases s with
  | require other handle =>
    cases h
    unfold step
    dsimp only
    split <;> rename_i heq <;> rw [heq] <;> exact SameLoader.refl _
  | attempt other handle =>
    cases h
    unfold step
    dsimp only
    split <;> rename_i heq <;> rw [heq]
    · exact SameLoader.refl _
    · exact SameLoader.say _ _
  | _ => cases h

/-- A statement without a require leaves the loader alone. -/
theorem step_of_unrequested (requiring : Requiring) (f : Frame) (w : World)
    (h : s.requested = none) : w.SameLoader (f.step requiring w s).2 := by
  cases s with
  | require specifier handle => cases h
  | attempt specifier handle => cases h
  | set name value => exact SameLoader.define _ _ _ _
  | alter handle name value =>
    exact (SameLoader.object f handle w).trans (SameLoader.define _ _ _ _)
  | assign cell value => exact ⟨rfl, rfl, Nat.le_refl _⟩
  | getter name cell => exact SameLoader.define _ _ _ _
  | forward name handle key =>
    exact (SameLoader.object f handle w).trans (SameLoader.define _ _ _ _)
  | inspect name handle what =>
    exact (SameLoader.object f handle w).trans (SameLoader.define _ _ _ _)
  | same name first second =>
    exact ((SameLoader.object f first w).trans (SameLoader.object f second _)).trans
      (SameLoader.define _ _ _ _)
  | phase name id => exact SameLoader.define _ _ _ _
  | importer name => exact SameLoader.define _ _ _ _
  | log line => exact SameLoader.say _ _
  | throw message => exact SameLoader.refl _
  | throwFirst message times =>
    unfold step
    dsimp only
    split <;> exact SameLoader.refl _

/-- A statement that requires no module leaves the loader alone. -/
theorem step_of_target_none (requiring : Requiring) (w : World) (h : f.target s = none) :
    w.SameLoader (f.step requiring w s).2 := by
  cases hs : s.requested with
  | none => exact step_of_unrequested requiring f w hs
  | some specifier =>
    unfold target at h
    rw [hs, Option.bind_some] at h
    have hsame := step_of_requested requiring f w hs
    rw [requireSpecifier_of_target_none requiring h] at hsame
    exact hsame

/-- A statement that requires a module leaves the loader as the require does. -/
theorem step_of_target (requiring : Requiring) (w : World) {id : ModuleId}
    (h : f.target s = some id) : (requiring id w).2.SameLoader (f.step requiring w s).2 := by
  obtain ⟨specifier, hs, htarget⟩ := Option.bind_eq_some_iff.1 h
  have hsame := step_of_requested requiring f w hs
  rw [requireSpecifier_of_target requiring htarget] at hsame
  exact hsame

/-- A frame goes on as it is, or with one more object at a handle. -/
theorem step_frame (h : f.step requiring w s = (.ok f', w')) :
    f' = f ∨ ∃ handle o, f' = f.keep handle o := by
  have hsame : ∀ v : World, ((.ok f, v) : Except RunFailure Frame × World) = (.ok f', w') →
      f' = f ∨ ∃ handle o, f' = f.keep handle o :=
    fun v hv => Or.inl (Except.ok.inj (Prod.mk.inj hv).1).symm
  have hkept : ∀ handle o, ∀ v : World,
      ((.ok (f.keep handle o), v) : Except RunFailure Frame × World) = (.ok f', w') →
      f' = f ∨ ∃ handle o, f' = f.keep handle o :=
    fun handle o v hv => Or.inr ⟨handle, o, (Except.ok.inj (Prod.mk.inj hv).1).symm⟩
  cases s with
  | require specifier handle =>
    unfold step at h
    dsimp only at h
    split at h
    · exact hkept _ _ _ h
    · cases h
  | attempt specifier handle =>
    unfold step at h
    dsimp only at h
    split at h
    · exact hkept _ _ _ h
    · exact hsame _ h
  | throwFirst message times =>
    unfold step at h
    dsimp only at h
    split at h
    · cases h
    · exact hsame _ h
  | throw message => cases h
  | set name value => exact hsame _ h
  | alter handle name value => exact hsame _ h
  | assign cell value => exact hsame _ h
  | getter name cell => exact hsame _ h
  | forward name handle key => exact hsame _ h
  | inspect name handle what => exact hsame _ h
  | same name first second => exact hsame _ h
  | phase name id => exact hsame _ h
  | importer name => exact hsame _ h
  | log line => exact hsame _ h

/-- A frame goes on as the frame of the same module. -/
theorem step_module (h : f.step requiring w s = (.ok f', w')) : f'.module = f.module := by
  rcases step_frame h with rfl | ⟨handle, o, rfl⟩ <;> rfl

end Frame

end ModuleBundler.Loader
