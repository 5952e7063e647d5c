import ModuleBundler.Proofs.Loader.Traversal

/-!
# Why requires fail

A require fails for one of three reasons (`Registry.Explains`): the specifier has no link, the
module that it means is not registered, or a body ends with a message.  If every specifier that a
body requires is linked to a registered module (`Registry.Linked`), only the last is left, wherever
the require is made.

* `Frame.step_error` — a statement fails with a message of its own, or as the require in it;
* `Registry.Passes.require_explained` — a require that a body makes fails for one of the three
  reasons, also when the failure is only logged; so there is always room for the bodies that run
  (`Registry.Explains.ne_tooDeep`);
* **`Registry.Passes.require_error`** — in a linked registry, it fails with the message of a body;
* `Session.call_error` — so does a call from outside, unless it names a module that is not
  registered.
-/

namespace ModuleBundler.Loader

/-- A body ended with a message. -/
def RunFailure.InBody (e : RunFailure) : Prop := ∃ id message, e = .execution id message

/-- What the bodies of a registry require is linked to registered modules. -/
def Registry.Linked (r : Registry) : Prop :=
  ∀ m ∈ r.modules, ∀ s ∈ m.body, ∀ specifier, s.requested = some specifier →
    ∃ target m', targetOf m.imports specifier = some target ∧ r.get? target = some m'

/-- A statement that fails has a message, or requires what cannot be required. -/
theorem Frame.step_error {requiring : Requiring} {f : Frame} {w w' : World} {s : Statement}
    {e : RunFailure} (h : f.step requiring w s = (.error e, w')) :
    e.InBody ∨ ∃ specifier, s.requested = some specifier ∧
      f.requireSpecifier requiring specifier w = (.error e, w') := by
  cases s with
  | require specifier handle =>
    right
    refine ⟨specifier, rfl, ?_⟩
    unfold step at h
    dsimp only at h
    split at h
    · cases h
    · rename_i heq
      cases h
      exact heq
  | attempt specifier handle =>
    unfold step at h
    dsimp only at h
    split at h <;> cases h
  | throw message =>
    cases h
    exact Or.inl ⟨_, _, rfl⟩
  | throwFirst message times =>
    unfold step at h
    dsimp only at h
    split at h
    · cases h
      exact Or.inl ⟨_, _, rfl⟩
    · cases h
  | _ => cases h

namespace Registry

/-- What a registry gives as a reason why a body cannot require a module. -/
inductive Explains (r : Registry) : RunFailure → Prop
  /-- A body ended with a message. -/
  | message (id : ModuleId) (message : String) : Explains r (.execution id message)
  /-- A body requires a specifier that has no link. -/
  | unlinked {m : Registered} {s : Statement} {specifier : String} : m ∈ r.modules → s ∈ m.body →
      s.requested = some specifier → targetOf m.imports specifier = none →
      Explains r (.unresolved m.id specifier)
  /-- A body requires a specifier whose module is not registered. -/
  | unregistered {m : Registered} {s : Statement} {specifier : String} {target : ModuleId} :
      m ∈ r.modules → s ∈ m.body → s.requested = some specifier →
      targetOf m.imports specifier = some target → r.get? target = none →
      Explains r (.unknownModule target)

variable {r : Registry} {w w' : World} {id : ModuleId} {e : RunFailure}

theorem Explains.ne_tooDeep (h : r.Explains e) : e ≠ .tooDeep := by
  cases h <;> exact RunFailure.noConfusion

/-- In a linked registry only the bodies are a reason. -/
theorem Linked.inBody (hr : r.Linked) (h : r.Explains e) : e.InBody := by
  cases h with
  | message id message => exact ⟨id, message, rfl⟩
  | unlinked hm hs hspecifier hnone =>
    obtain ⟨target, m', htarget, -⟩ := hr _ hm _ hs _ hspecifier
    rw [hnone] at htarget
    cases htarget
  | unregistered hm hs hspecifier htarget hnone =>
    obtain ⟨target, m', htarget', hm'⟩ := hr _ hm _ hs _ hspecifier
    rw [htarget, Option.some.injEq] at htarget'
    rw [← htarget', hnone] at hm'
    cases hm'

/-- A require that a body makes fails for a reason that the registry gives. -/
theorem Passes.require_explained {waiting : List Frame} {f : Frame} {s : Statement}
    {rest : List Statement} {v v' : World} {specifier : String}
    (h : r.Passes w id ⟨waiting, f, s :: rest, v⟩) (hs : s.requested = some specifier)
    (herror : f.requireSpecifier (Point.requiring r waiting) specifier v = (.error e, v')) :
    r.Explains e := by
  -- the induction is on how many more bodies can wait
  generalize hroom : r.modules.length - waiting.length = room
  induction room using Nat.strong_induction_on generalizing waiting f s rest v v' specifier with
  | _ room ih =>
    obtain ⟨passed, hbody, -⟩ := h.required
    have hmem : s ∈ f.module.body := by
      rw [show f.module.body = passed ++ s :: rest from hbody]
      exact List.mem_append_right passed List.mem_cons_self
    cases htarget : targetOf f.module.imports specifier with
    | none =>
      rw [Frame.requireSpecifier_of_target_none _ htarget] at herror
      cases herror
      exact .unlinked h.module_mem hmem hs htarget
    | some target =>
      rw [Frame.requireSpecifier_of_target _ htarget, h.requiring_eq] at herror
      rcases requireWithin_cases r (r.modules.length - (f :: waiting).length) target v with
        ⟨phase, -, heq⟩ | ⟨-, hm, heq⟩ | ⟨m, u, -, -, -, heq⟩ | ⟨m, e', u, hnone, hm, hrun, heq⟩ <;>
        rw [heq] at herror <;> cases herror
      · exact .unregistered h.module_mem hmem hs htarget hm
      · obtain ⟨f', s', rest', u', hpoint, hstep⟩ :=
          (h.nested hs htarget hnone hm).run_error hrun
        rcases Frame.step_error hstep with ⟨inner, message, rfl⟩ | ⟨specifier', hs', herror'⟩
        · exact .message inner message
        · have hless : r.modules.length - (f :: waiting).length < room := by
            rw [← hroom, h.room_eq]
            exact Nat.lt_succ_self _
          exact ih _ hless hpoint hs' herror' rfl

/-- A require that a body makes fails only with the message of a body. -/
theorem Passes.require_error (hr : r.Linked) {waiting : List Frame} {f : Frame} {s : Statement}
    {rest : List Statement} {v v' : World} {specifier : String}
    (h : r.Passes w id ⟨waiting, f, s :: rest, v⟩) (hs : s.requested = some specifier)
    (herror : f.requireSpecifier (Point.requiring r waiting) specifier v = (.error e, v')) :
    e.InBody := hr.inBody (h.require_explained hs herror)

/-- A require from outside fails for a reason that the registry gives, unless the module is not
registered. -/
theorem explains_of_require (h : Loader.require r id w = (.error e, w')) :
    r.Explains e ∨ e = .unknownModule id ∧ r.get? id = none := by
  unfold Loader.require at h
  rcases requireWithin_cases r r.modules.length id w with ⟨phase, -, heq⟩ | ⟨-, hm, heq⟩ |
    ⟨m, u, -, -, -, heq⟩ | ⟨m, e', u, hnone, hm, hrun, heq⟩ <;> rw [heq] at h <;> cases h
  · exact Or.inr ⟨rfl, hm⟩
  · left
    have hentered : r.Passes w id _ := .enter hnone hm
    obtain ⟨f', s', rest', u', hpoint, hstep⟩ := hentered.run_error hrun
    rcases Frame.step_error hstep with ⟨inner, message, rfl⟩ | ⟨specifier, hs, herror⟩
    · exact .message inner message
    · exact hpoint.require_explained hs herror

/-- A require from outside fails with the message of a body, unless the module is not registered. -/
theorem Linked.require_error (hr : r.Linked) (h : Loader.require r id w = (.error e, w')) :
    e.InBody ∨ e = .unknownModule id ∧ r.get? id = none :=
  (explains_of_require h).imp_left hr.inBody

end Registry

namespace Session

/-- A call fails with the message of a body, unless it names a module that is not registered. -/
theorem call_error {s : Session} (hr : s.registry.Linked) {c : Call} {e : RunFailure}
    (h : (s.call c).1 = .error e) :
    e.InBody ∨ e = .unknownModule (c.target s.registry) ∧
      s.registry.get? (c.target s.registry) = none := by
  have hobject := call_object s c
  rw [h] at hobject
  have hrefused : Loader.require s.registry (c.target s.registry) s.world =
      (.error e, (Loader.require s.registry (c.target s.registry) s.world).2) :=
    Prod.ext hobject.symm rfl
  exact hr.require_error hrefused

end Session

end ModuleBundler.Loader
