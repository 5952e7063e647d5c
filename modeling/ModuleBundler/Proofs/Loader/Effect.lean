import ModuleBundler.Proofs.Loader.Event

/-!
# The effect of a require on the loader state

Failures unwind through modules that are half loaded, and bodies can catch them and go on; the
loader state shows nothing of that.  `Registry.Framed` says all that a require does to it: entries
stay as they are, and the new ones are of modules whose bodies have succeeded on the way, among them
the required module itself unless the require fails.

* `Registry.loaded_or_completed` — a module that is loaded was loaded before or has completed;
* `Registry.framed_requireWithin` — a require has no other effect, in whatever world it is made;
* **`Registry.require_framed`** — this holds of a require from outside and of those that the bodies
  make on the way.
-/

namespace ModuleBundler.Loader

open LoaderState

/-- What requiring the module `id` in the world `w` does to the loader state, given the answer and
what happens on the way. -/
structure Registry.Framed (r : Registry) (w : World) (id : ModuleId)
    (answer : Except RunFailure ObjectId × World) (events : List Event) : Prop where
  /-- Entries stay as they are. -/
  kept : ∀ other phase, w.state.phase? other = some phase →
    answer.2.state.phase? other = some phase
  /-- A new entry is of a module whose body has succeeded on the way. -/
  added : ∀ other phase, w.state.phase? other = none →
    answer.2.state.phase? other = some phase →
    ∃ o, phase = .loaded o ∧ Event.completed other o ∈ events
  /-- A module that cannot be required has no entry. -/
  failed : ∀ e, answer.1 = .error e → answer.2.state.phase? id = none
  /-- What is given is the exports object of the module, which is loaded, or was loading before and
  still is. -/
  given : ∀ o, answer.1 = .ok o →
    answer.2.state.phase? id = some (.loaded o) ∨
      w.state.phase? id = some (.loading o) ∧ answer.2.state.phase? id = some (.loading o)
  /-- Requiring a module that is not registered changes nothing. -/
  unknown : r.get? id = none → answer.2 = w
  /-- No module gets a second entry. -/
  keyed : w.state.Keyed → answer.2.state.Keyed

namespace Registry

variable {r : Registry}

/-- What is loaded was loaded before, or has completed. -/
theorem loaded_or_completed (r : Registry) (before : LoaderState) :
    r.Keeps fun es w => ∀ id o, w.state.phase? id = some (.loaded o) →
      before.phase? id = some (.loaded o) ∨ Event.completed id o ∈ es where
  same h hsame id o ho := by
    rw [hsame.state_eq] at ho
    exact h id o ho
  began {es w id m} h _ hm other o ho := by
    rw [enter_state hm, phase?_put] at ho
    split at ho
    · cases ho
    · exact (h other o ho).imp_right (List.mem_append_left _)
  completed {es w id o} h _ other o' ho := by
    rw [phase?_put] at ho
    split at ho
    · rename_i heq
      cases ho
      rw [heq]
      exact Or.inr (List.mem_append_right _ (List.mem_singleton_self _))
    · exact (h other o' ho).imp_right (List.mem_append_left _)
  failed h _ other o ho := by
    rw [phase?_erase] at ho
    split at ho
    · cases ho
    · exact (h other o ho).imp_right (List.mem_append_left _)
  gave h _ other o ho := (h other o ho).imp_right (List.mem_append_left _)

/-- A require does nothing else to the loader state, in whatever world it is made. -/
theorem framed_requireWithin (r : Registry) (n : Nat) (id : ModuleId) (w : World) :
    r.Framed w id (requireWithin r (n + 1) id w) (eventsWithin r (n + 1) id w) where
  kept other phase h := (requireWithin_grown r (n + 1) id w).phase?_eq h
  added other phase hnone hphase := by
    rcases requireWithin_grown r (n + 1) id w other with heq | ⟨-, o, ho⟩
    · rw [heq, hnone] at hphase
      cases hphase
    · have hstart : ∀ id o, w.state.phase? id = some (.loaded o) →
          w.state.phase? id = some (.loaded o) ∨ Event.completed id o ∈ [] :=
        fun _ _ => Or.inl
      have hend := (r.loaded_or_completed w.state).require (n + 1) [] id w hstart other o ho
      rw [hnone] at hend
      rw [ho] at hphase
      exact ⟨o, (Option.some.inj hphase).symm, hend.resolve_left (by simp)⟩
  failed e he := by
    rcases requireWithin_cases r n id w with ⟨phase, -, heq⟩ | ⟨hnone, -, heq⟩ |
      ⟨m, u, -, -, -, heq⟩ | ⟨m, e', u, -, -, -, heq⟩ <;> rw [heq] at he ⊢
    · cases he
    · exact hnone
    · cases he
    · show (u.state.erase id).phase? id = none
      rw [phase?_erase, if_pos rfl]
  given o ho := by
    rcases requireWithin_cases r n id w with ⟨phase, hphase, heq⟩ | ⟨-, -, heq⟩ |
      ⟨m, u, -, -, -, heq⟩ | ⟨m, e, u, -, -, -, heq⟩ <;> rw [heq] at ho ⊢ <;> cases ho
    · cases phase with
      | loading o => exact Or.inr ⟨hphase, hphase⟩
      | loaded o => exact Or.inl hphase
    · left
      show (u.state.put id _).phase? id = _
      rw [phase?_put, if_pos rfl]
  unknown hm := by
    cases hnone : w.state.phase? id with
    | some phase => rw [requireWithin_of_phase hnone]
    | none => rw [requireWithin_of_unknown hnone hm]
  keyed hw := requireWithin_keyed r (n + 1) id w hw

/-- A module that a require gives has a phase. -/
theorem Framed.phase?_isSome {w : World} {id : ModuleId}
    {answer : Except RunFailure ObjectId × World} {events : List Event} {o : ObjectId}
    (h : r.Framed w id answer events) (ho : answer.1 = .ok o) :
    (answer.2.state.phase? id).isSome := by
  rcases h.given o ho with hloaded | ⟨-, hloading⟩
  · rw [hloaded]
    rfl
  · rw [hloading]
    rfl

/-- Requiring a module does nothing to the loader state but add modules that have completed on the
way, and so does every require in the bodies that run for it; a specifier without a target changes
nothing at all. -/
theorem require_framed (r : Registry) (w : World) (id : ModuleId) :
    r.Framed w id (require r id w) (eventsWithin r (r.modules.length + 1) id w) ∧
      ∀ p s rest specifier, r.Passes w id p → p.rest = s :: rest →
        s.requested = some specifier →
        match targetOf p.frame.module.imports specifier with
        | none =>
          p.frame.requireSpecifier (Point.requiring r p.waiting) specifier p.world =
            (.error (.unresolved p.frame.module.id specifier), p.world)
        | some target =>
          r.Framed p.world target
            (p.frame.requireSpecifier (Point.requiring r p.waiting) specifier p.world)
            (Point.recording r p.waiting target p.world) := by
  refine ⟨r.framed_requireWithin r.modules.length id w, ?_⟩
  rintro ⟨waiting, f, rest', v⟩ s rest specifier hp - -
  cases htarget : targetOf f.module.imports specifier with
  | none => exact Frame.requireSpecifier_of_target_none _ htarget v
  | some target =>
    dsimp only
    rw [Frame.requireSpecifier_of_target _ htarget]
    unfold Point.requiring Point.recording
    rw [hp.room_eq]
    exact r.framed_requireWithin _ target v

/-- The module `main` requires `ok` and tries `bad`, which requires `leaf` and then fails. -/
def halfwayRegistry : Registry :=
  ⟨.ofPath "main",
    [⟨.ofPath "main", [⟨"./ok", .ofPath "ok"⟩, ⟨"./bad", .ofPath "bad"⟩],
        [.require "./ok" "ok", .attempt "./bad" "bad"]⟩,
      ⟨.ofPath "ok", [], []⟩,
      ⟨.ofPath "bad", [⟨"./leaf", .ofPath "leaf"⟩], [.require "./leaf" "leaf", .throw "broken"]⟩,
      ⟨.ofPath "leaf", [], []⟩]⟩

theorem halfwayRegistry_framed :
    ∃ p, halfwayRegistry.Passes .initial (.ofPath "main") p ∧
      p.rest = [.attempt "./bad" "bad"] ∧
      halfwayRegistry.Framed p.world (.ofPath "bad")
        (p.frame.requireSpecifier (Point.requiring halfwayRegistry p.waiting) "./bad" p.world)
        (Point.recording halfwayRegistry p.waiting (.ofPath "bad") p.world) ∧
      (p.frame.requireSpecifier (Point.requiring halfwayRegistry p.waiting) "./bad"
          p.world).2.state =
        [(.ofPath "main", .loading 0), (.ofPath "ok", .loaded 1), (.ofPath "leaf", .loaded 3)] := by
  have hmain : halfwayRegistry.Passes .initial (.ofPath "main") _ := .enter rfl rfl
  have hok := hmain.next rfl
  exact ⟨_, hok, rfl,
    (require_framed halfwayRegistry .initial (.ofPath "main")).2 _ _ [] _ hok rfl rfl, rfl⟩

end Registry

end ModuleBundler.Loader
