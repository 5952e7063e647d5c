import Mathlib.Data.List.Induction
import ModuleBundler.Proofs.Loader.Event

/-!
# Which object a require gives

An execution of a body fills one exports object, and a require gives the object of the execution
that has begun and not failed (`currentObject`).  So the record of a loader is `Regular`: a body
begins only when no execution of it is current, with an object newer than all before, and what is
given is current.

Regular records have the shape of epochs, one for each execution:

* `Regular.same_of_gave` — two requires of a module give one object exactly if no execution of it
  failed between them;
* `Regular.module_of_gave` — an object is given for one module only;
* `Regular.count_begun` — executions have begun as often as they have failed, and once more if one
  is current;
* **`Session.moment_accounted`** — all of this holds at every moment in the use of a loader.
-/

namespace ModuleBundler.Loader

open LoaderState

/-! ## Regular records -/

/-- The exports object of the execution of a module that has begun and not failed. -/
def currentObject (id : ModuleId) (es : List Event) : Option ObjectId :=
  es.foldl (fun now e =>
    match e with
    | .began a o => if a = id then some o else now
    | .failed a => if a = id then none else now
    | _ => now) none

section CurrentObject

variable {id a : ModuleId} {o : ObjectId} {es later : List Event}

theorem currentObject_began (es : List Event) (id a : ModuleId) (o : ObjectId) :
    currentObject id (es ++ [.began a o]) = if a = id then some o else currentObject id es := by
  unfold currentObject
  rw [List.foldl_append]
  rfl

theorem currentObject_failed (es : List Event) (id a : ModuleId) :
    currentObject id (es ++ [.failed a]) = if a = id then none else currentObject id es := by
  unfold currentObject
  rw [List.foldl_append]
  rfl

theorem currentObject_completed (es : List Event) (id a : ModuleId) (o : ObjectId) :
    currentObject id (es ++ [.completed a o]) = currentObject id es := by
  unfold currentObject
  rw [List.foldl_append]
  rfl

theorem currentObject_gave (es : List Event) (id a : ModuleId) (o : ObjectId) :
    currentObject id (es ++ [.gave a o]) = currentObject id es := by
  unfold currentObject
  rw [List.foldl_append]
  rfl

/-- The current object of a module is that of an execution. -/
theorem began_of_current (h : currentObject id es = some o) : Event.began id o ∈ es := by
  induction es using List.reverseRecOn with
  | nil => cases h
  | append_singleton es e ih =>
    cases e with
    | began a o' =>
      rw [currentObject_began] at h
      split at h
      · rename_i heq
        cases h
        rw [heq]
        exact List.mem_append_right _ (List.mem_singleton_self _)
      · exact List.mem_append_left _ (ih h)
    | failed a =>
      rw [currentObject_failed] at h
      split at h
      · cases h
      · exact List.mem_append_left _ (ih h)
    | completed a o' =>
      rw [currentObject_completed] at h
      exact List.mem_append_left _ (ih h)
    | gave a o' =>
      rw [currentObject_gave] at h
      exact List.mem_append_left _ (ih h)

/-- After a failure, the current object is that of an execution that has begun since. -/
theorem began_of_failed (hfailed : Event.failed id ∈ later)
    (h : currentObject id (es ++ later) = some o) : Event.began id o ∈ later := by
  induction later using List.reverseRecOn with
  | nil => cases hfailed
  | append_singleton later e ih =>
    have hbefore : e ≠ .failed id → Event.failed id ∈ later := by
      intro hne
      rcases List.mem_append.1 hfailed with hmem | hmem
      · exact hmem
      · exact absurd (List.mem_singleton.1 hmem).symm hne
    rw [← List.append_assoc] at h
    cases e with
    | began a o' =>
      rw [currentObject_began] at h
      split at h
      · rename_i heq
        cases h
        rw [heq]
        exact List.mem_append_right _ (List.mem_singleton_self _)
      · exact List.mem_append_left _ (ih (hbefore (by simp)) h)
    | failed a =>
      rw [currentObject_failed] at h
      split at h
      · cases h
      · rename_i hne
        exact List.mem_append_left _ (ih (hbefore (by simpa using hne)) h)
    | completed a o' =>
      rw [currentObject_completed] at h
      exact List.mem_append_left _ (ih (hbefore (by simp)) h)
    | gave a o' =>
      rw [currentObject_gave] at h
      exact List.mem_append_left _ (ih (hbefore (by simp)) h)

end CurrentObject

/-- The modules of the executions that have begun. -/
def begunModules (es : List Event) : List ModuleId :=
  es.filterMap fun e =>
    match e with
    | .began id _ => some id
    | _ => none

theorem begunModules_began (es : List Event) (id : ModuleId) (o : ObjectId) :
    begunModules (es ++ [.began id o]) = begunModules es ++ [id] := List.filterMap_append

/-- All other events are no beginnings. -/
theorem begunModules_concat (es : List Event) {e : Event} (h : ∀ id o, e ≠ .began id o) :
    begunModules (es ++ [e]) = begunModules es := by
  unfold begunModules
  rw [List.filterMap_append]
  cases e with
  | began id o => exact absurd rfl (h id o)
  | completed id o => exact List.append_nil _
  | failed id => exact List.append_nil _
  | gave id o => exact List.append_nil _

/-- An event can follow others. -/
def Admits (es : List Event) : Event → Prop
  | .began id o => currentObject id es = none ∧ ∀ a o', Event.began a o' ∈ es → o' < o
  | .completed id o => currentObject id es = some o
  | .failed id => ∃ o, currentObject id es = some o
  | .gave id o => currentObject id es = some o

/-- Each event can follow those before it. -/
def Regular (es : List Event) : Prop := ∀ before e, before ++ [e] <+: es → Admits before e

namespace Regular

variable {es before later : List Event} {e : Event} {id a b : ModuleId} {o o' : ObjectId}

theorem nil : Regular [] := by
  intro before e hpre
  exact absurd (List.prefix_nil.1 hpre) (List.append_ne_nil_of_right_ne_nil _ (by simp))

theorem concat (h : Regular es) (he : Admits es e) : Regular (es ++ [e]) := by
  intro before e' hpre
  rcases List.prefix_concat_iff.1 hpre with heq | hpre
  · obtain ⟨rfl, hlast⟩ := List.append_inj' heq rfl
    rw [(List.cons.inj hlast).1]
    exact he
  · exact h before e' hpre

theorem of_prefix (h : Regular es) (hpre : before <+: es) : Regular before :=
  fun earlier e hearlier => h earlier e (hearlier.trans hpre)

theorem of_concat (h : Regular (es ++ [e])) : Regular es ∧ Admits es e :=
  ⟨h.of_prefix (List.prefix_append _ _), h es e (List.prefix_refl _)⟩

/-- What is current stays so until it fails. -/
theorem current_append (h : Regular (es ++ later)) (hcurrent : currentObject id es = some o)
    (hfailed : Event.failed id ∉ later) : currentObject id (es ++ later) = some o := by
  induction later using List.reverseRecOn with
  | nil =>
    rw [List.append_nil]
    exact hcurrent
  | append_singleton later e ih =>
    rw [← List.append_assoc] at h ⊢
    have hstill := ih h.of_concat.1 fun hmem => hfailed (List.mem_append_left _ hmem)
    have hadmits := h.of_concat.2
    cases e with
    | began a o' =>
      rw [currentObject_began]
      split
      · -- nothing begins while it is current
        rename_i heq
        rw [heq] at hadmits
        rw [hadmits.1] at hstill
        cases hstill
      · exact hstill
    | failed a =>
      rw [currentObject_failed]
      split
      · rename_i heq
        rw [heq] at hfailed
        exact absurd (List.mem_append_right _ (List.mem_singleton_self _)) hfailed
      · exact hstill
    | completed a o' =>
      rw [currentObject_completed]
      exact hstill
    | gave a o' =>
      rw [currentObject_gave]
      exact hstill

/-- Later executions have newer objects. -/
theorem began_lt (h : Regular (es ++ later)) (ha : Event.began a o ∈ es)
    (hb : Event.began b o' ∈ later) : o < o' := by
  obtain ⟨earlier, rest, rfl⟩ := List.append_of_mem hb
  have hpre : (es ++ earlier) ++ [Event.began b o'] <+:
      es ++ (earlier ++ Event.began b o' :: rest) :=
    ⟨rest, by simp only [List.append_assoc, List.cons_append, List.nil_append]⟩
  exact (h _ _ hpre).2 a o (List.mem_append_left _ ha)

/-- An object is filled by one execution. -/
theorem module_of_began (h : Regular es) (ha : Event.began a o ∈ es)
    (hb : Event.began b o ∈ es) : a = b := by
  obtain ⟨earlier, rest, rfl⟩ := List.append_of_mem hb
  rcases List.mem_append.1 ha with ha | ha
  · exact absurd (h.began_lt ha List.mem_cons_self) (Nat.lt_irrefl o)
  · rcases List.mem_cons.1 ha with heq | ha
    · cases heq
      rfl
    · rw [List.append_cons] at h
      exact absurd (h.began_lt (List.mem_append_right _ (List.mem_singleton_self _)) ha)
        (Nat.lt_irrefl o)

/-- What is given is current. -/
theorem current_of_gave (h : Regular (before ++ Event.gave id o :: later)) :
    currentObject id before = some o :=
  h before (.gave id o) ⟨later, by simp only [List.append_assoc, List.cons_append, List.nil_append]⟩

/-- An object is given for one module only. -/
theorem module_of_gave (h : Regular es) (ha : Event.gave a o ∈ es) (hb : Event.gave b o ∈ es) :
    a = b := by
  have hbegan : ∀ id, Event.gave id o ∈ es → Event.began id o ∈ es := by
    intro id hmem
    obtain ⟨earlier, rest, rfl⟩ := List.append_of_mem hmem
    exact List.mem_append_left _ (began_of_current h.current_of_gave)
  exact h.module_of_began (hbegan a ha) (hbegan b hb)

/-- What is current stays so exactly until it fails. -/
theorem current_iff (h : Regular (es ++ later)) (hcurrent : currentObject id es = some o) :
    currentObject id (es ++ later) = some o ↔ Event.failed id ∉ later := by
  constructor
  · intro hstill hfailed
    -- a failure would make room for a newer object
    exact absurd (h.began_lt (began_of_current hcurrent) (began_of_failed hfailed hstill))
      (Nat.lt_irrefl o)
  · exact h.current_append hcurrent

/-- Two requires of a module give one object exactly if no execution of it fails between them. -/
theorem same_of_gave {between : List Event}
    (h : Regular (before ++ Event.gave id o :: between ++ Event.gave id o' :: later)) :
    o = o' ↔ Event.failed id ∉ between := by
  have hfirst : currentObject id (before ++ [Event.gave id o]) = some o := by
    rw [currentObject_gave]
    rw [List.append_assoc] at h
    exact h.current_of_gave
  have hlast : currentObject id ((before ++ [Event.gave id o]) ++ between) = some o' := by
    rw [List.append_assoc, List.singleton_append]
    exact h.current_of_gave
  have hregular : Regular ((before ++ [Event.gave id o]) ++ between) := by
    rw [List.append_assoc, List.singleton_append]
    exact h.of_prefix (List.prefix_append _ _)
  rw [← hregular.current_iff hfirst, hlast, Option.some.injEq]
  exact eq_comm

/-- Executions have begun as often as they have failed, and once more if one is current. -/
theorem count_begun (h : Regular es) (id : ModuleId) :
    (begunModules es).count id =
      es.count (.failed id) + if (currentObject id es).isSome then 1 else 0 := by
  induction es using List.reverseRecOn with
  | nil => rfl
  | append_singleton es e ih =>
    obtain ⟨hes, hadmits⟩ := h.of_concat
    have hbefore := ih hes
    rw [List.count_append]
    cases e with
    | began a o =>
      rw [currentObject_began, begunModules_began, List.count_append, hbefore]
      by_cases heq : a = id
      · rw [heq] at hadmits
        simp [hadmits.1, heq]
      · simp [heq]
    | failed a =>
      rw [currentObject_failed, begunModules_concat es (by simp), hbefore]
      by_cases heq : a = id
      · obtain ⟨o, ho⟩ := hadmits
        rw [heq] at ho
        simp [ho, heq]
      · simp [heq]
    | completed a o =>
      rw [currentObject_completed, begunModules_concat es (by simp), hbefore]
      simp
    | gave a o =>
      rw [currentObject_gave, begunModules_concat es (by simp), hbefore]
      simp

end Regular

/-! ## The record of a loader -/

/-- The events agree with the world in which they have left a loader that had started the executions
`before`. -/
structure Accounted (before : List ModuleId) (es : List Event) (w : World) : Prop where
  regular : Regular es
  current_eq : ∀ id, currentObject id es = (w.state.phase? id).map Phase.exports
  object_lt : ∀ id o, Event.began id o ∈ es → o < w.heap.fresh
  started_eq : w.started = before ++ begunModules es

namespace Accounted

variable {before : List ModuleId} {es : List Event} {w v : World} {id : ModuleId} {phase : Phase}

theorem current_of_phase (h : Accounted before es w) (hphase : w.state.phase? id = some phase) :
    currentObject id es = some phase.exports := by
  rw [h.current_eq, hphase]
  rfl

/-- An event other than a beginning leaves the objects and the started executions as they are. -/
theorem concat (h : Accounted before es w) {e : Event} (hbegan : ∀ id o, e ≠ .began id o)
    (he : Admits es e) (hheap : v.heap = w.heap) (hstarted : v.started = w.started)
    (hcurrent : ∀ id, currentObject id (es ++ [e]) = (v.state.phase? id).map Phase.exports) :
    Accounted before (es ++ [e]) v := by
  refine ⟨h.regular.concat he, hcurrent, ?_, ?_⟩
  · intro id o ho
    have hearlier : Event.began id o ∈ es := (List.mem_append.1 ho).resolve_right
      fun hlast => hbegan id o (List.mem_singleton.1 hlast).symm
    rw [hheap]
    exact h.object_lt id o hearlier
  · rw [hstarted, h.started_eq, begunModules_concat es hbegan]

end Accounted

theorem keeps_accounted (r : Registry) (before : List ModuleId) :
    r.Keeps (Accounted before) where
  same h hsame := by
    refine ⟨h.regular, ?_, ?_, ?_⟩
    · rw [hsame.state_eq]
      exact h.current_eq
    · exact fun id o ho => Nat.lt_of_lt_of_le (h.object_lt id o ho) hsame.fresh_le
    · rw [hsame.started_eq]
      exact h.started_eq
  began {es w id m} h hnone hm := by
    have hcurrent : currentObject id es = none := by
      rw [h.current_eq, hnone]
      rfl
    refine ⟨h.regular.concat ⟨hcurrent, h.object_lt⟩, ?_, ?_, ?_⟩
    · intro other
      rw [currentObject_began, enter_state hm, phase?_put, h.current_eq]
      by_cases heq : id = other
      · rw [if_pos heq, if_pos heq.symm]
        rfl
      · rw [if_neg heq, if_neg (Ne.symm heq)]
    · intro other o ho
      show o < (w.heap.objects ++ [[]]).length
      rw [List.length_append]
      rcases List.mem_append.1 ho with ho | ho
      · exact Nat.lt_add_right _ (h.object_lt other o ho)
      · cases List.mem_singleton.1 ho
        exact Nat.lt_succ_self _
    · show w.started ++ [m.id] = _
      rw [h.started_eq, begunModules_began, List.append_assoc, Registry.id_of_get? hm]
  completed {es w id o} h hloading := by
    have hcurrent := h.current_of_phase hloading
    refine h.concat (by simp) hcurrent rfl rfl fun other => ?_
    rw [currentObject_completed, phase?_put]
    by_cases heq : other = id
    · rw [if_pos heq, heq]
      exact hcurrent
    · rw [if_neg heq]
      exact h.current_eq other
  failed {es w id o} h hloading := by
    refine h.concat (by simp) ⟨o, h.current_of_phase hloading⟩ rfl rfl fun other => ?_
    rw [currentObject_failed, phase?_erase]
    by_cases heq : other = id
    · rw [if_pos heq, if_pos heq.symm]
      rfl
    · rw [if_neg heq, if_neg (Ne.symm heq)]
      exact h.current_eq other
  gave {es w id phase} h hphase := by
    refine h.concat (by simp) (h.current_of_phase hphase) rfl rfl fun other => ?_
    rw [currentObject_gave]
    exact h.current_eq other

namespace Session

/-- Nothing has happened in a new loader. -/
theorem accounted_restart (s : Session) : Accounted s.world.started [] s.restart.world :=
  ⟨Regular.nil, fun _ => rfl, fun _ _ ho => (by cases ho), (List.append_nil _).symm⟩

/-- At every moment in the use of a new loader, what its requires have given so far tells the
executions apart that have failed, and the executions started are those that have failed and those
of the modules that have a phase. -/
theorem moment_accounted (s : Session) (es : List Event) (w : World)
    (h : s.restart.Moment es w) :
    (∀ earlier between later id o o',
      es = earlier ++ .gave id o :: between ++ .gave id o' :: later →
        (o = o' ↔ Event.failed id ∉ between)) ∧
      (∀ a b o, Event.gave a o ∈ es → Event.gave b o ∈ es → a = b) ∧
      ∀ id, w.started.count id = s.world.started.count id + es.count (.failed id) +
        if (w.state.phase? id).isSome then 1 else 0 := by
  have hstart : Accounted s.world.started [] s.restart.world :=
    ⟨Regular.nil, fun _ => rfl, fun _ _ ho => (by cases ho), (List.append_nil _).symm⟩
  have haccounted := (keeps_accounted s.restart.registry s.world.started).moment hstart h
  refine ⟨?_, ?_, ?_⟩
  · rintro earlier between later id o o' rfl
    exact haccounted.regular.same_of_gave
  · exact fun a b o ha hb => haccounted.regular.module_of_gave ha hb
  · intro id
    have hcount := haccounted.regular.count_begun id
    rw [haccounted.current_eq, Option.isSome_map] at hcount
    rw [haccounted.started_eq, List.count_append, hcount, Nat.add_assoc]

/-- The module `x` requires `y`, which requires `x`; the first execution of `x` fails after that. -/
def retrySession : Session :=
  .start ⟨.ofPath "x",
    [⟨.ofPath "x", [⟨"./y", .ofPath "y"⟩], [.require "./y" "y", .throwFirst "unready" 1]⟩,
      ⟨.ofPath "y", [⟨"./x", .ofPath "x"⟩], [.require "./x" "x"]⟩]⟩ []

/-- What has happened when `x` has been required twice. -/
def retryEvents : List Event :=
  [.began (.ofPath "x") 0, .began (.ofPath "y") 1, .gave (.ofPath "x") 0,
    .completed (.ofPath "y") 1, .gave (.ofPath "y") 1, .failed (.ofPath "x"),
    .began (.ofPath "x") 2, .gave (.ofPath "y") 1, .completed (.ofPath "x") 2,
    .gave (.ofPath "x") 2]

theorem retrySession_accounted :
    retrySession.restart.Moment retryEvents (retrySession.restart.callAll [.run, .run]).world ∧
      ((0 : ObjectId) = 2 ↔
        Event.failed (.ofPath "x") ∉ (retryEvents.drop 3).take 6) ∧
      (retrySession.restart.callAll [.run, .run]).world.started.count (.ofPath "x") =
        0 + 1 + 1 := by
  have hmoment : retrySession.restart.Moment retryEvents
      (retrySession.restart.callAll [.run, .run]).world := Moment.between [.run, .run]
  have haccounted := moment_accounted retrySession retryEvents _ hmoment
  exact ⟨hmoment, haccounted.1 (retryEvents.take 2) _ [] (.ofPath "x") 0 2 rfl,
    haccounted.2.2 (.ofPath "x")⟩

end Session

end ModuleBundler.Loader
