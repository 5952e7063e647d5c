import ModuleBundler.Proofs.Loader.Event
import ModuleBundler.Proofs.Loader.Forwarding

/-!
# What a loader makes is its own

A loader begins in some world, which may hold objects and cells already.  Objects and executions are
numbered, so whatever has a number from before was there before.  A loader reaches nothing of that:
its phases, handles, getters and cells are numbered from then on (`World.Extends`).

* `Frame.step_confined` — a statement keeps to what the loader has made, if requiring does;
* `requireWithin_confined` — so does every require, by induction on how many bodies can be within
  each other, and it gives an object that the loader has made;
* `World.Extends.entries_eq` — so the objects from before stay as they are;
* `World.Extends.get_eq` — and what is read from them as well, if they lead to nothing that comes
  later;
* `Session.callAll_confined` — this holds of all calls of a loader.
-/

namespace ModuleBundler.Loader

open LoaderState

/-! ## Objects -/

/-- The slot of a name after a definition. -/
theorem slotOf_define (name : String) (slot : Slot) (entries : List Entry) (other : String) :
    slotOf (define name slot entries) other =
      if other = name then some slot else slotOf entries other := by
  have hcons : ∀ (e : Entry) (rest : List Entry),
      slotOf (e :: rest) other = if e.name = other then some e.slot else slotOf rest other := by
    intro e rest
    by_cases he : e.name = other <;> simp [slotOf, he]
  induction entries with
  | nil =>
    rw [define, hcons]
    by_cases h : other = name
    · simp [h]
    · simp [h, Ne.symm h, slotOf]
  | cons e rest ih =>
    unfold define
    by_cases he : e.name = name
    · rw [if_pos he, hcons, hcons, he]
      by_cases h : other = name
      · simp [h]
      · simp [h, Ne.symm h]
    · rw [if_neg he, hcons, hcons, ih]
      by_cases h : other = name
      · simp [h, he]
      · simp [h]

/-- Changing what is behind some elements of a list. -/
theorem modify_append_of_le {α : Type} {front back : List α} {n : Nat} (change : α → α)
    (hn : front.length ≤ n) :
    (front ++ back).modify n change = front ++ back.modify (n - front.length) change := by
  induction front generalizing n with
  | nil => rfl
  | cons a front ih =>
    obtain ⟨k, rfl⟩ := Nat.exists_eq_add_of_le' hn
    have hk : front.length ≤ k + front.length := Nat.le_add_left _ _
    simp [← Nat.add_assoc, ih hk]

namespace Heap

variable {h : Heap} {o other : ObjectId}

theorem entries_of_fresh_le (hle : h.fresh ≤ o) : h.entries o = [] := by
  simp [entries, List.getElem?_eq_none hle]

@[simp] theorem fresh_define (h : Heap) (o : ObjectId) (name : String) (slot : Slot) :
    (h.define o name slot).fresh = h.fresh := by
  simp [fresh, define]

@[simp] theorem fresh_allocate (h : Heap) : h.allocate.fresh = h.fresh + 1 := by
  simp [fresh, allocate]

@[simp] theorem entries_allocate (h : Heap) (o : ObjectId) : h.allocate.entries o = h.entries o := by
  by_cases ho : o < h.fresh
  · simp [entries, allocate, List.getElem?_append_left ho]
  · rw [entries_of_fresh_le (Nat.le_of_not_lt ho)]
    simp only [entries, allocate, List.getD_eq_getElem?_getD]
    rw [List.getElem?_append_right (Nat.le_of_not_lt ho), List.getElem?_singleton]
    split <;> rfl

/-- A definition changes one object. -/
theorem entries_define (name : String) (slot : Slot) (ho : o < h.fresh) :
    (h.define o name slot).entries other =
      if other = o then Loader.define name slot (h.entries o) else h.entries other := by
  have hlt : o < h.objects.length := ho
  by_cases heq : other = o
  · subst heq
    simp [entries, define, hlt]
  · simp [entries, define, heq, Ne.symm heq]

end Heap

/-! ## Numbers that were given out since -/

/-- The object was made after the world `b` and before the world `w`. -/
def World.MadeSince (b w : World) (o : ObjectId) : Prop :=
  b.heap.fresh ≤ o ∧ o < w.heap.fresh

/-- The execution was started after the world `b` and before the world `w`. -/
def World.StartedSince (b w : World) (number : Nat) : Prop :=
  b.started.length ≤ number ∧ number < w.started.length

/-- What is read through a slot was made since. -/
def Slot.Since (b w : World) : Slot → Prop
  | .plain _ => True
  | .reads c => b.StartedSince w c.owner
  | .forwards o _ => b.MadeSince w o

/-- The world `w` is the world `b` with more in it, none of which leads back to what is in `b`. -/
structure World.Extends (b w : World) : Prop where
  objects : b.heap.objects <+: w.heap.objects
  cells : ∃ new, w.heap.cells = new ++ b.heap.cells ∧ ∀ c ∈ new, b.StartedSince w c.1.owner
  started_le : b.started.length ≤ w.started.length
  phases : ∀ {id phase}, w.state.phase? id = some phase → b.MadeSince w phase.exports
  slots : ∀ {o name slot}, b.heap.fresh ≤ o → slotOf (w.heap.entries o) name = some slot →
    slot.Since b w

/-- An execution that was started since has its exports, its variables and its handles from then
on. -/
structure Frame.Since (b w : World) (f : Frame) : Prop where
  exports : b.MadeSince w f.exports
  number : b.StartedSince w f.number
  handles : ∀ h ∈ f.handles, b.MadeSince w h.2

/-- No object and no execution goes away. -/
structure World.Later (w v : World) : Prop where
  fresh_le : w.heap.fresh ≤ v.heap.fresh
  started_le : w.started.length ≤ v.started.length

variable {b w v u : World} {f : Frame} {o : ObjectId}

theorem World.Later.refl (w : World) : w.Later w := ⟨Nat.le_refl _, Nat.le_refl _⟩

theorem World.Later.trans (h : w.Later v) (h' : v.Later u) : w.Later u :=
  ⟨Nat.le_trans h.fresh_le h'.fresh_le, Nat.le_trans h.started_le h'.started_le⟩

theorem World.MadeSince.later (h : b.MadeSince w o) (hv : w.Later v) : b.MadeSince v o :=
  ⟨h.1, Nat.lt_of_lt_of_le h.2 hv.fresh_le⟩

theorem World.StartedSince.later {number : Nat} (h : b.StartedSince w number) (hv : w.Later v) :
    b.StartedSince v number :=
  ⟨h.1, Nat.lt_of_lt_of_le h.2 hv.started_le⟩

theorem Slot.Since.later {slot : Slot} (h : slot.Since b w) (hv : w.Later v) : slot.Since b v := by
  cases slot with
  | plain value => trivial
  | reads c => exact World.StartedSince.later h hv
  | forwards o name => exact World.MadeSince.later h hv

theorem Frame.Since.later (h : f.Since b w) (hv : w.Later v) : f.Since b v :=
  ⟨h.exports.later hv, h.number.later hv, fun k hk => (h.handles k hk).later hv⟩

theorem Frame.Since.keep (h : f.Since b w) (handle : String) (ho : b.MadeSince w o) :
    (f.keep handle o).Since b w := by
  refine ⟨h.exports, h.number, fun k hk => ?_⟩
  rcases List.mem_cons.1 hk with rfl | hk
  · exact ho
  · exact h.handles k hk

/-! ## What is done to a world -/

namespace World

/-- The world `v` comes after `w`, and it extends `b` as well. -/
structure Onward (b w v : World) : Prop where
  world : b.Extends v
  later : w.Later v

theorem Onward.trans (h : b.Onward w v) (h' : b.Onward v u) : b.Onward w u :=
  ⟨h'.world, h.later.trans h'.later⟩

namespace Extends

theorem onward (h : b.Extends w) : b.Onward w w := ⟨h, Later.refl w⟩

/-- A world that is later, and has the same cells and phases, extends what it did, if its slots
do. -/
theorem onward_of_same (h : b.Extends w) (hlater : w.Later v)
    (hobjects : b.heap.objects <+: v.heap.objects) (hcells : v.heap.cells = w.heap.cells)
    (hstate : v.state = w.state)
    (hslots : ∀ {o name slot}, b.heap.fresh ≤ o → slotOf (v.heap.entries o) name = some slot →
      slot.Since b v) : b.Onward w v := by
  refine ⟨⟨hobjects, ?_, Nat.le_trans h.started_le hlater.started_le, ?_, hslots⟩, hlater⟩
  · obtain ⟨new, hnew, howned⟩ := h.cells
    exact ⟨new, hcells.trans hnew, fun c hc => (howned c hc).later hlater⟩
  · intro id phase hphase
    rw [hstate] at hphase
    exact (h.phases hphase).later hlater

theorem define (h : b.Extends w) (ho : b.MadeSince w o) (name : String) {slot : Slot}
    (hslot : slot.Since b w) : b.Onward w (w.define o name slot) := by
  have hlater : w.Later (w.define o name slot) :=
    ⟨Nat.le_of_eq (Heap.fresh_define w.heap o name slot).symm, Nat.le_refl _⟩
  refine h.onward_of_same hlater ?_ rfl rfl ?_
  · obtain ⟨new, hnew⟩ := h.objects
    refine ⟨new.modify (o - b.heap.fresh) (Loader.define name slot), ?_⟩
    show _ = w.heap.objects.modify o _
    rw [← hnew, modify_append_of_le _ ho.1]
    rfl
  · intro other key found hle hfound
    change slotOf ((w.heap.define o name slot).entries other) key = some found at hfound
    rw [Heap.entries_define name slot ho.2] at hfound
    by_cases heq : other = o
    · rw [if_pos heq, slotOf_define] at hfound
      split at hfound
      · cases hfound
        exact hslot.later hlater
      · exact (h.slots ho.1 hfound).later hlater
    · rw [if_neg heq] at hfound
      exact (h.slots hle hfound).later hlater

theorem definePlain (h : b.Extends w) (ho : b.MadeSince w o) (name : String) (value : Value) :
    b.Onward w (w.define o name (.plain value)) :=
  h.define ho name trivial

theorem allocate (h : b.Extends w) : b.Onward w { w with heap := w.heap.allocate } := by
  have hlater : w.Later { w with heap := w.heap.allocate } := by
    refine ⟨?_, Nat.le_refl _⟩
    show w.heap.fresh ≤ w.heap.allocate.fresh
    simp
  refine h.onward_of_same hlater (h.objects.trans (List.prefix_append _ _)) rfl rfl ?_
  intro o name slot hle hslot
  have hslot : slotOf (w.heap.allocate.entries o) name = some slot := hslot
  rw [Heap.entries_allocate] at hslot
  exact (h.slots hle hslot).later hlater

theorem assign (h : b.Extends w) {c : Cell} (hc : b.StartedSince w c.owner) (value : Value) :
    b.Onward w { w with heap := w.heap.assign c value } := by
  have hlater : w.Later { w with heap := w.heap.assign c value } := ⟨Nat.le_refl _, Nat.le_refl _⟩
  refine ⟨⟨h.objects, ?_, h.started_le, h.phases, h.slots⟩, hlater⟩
  obtain ⟨new, hnew, howned⟩ := h.cells
  refine ⟨(c, value) :: new, by rw [List.cons_append, ← hnew]; rfl, fun cell hcell => ?_⟩
  rcases List.mem_cons.1 hcell with rfl | hcell
  · exact hc
  · exact howned cell hcell

theorem say (h : b.Extends w) (line : String) : b.Onward w (w.say line) :=
  ⟨⟨h.objects, h.cells, h.started_le, h.phases, h.slots⟩, Nat.le_refl _, Nat.le_refl _⟩

/-- Only phases change. -/
theorem withState (h : b.Extends w) {state : LoaderState}
    (hphases : ∀ {id phase}, state.phase? id = some phase → b.MadeSince w phase.exports) :
    b.Onward w { w with state } :=
  ⟨⟨h.objects, h.cells, h.started_le, hphases, h.slots⟩, Nat.le_refl _, Nat.le_refl _⟩

theorem put (h : b.Extends w) (id : ModuleId) {phase : Phase} (hphase : b.MadeSince w phase.exports) :
    b.Onward w { w with state := w.state.put id phase } := by
  refine h.withState fun {other found} hfound => ?_
  rw [phase?_put] at hfound
  split at hfound
  · cases hfound
    exact hphase
  · exact h.phases hfound

theorem erase (h : b.Extends w) (id : ModuleId) :
    b.Onward w { w with state := w.state.erase id } := by
  refine h.withState fun {other found} hfound => ?_
  rw [phase?_erase] at hfound
  split at hfound
  · cases hfound
  · exact h.phases hfound

/-- An execution that begins is one of those since, and so is all that it has. -/
theorem enter (h : b.Extends w) (m : Registered) :
    b.Onward w (w.enter m).2 ∧ (w.enter m).1.Since b (w.enter m).2 := by
  have hallocated := h.allocate
  have hle := (h.objects.length_le : b.heap.fresh ≤ w.heap.fresh)
  have hlater : w.Later (w.enter m).2 := by
    refine ⟨hallocated.later.fresh_le, ?_⟩
    show w.started.length ≤ (w.started ++ [m.id]).length
    simp
  have hexports : b.MadeSince (w.enter m).2 (w.enter m).1.exports := by
    refine ⟨hle, ?_⟩
    show w.heap.fresh < w.heap.allocate.fresh
    simp
  have hnumber : b.StartedSince (w.enter m).2 (w.enter m).1.number := by
    refine ⟨h.started_le, ?_⟩
    show w.started.length < (w.started ++ [m.id]).length
    simp
  refine ⟨⟨⟨hallocated.world.objects, ?_, Nat.le_trans h.started_le hlater.started_le, ?_, ?_⟩,
    hlater⟩, hexports, hnumber, fun k hk => ?_⟩
  · obtain ⟨new, hnew, howned⟩ := h.cells
    exact ⟨new, hnew, fun c hc => (howned c hc).later hlater⟩
  · intro other found hfound
    change (w.state.put m.id _).phase? other = some found at hfound
    rw [phase?_put] at hfound
    split at hfound
    · cases hfound
      exact hexports
    · exact (h.phases hfound).later hlater
  · intro o name slot hle hslot
    exact (h.slots hle (by rwa [← Heap.entries_allocate])).later hlater
  · rw [List.mem_singleton.1 hk]
    exact hexports

end Extends

end World

/-! ## What a body does -/

/-- A way to require keeps to what was made since, and gives an object that was. -/
def Confined (b : World) (requiring : Requiring) : Prop :=
  ∀ id w, b.Extends w → b.Onward w (requiring id w).2 ∧
    ∀ o, (requiring id w).1 = .ok o → b.MadeSince (requiring id w).2 o

namespace Frame

variable {requiring : Requiring}

/-- An object at a handle was made since. -/
theorem object_since (hw : b.Extends w) (hf : f.Since b w) (handle : String) :
    b.Onward w (f.object handle w).2 ∧ b.MadeSince (f.object handle w).2 (f.object handle w).1 := by
  unfold object
  split
  · rename_i h hfound
    exact ⟨hw.onward, hf.handles _ (List.mem_of_find?_eq_some hfound)⟩
  · refine ⟨hw.allocate, hw.objects.length_le, ?_⟩
    show w.heap.fresh < w.heap.allocate.fresh
    simp

/-- What a body requires was made since. -/
theorem requireSpecifier_confined (hr : Confined b requiring) (hw : b.Extends w) (specifier : String) :
    b.Onward w (f.requireSpecifier requiring specifier w).2 ∧
      ∀ o, (f.requireSpecifier requiring specifier w).1 = .ok o →
        b.MadeSince (f.requireSpecifier requiring specifier w).2 o := by
  unfold requireSpecifier
  split
  · exact ⟨hw.onward, by simp⟩
  · exact hr _ w hw

/-- A statement keeps to what was made since, and so does the execution that goes on. -/
theorem step_confined (hr : Confined b requiring) (hw : b.Extends w) (hf : f.Since b w)
    (s : Statement) :
    b.Onward w (f.step requiring w s).2 ∧
      ∀ f', (f.step requiring w s).1 = .ok f' → f'.Since b (f.step requiring w s).2 := by
  -- most statements leave the execution as it is
  have hgoes : ∀ v, b.Onward w v → b.Onward w v ∧
      ∀ f', (.ok f : Except RunFailure Frame) = .ok f' → f'.Since b v := by
    intro v hv
    refine ⟨hv, fun f' hok => ?_⟩
    cases hok
    exact hf.later hv.later
  have hkeeps : ∀ handle o v, b.Onward w v → b.MadeSince v o → b.Onward w v ∧
      ∀ f', (.ok (f.keep handle o) : Except RunFailure Frame) = .ok f' → f'.Since b v := by
    intro handle o v hv ho
    refine ⟨hv, fun f' hok => ?_⟩
    cases hok
    exact (hf.later hv.later).keep handle ho
  cases s with
  | set name value => exact hgoes _ (hw.definePlain hf.exports name _)
  | alter handle name value =>
    obtain ⟨hv, ho⟩ := object_since hw hf handle
    exact hgoes _ (hv.trans (hv.world.definePlain ho name _))
  | assign cell value =>
    have howned : b.StartedSince w (Cell.mk f.number cell).owner := hf.number
    exact hgoes _ (hw.assign howned value)
  | getter name cell =>
    have hslot : (Slot.reads ⟨f.number, cell⟩).Since b w := hf.number
    exact hgoes _ (hw.define hf.exports name hslot)
  | forward name handle key =>
    obtain ⟨hv, ho⟩ := object_since hw hf handle
    have hslot : (Slot.forwards (f.object handle w).1 key).Since b (f.object handle w).2 := ho
    exact hgoes _ (hv.trans (hv.world.define (hf.exports.later hv.later) name hslot))
  | require specifier handle =>
    obtain ⟨hv, hgiven⟩ := requireSpecifier_confined hr hw specifier
    unfold step
    dsimp only
    split <;> rename_i heq <;> rw [heq] at hv hgiven
    · exact hkeeps handle _ _ hv (hgiven _ rfl)
    · exact ⟨hv, by simp⟩
  | attempt specifier handle =>
    obtain ⟨hv, hgiven⟩ := requireSpecifier_confined hr hw specifier
    unfold step
    dsimp only
    split <;> rename_i heq <;> rw [heq] at hv hgiven
    · exact hkeeps handle _ _ hv (hgiven _ rfl)
    · exact hgoes _ (hv.trans (hv.world.say _))
  | inspect name handle what =>
    obtain ⟨hv, -⟩ := object_since hw hf handle
    exact hgoes _ (hv.trans (hv.world.definePlain (hf.exports.later hv.later) name _))
  | same name first second =>
    obtain ⟨hv, -⟩ := object_since hw hf first
    obtain ⟨hu, -⟩ := object_since hv.world (hf.later hv.later) second
    have hboth := hv.trans hu
    exact hgoes _ (hboth.trans (hboth.world.definePlain (hf.exports.later hboth.later) name _))
  | phase name id => exact hgoes _ (hw.definePlain hf.exports name _)
  | importer name => exact hgoes _ (hw.definePlain hf.exports name _)
  | log line => exact hgoes _ (hw.say line)
  | throw message => exact ⟨hw.onward, by simp [step]⟩
  | throwFirst message times =>
    unfold step
    dsimp only
    split
    · exact ⟨hw.onward, by simp⟩
    · exact hgoes _ hw.onward

theorem run_confined (hr : Confined b requiring) (hw : b.Extends w) (hf : f.Since b w)
    (body : List Statement) : b.Onward w (f.run requiring body w).2 := by
  induction body generalizing f w with
  | nil => exact hw.onward
  | cons s rest ih =>
    obtain ⟨hv, hnext⟩ := step_confined hr hw hf s
    unfold run
    split <;> rename_i heq <;> rw [heq] at hv hnext
    · exact hv.trans (ih hv.world (hnext _ rfl))
    · exact hv

end Frame

/-- A body that begins keeps to what was made since, and its exports object is made for it. -/
theorem run_enter_confined {requiring : Requiring} (hr : Confined b requiring) (hw : b.Extends w)
    (m : Registered) :
    b.Onward w ((w.enter m).1.run requiring m.body (w.enter m).2).2 ∧
      b.MadeSince ((w.enter m).1.run requiring m.body (w.enter m).2).2 (w.enter m).1.exports := by
  obtain ⟨hentered, hframe⟩ := hw.enter m
  have hbody := Frame.run_confined hr hentered.world hframe m.body
  exact ⟨hentered.trans hbody, hframe.exports.later hbody.later⟩

/-- A require keeps to what was made since the loader began. -/
theorem requireWithin_confined (b : World) (r : Registry) (n : Nat) :
    Confined b (requireWithin r n) := by
  induction n with
  | zero =>
    intro id w hw
    exact ⟨hw.onward, by simp [requireWithin]⟩
  | succ n ih =>
    intro id w hw
    rcases requireWithin_cases r n id w with ⟨phase, hphase, heq⟩ | ⟨-, -, heq⟩ |
      ⟨m, u, -, -, hrun, heq⟩ | ⟨m, e, u, -, -, hrun, heq⟩ <;> rw [heq]
    · refine ⟨hw.onward, fun o ho => ?_⟩
      cases ho
      exact hw.phases hphase
    · exact ⟨hw.onward, by simp⟩
    · obtain ⟨hbody, hexports⟩ := run_enter_confined ih hw m
      rw [hrun] at hbody hexports
      have hloaded : b.Onward u
          { u with state := u.state.put id (.loaded (w.enter m).1.exports) } :=
        hbody.world.put id hexports
      refine ⟨hbody.trans hloaded, fun o ho => ?_⟩
      cases ho
      exact hexports.later hloaded.later
    · have hbody := (run_enter_confined ih hw m).1
      rw [hrun] at hbody
      exact ⟨hbody.trans (hbody.world.erase id), by simp⟩

/-! ## What stays as it was -/

namespace World.Extends

/-- The objects from before stay as they were. -/
theorem entries_eq (h : b.Extends w) (ho : o < b.heap.fresh) :
    w.heap.entries o = b.heap.entries o := by
  obtain ⟨new, hnew⟩ := h.objects
  simp only [Heap.entries, List.getD_eq_getElem?_getD]
  rw [← hnew, List.getElem?_append_left ho]

/-- The variables from before stay as they were. -/
theorem cell?_eq (h : b.Extends w) {c : Cell} (hc : c.owner < b.started.length) :
    w.heap.cell? c = b.heap.cell? c := by
  obtain ⟨new, hnew, howned⟩ := h.cells
  have hnone : new.find? (fun entry => entry.1 == c) = none := by
    rw [List.find?_eq_none]
    intro entry hentry heq
    have hsame : entry.1 = c := by simpa using heq
    have := (howned entry hentry).1
    rw [hsame] at this
    omega
  simp [Heap.cell?, hnew, List.find?_append, hnone]

/-- What is read from the objects from before stays as it was, because they lead to nothing that
comes later. -/
theorem read_eq (h : b.Extends w) (hb : World.initial.Extends b) (n : Nat)
    (ho : o < b.heap.fresh) (name : String) : w.heap.read n o name = b.heap.read n o name := by
  induction n generalizing o name with
  | zero => rfl
  | succ n ih =>
    simp only [Heap.read, h.entries_eq ho]
    cases hslot : slotOf (b.heap.entries o) name with
    | none => rfl
    | some slot =>
      have hsince := hb.slots (Nat.zero_le o) hslot
      cases slot with
      | plain value => rfl
      | reads c => simp only [h.cell?_eq hsince.2]
      | forwards target key => exact ih hsince.2 key

theorem get_eq (h : b.Extends w) (hb : World.initial.Extends b) (ho : o < b.heap.fresh)
    (name : String) : w.heap.get o name = b.heap.get o name := by
  -- as many steps as are enough in both worlds
  have hmany : w.heap.slotCount < w.heap.slotCount + b.heap.slotCount + 1 := by omega
  have hmore : b.heap.slotCount < w.heap.slotCount + b.heap.slotCount + 1 := by omega
  calc w.heap.get o name
      = w.heap.read (w.heap.slotCount + b.heap.slotCount + 1) o name :=
        (Heap.read_eq_get hmany (o, name)).symm
    _ = b.heap.read (w.heap.slotCount + b.heap.slotCount + 1) o name := h.read_eq hb _ ho name
    _ = b.heap.get o name := Heap.read_eq_get hmore (o, name)

end World.Extends

/-! ## Sessions -/

namespace Session

variable {s : Session}

/-- One of the calls gives the object. -/
def Returns (s : Session) (calls : List Call) (o : ObjectId) : Prop :=
  ∃ before c after, calls = before ++ c :: after ∧
    ((s.callAll before).call c).1.map (·.object) = .ok o

/-- A call keeps to what the loader has made. -/
theorem call_confined (hs : b.Extends s.world) (c : Call) :
    b.Onward s.world (s.call c).2.world ∧
      ∀ o, (s.call c).1.map (·.object) = .ok o → b.MadeSince (s.call c).2.world o := by
  rw [call_object, call_world]
  exact requireWithin_confined b s.registry _ _ _ hs

/-- So do calls, one after the other. -/
theorem callAll_confined (hs : b.Extends s.world) (calls : List Call) :
    b.Onward s.world (s.callAll calls).world := by
  unfold callAll
  induction calls generalizing s with
  | nil => exact hs.onward
  | cons c rest ih =>
    have hcall := (call_confined hs c).1
    exact hcall.trans (ih hcall.world)

/-- And what they give was made by the loader. -/
theorem Returns.madeSince {calls : List Call} (h : s.Returns calls o) (hs : b.Extends s.world) :
    b.MadeSince (s.callAll calls).world o := by
  obtain ⟨before, c, after, rfl, hgiven⟩ := h
  have hbefore := callAll_confined hs before
  obtain ⟨hcall, hobject⟩ := call_confined hbefore.world c
  have hsplit : s.callAll (before ++ c :: after) = ((s.callAll before).call c).2.callAll after := by
    simp [callAll]
  rw [hsplit]
  exact (hobject o hgiven).later (callAll_confined hcall.world after).later

/-- A loader that has not run anything has made nothing. -/
theorem extends_start (registry : Registry) (log : List String) :
    World.initial.Extends (start registry log).world := by
  refine ⟨List.prefix_refl _, ⟨[], rfl, by simp⟩, Nat.le_refl _, ?_, ?_⟩
  · intro id phase hphase
    cases hphase
  · intro o name slot _ hslot
    cases hslot

/-- A new loader has made nothing. -/
theorem extends_restart (s : Session) : s.world.Extends s.restart.world := by
  refine ⟨List.prefix_refl _, ⟨[], rfl, by simp⟩, Nat.le_refl _, ?_, ?_⟩
  · intro id phase hphase
    cases hphase
  · intro o name slot hle hslot
    have hslot : slotOf (s.world.heap.entries o) name = some slot := hslot
    rw [Heap.entries_of_fresh_le hle] at hslot
    cases hslot

end Session

end ModuleBundler.Loader
