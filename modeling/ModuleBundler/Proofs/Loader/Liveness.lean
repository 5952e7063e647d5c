import ModuleBundler.Proofs.Loader.Confinement

/-!
# Exports are read live

A getter that forwards is read anew each time, so what a name reads as is what stands at the end of
the way that its forwards take (`Heap.Trail`).  The way is walked once: no place is on it twice
(`Heap.Trail.nodup`), and it takes no more steps than there are slots (`Heap.Trail.length_le`).
What changes at its end changes for all names that lead there, because the places on the way keep
their slots (`Heap.Trail.congr`).

In every world that a loader comes to (`World.Reachable`) the end of the way is a name of an object
that was made, since all that is read there was made since the beginning
(`World.Reachable.extends_initial`).

* `Heap.Trail.settles` — what a name reads as, now and after a change at the end of its way;
* `Heap.shows_iff` — what an object shows, unless one of its names is circular;
* **`World.Reachable.read_live`** — both in every world that a loader comes to, and that a circular
  name does not read as anything.
-/

namespace ModuleBundler.Loader

open Relation

/-! ## The way that forwards take -/

namespace Heap

variable {h h' : Heap} {p q e : Place} {met : List Place} {slot : Slot}

/-- Following forwards from `p` passes the places `met` and comes to `e`. -/
inductive Trail (h : Heap) : Place → List Place → Place → Prop
  | arrived (p : Place) : Trail h p [] p
  | forward {p q e : Place} {met : List Place} :
      h.Forwards p q → Trail h q met e → Trail h p (p :: met) e

/-- The place has no slot, or one that does not forward. -/
def Final (h : Heap) (e : Place) : Prop := ∀ q, ¬ h.Forwards e q

theorem final_of_slot {found : Option Slot} (hslot : slotOf (h.entries e.1) e.2 = found)
    (hfound : ∀ o name, found ≠ some (.forwards o name)) : h.Final e :=
  fun q hq => hfound q.1 q.2 (hslot.symm.trans hq)

namespace Trail

theorem reaches_of_mem (ht : h.Trail p met e) (hq : q ∈ met) : ReflTransGen h.Forwards p q := by
  induction ht with
  | arrived => cases hq
  | forward hnext _ ih =>
    rcases List.mem_cons.1 hq with rfl | hq
    · exact .refl
    · exact .head hnext (ih hq)

/-- Each place on the way forwards. -/
theorem forwards_of_mem (ht : h.Trail p met e) (hq : q ∈ met) : ∃ r, h.Forwards q r := by
  induction ht with
  | arrived => cases hq
  | forward hnext _ ih =>
    rcases List.mem_cons.1 hq with rfl | hq
    · exact ⟨_, hnext⟩
    · exact ih hq

/-- Behind the way, reading goes on at its end. -/
theorem read_add (ht : h.Trail p met e) (n : Nat) :
    h.read (n + met.length) p.1 p.2 = h.read n e.1 e.2 := by
  induction ht with
  | arrived => rfl
  | forward hnext _ ih =>
    rw [List.length_cons, ← Nat.add_assoc, read_of_forwards hnext]
    exact ih

/-- On the way, reading has not come to an end. -/
theorem read_of_le (ht : h.Trail p met e) {n : Nat} (hn : n ≤ met.length) :
    h.read n p.1 p.2 = .endless := by
  induction ht generalizing n with
  | arrived =>
    obtain rfl := Nat.le_zero.1 hn
    rfl
  | forward hnext _ ih =>
    cases n with
    | zero => rfl
    | succ n =>
      rw [read_of_forwards hnext]
      exact ih (Nat.le_of_succ_le_succ hn)

theorem get_eq (ht : h.Trail p met e) : h.get p.1 p.2 = h.get e.1 e.2 := by
  have hmany : h.slotCount < h.slotCount + 1 + met.length := by omega
  calc h.get p.1 p.2
      = h.read (h.slotCount + 1 + met.length) p.1 p.2 := (read_eq_get hmany p).symm
    _ = h.get e.1 e.2 := ht.read_add _

/-- Where the slots on the way are the same, the way is the same. -/
theorem congr (ht : h.Trail p met e)
    (hsame : ∀ q ∈ met, slotOf (h'.entries q.1) q.2 = slotOf (h.entries q.1) q.2) :
    h'.Trail p met e := by
  induction ht with
  | arrived p => exact .arrived p
  | @forward p q e met hnext _ ih =>
    have hfirst : h'.Forwards p q := (hsame p List.mem_cons_self).trans hnext
    exact .forward hfirst (ih fun r hr => hsame r (List.mem_cons_of_mem p hr))

end Trail

/-- At the end of the way, one more step is enough. -/
theorem Final.read_succ (he : h.Final e) (n : Nat) : h.read (n + 1) e.1 e.2 = h.get e.1 e.2 :=
  (reads_iff.1 (reads_read_of_not_forwards he n)).1.symm

theorem Final.not_circular (he : h.Final e) : ¬ h.Circular e :=
  exists_reads_iff.1 ⟨_, reads_read_of_not_forwards he 0⟩

namespace Trail

theorem not_circular (ht : h.Trail p met e) (he : h.Final e) : ¬ h.Circular p := by
  rw [← get_eq_endless_iff, ht.get_eq, get_eq_endless_iff]
  exact he.not_circular

/-- No place is met twice on a way that ends. -/
theorem nodup (ht : h.Trail p met e) (he : h.Final e) : (met ++ [e]).Nodup := by
  induction ht with
  | arrived => exact List.nodup_singleton _
  | @forward p q e met hnext hrest ih =>
    refine List.nodup_cons.2 ⟨fun hmem => ?_, ih he⟩
    rcases List.mem_append.1 hmem with hmem | hmem
    · -- the way would come back to where it begins
      have hback : TransGen h.Forwards p p := .head' hnext (hrest.reaches_of_mem hmem)
      exact (Trail.forward hnext hrest).not_circular he ⟨p, .refl, hback⟩
    · obtain rfl := List.mem_singleton.1 hmem
      exact he q hnext

theorem subset_places (ht : h.Trail p met e) : met ⊆ h.places := by
  intro q hq
  obtain ⟨r, hr⟩ := ht.forwards_of_mem hq
  exact mem_places hr

theorem length_le (ht : h.Trail p met e) (he : h.Final e) : met.length ≤ h.slotCount := by
  have hmet := (List.nodup_append.1 (ht.nodup he)).1
  rw [← length_places]
  exact (List.subperm_of_subset hmet ht.subset_places).length_le

/-- A way that ends at a slot leaves one step for that slot. -/
theorem length_lt (ht : h.Trail p met e) (he : h.Final e)
    (hslot : slotOf (h.entries e.1) e.2 = some slot) : met.length < h.slotCount := by
  have hall : met ++ [e] ⊆ h.places :=
    List.append_subset.2 ⟨ht.subset_places, List.cons_subset.2 ⟨mem_places hslot, List.nil_subset _⟩⟩
  have hle := (List.subperm_of_subset (ht.nodup he) hall).length_le
  rw [length_places, List.length_append, List.length_singleton] at hle
  exact hle

/-- A definition at the end of the way is not on it. -/
theorem define (ht : h.Trail p met e) (he : h.Final e) (hmade : e.1 < h.fresh) (slot : Slot) :
    (h.define e.1 e.2 slot).Trail p met e := by
  refine ht.congr fun q hq => ?_
  obtain ⟨r, hr⟩ := ht.forwards_of_mem hq
  rw [entries_define e.2 slot hmade]
  by_cases hobject : q.1 = e.1
  · have hname : q.2 ≠ e.2 := fun hname => he r (Prod.ext hobject hname ▸ hr)
    rw [if_pos hobject, slotOf_define, if_neg hname, hobject]
  · rw [if_neg hobject]

theorem assign (ht : h.Trail p met e) (c : Cell) (v : Value) : (h.assign c v).Trail p met e :=
  ht.congr fun _ _ => rfl

end Trail

/-- The way from a place that is not circular ends. -/
theorem Reads.exists_trail {v : Reading} (hv : h.Reads p v) :
    ∃ met e, h.Trail p met e ∧ h.Final e := by
  induction hv with
  | undefined hslot => exact ⟨[], _, .arrived _, final_of_slot hslot (by simp)⟩
  | plain hslot => exact ⟨[], _, .arrived _, final_of_slot hslot (by simp)⟩
  | assigned hslot _ => exact ⟨[], _, .arrived _, final_of_slot hslot (by simp)⟩
  | unassigned hslot _ => exact ⟨[], _, .arrived _, final_of_slot hslot (by simp)⟩
  | forwarded hnext _ ih =>
    obtain ⟨met, e, ht, he⟩ := ih
    exact ⟨_ :: met, e, .forward hnext ht, he⟩

theorem circular_or_trail (h : Heap) (p : Place) :
    h.Circular p ∨ ∃ met e, h.Trail p met e ∧ h.Final e := by
  refine or_iff_not_imp_left.2 fun hp => ?_
  obtain ⟨v, hv⟩ := exists_reads_iff.2 hp
  exact hv.exists_trail

/-! ## What is at the end -/

theorem get_of_plain {v : Value} (hslot : slotOf (h.entries p.1) p.2 = some (.plain v)) :
    h.get p.1 p.2 = .value v := by
  rw [get, read, hslot]

/-- A getter of a cell reads what the cell holds. -/
theorem get_of_reads {c : Cell} (hslot : slotOf (h.entries p.1) p.2 = some (.reads c)) :
    h.get p.1 p.2 = (h.cell? c).elim .absent .value := by
  rw [get, read, hslot]
  cases hc : h.cell? c <;> simp [hc]

theorem get_of_missing (hslot : slotOf (h.entries p.1) p.2 = none) :
    h.get p.1 p.2 = .absent := by
  rw [get, read, hslot]

theorem slotOf_define_self (hmade : e.1 < h.fresh) (slot : Slot) :
    slotOf ((h.define e.1 e.2 slot).entries e.1) e.2 = some slot := by
  rw [entries_define e.2 slot hmade, if_pos rfl, slotOf_define, if_pos rfl]

theorem cell?_assign_self (h : Heap) (c : Cell) (v : Value) : (h.assign c v).cell? c = some v := by
  simp [cell?, assign]

/-- What the place `p` reads as when its way passes `met` and ends at `e`, and what it reads as
after a change there. -/
structure Settles (h : Heap) (p : Place) (met : List Place) (e : Place) : Prop where
  /-- No place is met twice. -/
  nodup : (met ++ [e]).Nodup
  /-- As many steps are taken as there are slots, at most. -/
  length_le : met.length ≤ h.slotCount
  /-- One fewer, if there is a slot at the end. -/
  length_lt : ∀ slot, slotOf (h.entries e.1) e.2 = some slot → met.length < h.slotCount
  /-- Reading ends after these steps and not before. -/
  read_eq : ∀ n, h.read n p.1 p.2 = if n ≤ met.length then .endless else h.get p.1 p.2
  reads : h.Reads p (h.get p.1 p.2)
  plain : ∀ v, slotOf (h.entries e.1) e.2 = some (.plain v) → h.get p.1 p.2 = .value v
  cell : ∀ c, slotOf (h.entries e.1) e.2 = some (.reads c) →
    h.get p.1 p.2 = (h.cell? c).elim .absent .value
  missing : slotOf (h.entries e.1) e.2 = none → h.get p.1 p.2 = .absent
  /-- Whatever else changes, the two places read as the same. -/
  later : ∀ h' : Heap,
    (∀ q ∈ met, slotOf (h'.entries q.1) q.2 = slotOf (h.entries q.1) q.2) →
      h'.get p.1 p.2 = h'.get e.1 e.2
  /-- A value that is assigned to the cell at the end is read at once. -/
  assigned : ∀ c v, slotOf (h.entries e.1) e.2 = some (.reads c) →
    (h.assign c v).get p.1 p.2 = .value v
  /-- So is a value that is put at the end, whether or not the name was defined before. -/
  set : ∀ v, (h.define e.1 e.2 (.plain v)).get p.1 p.2 = .value v
  /-- And a getter that is put there is followed. -/
  getter : ∀ c, (h.define e.1 e.2 (.reads c)).get p.1 p.2 = (h.cell? c).elim .absent .value
  forward : ∀ q : Place, (h.define e.1 e.2 (.forwards q.1 q.2)).get p.1 p.2 =
    (h.define e.1 e.2 (.forwards q.1 q.2)).get q.1 q.2

theorem Trail.settles (ht : h.Trail p met e) (he : h.Final e) (hmade : e.1 < h.fresh) :
    h.Settles p met e where
  nodup := ht.nodup he
  length_le := ht.length_le he
  length_lt _ hslot := ht.length_lt he hslot
  read_eq n := by
    split
    · rename_i hn
      exact ht.read_of_le hn
    · rename_i hn
      obtain ⟨k, rfl⟩ := Nat.exists_eq_add_of_lt (Nat.lt_of_not_le hn)
      have hsteps : met.length + k + 1 = k + 1 + met.length := by omega
      rw [hsteps, ht.read_add, he.read_succ, ht.get_eq]
  reads := by
    obtain ⟨v, hv⟩ := exists_reads_iff.2 (ht.not_circular he)
    rw [(reads_iff.1 hv).1]
    exact hv
  plain _ hslot := ht.get_eq.trans (get_of_plain hslot)
  cell _ hslot := ht.get_eq.trans (get_of_reads hslot)
  missing hslot := ht.get_eq.trans (get_of_missing hslot)
  later _ hsame := (ht.congr hsame).get_eq
  assigned c v hslot := by
    have hslot' : slotOf ((h.assign c v).entries e.1) e.2 = some (.reads c) := hslot
    rw [(ht.assign c v).get_eq, get_of_reads hslot', cell?_assign_self]
    rfl
  set v := (ht.define he hmade _).get_eq.trans (get_of_plain (slotOf_define_self hmade _))
  getter c := (ht.define he hmade _).get_eq.trans (get_of_reads (slotOf_define_self hmade _))
  forward q := by
    have hlast : (h.define e.1 e.2 (.forwards q.1 q.2)).Forwards e q :=
      slotOf_define_self hmade _
    exact (ht.define he hmade _).get_eq.trans (Trail.forward hlast (.arrived q)).get_eq

/-- Reading all names of an object, in order, shows these contents. -/
def Shows (h : Heap) (o : ObjectId) (contents : List (String × Value)) : Prop :=
  List.Forall₂ (fun name shown =>
      shown.1 = name ∧ ∃ v, h.Reads (o, name) v ∧ shown.2 = v.value?.getD .null)
    (h.names o) contents

/-- An object shows its snapshot, unless reading one of its names does not come to an end. -/
theorem shows_iff (h : Heap) (o : ObjectId) (contents : List (String × Value)) :
    h.Shows o contents ↔
      (∀ name ∈ h.names o, ¬ h.Circular (o, name)) ∧ contents = h.snapshot o := by
  have hread : ∀ name (shown : String × Value),
      (shown.1 = name ∧ ∃ v, h.Reads (o, name) v ∧ shown.2 = v.value?.getD .null) ↔
        ¬ h.Circular (o, name) ∧ (name, h.getOrNull o name) = shown := by
    intro name shown
    rw [← exists_reads_iff]
    constructor
    · rintro ⟨rfl, v, hv, hshown⟩
      have hget : h.get o shown.1 = v := (reads_iff.1 hv).1
      exact ⟨⟨v, hv⟩, Prod.ext rfl (by rw [getOrNull, hget, hshown])⟩
    · rintro ⟨⟨v, hv⟩, rfl⟩
      have hget : h.get o name = v := (reads_iff.1 hv).1
      exact ⟨rfl, v, hv, by rw [getOrNull, hget]⟩
  unfold Shows snapshot
  simp only [hread]
  induction h.names o generalizing contents with
  | nil => simp
  | cons name names ih =>
    rw [List.forall_mem_cons, List.map_cons]
    constructor
    · rintro (_ | ⟨⟨hfirst, rfl⟩, hrest⟩)
      obtain ⟨hnames, rfl⟩ := (ih _).1 hrest
      exact ⟨⟨hfirst, hnames⟩, rfl⟩
    · rintro ⟨⟨hfirst, hnames⟩, rfl⟩
      exact .cons ⟨hfirst, rfl⟩ ((ih _).2 ⟨hnames, rfl⟩)

end Heap

/-! ## The worlds that a loader comes to -/

/-- A session that comes from a new loader by calls, by definitions from outside, by taking the log
and by starting further loaders. -/
inductive Session.Reachable : Session → Prop
  | start (registry : Registry) (log : List String) : Reachable (Session.start registry log)
  | call {s : Session} (c : Call) : Reachable s → Reachable (s.call c).2
  | set {s : Session} (id : ModuleId) (key : String) (value : Value) :
      Reachable s → Reachable (s.set id key value).2
  | restart {s : Session} : Reachable s → Reachable s.restart
  | takeLog {s : Session} : Reachable s → Reachable s.takeLog.2

/-- A world between two uses of such a session, or at a point of a call. -/
inductive World.Reachable : World → Prop
  | between {s : Session} : s.Reachable → Reachable s.world
  | within {s : Session} {c : Call} {p : Point} : s.Reachable → s.Passes c p → Reachable p.world

/-- At every point of a require, what is read and what the running bodies have was made since. -/
theorem Registry.Passes.confined {b w : World} {r : Registry} {id : ModuleId} {p : Point}
    (hw : b.Extends w) (hp : r.Passes w id p) :
    b.Extends p.world ∧ ∀ f ∈ p.frame :: p.waiting, f.Since b p.world := by
  induction hp with
  | @enter m _ _ =>
    obtain ⟨hentered, hframe⟩ := hw.enter m
    refine ⟨hentered.world, fun f hf => ?_⟩
    obtain rfl := List.mem_singleton.1 hf
    exact hframe
  | @next waiting f f' s rest v v' _ hstep ih =>
    obtain ⟨hv, hframes⟩ := ih
    obtain ⟨honward, hgoes⟩ := Frame.step_confined
      (requireWithin_confined b r (r.modules.length - waiting.length)) hv
      (hframes f List.mem_cons_self) s
    unfold Point.requiring at hstep
    rw [hstep] at honward hgoes
    refine ⟨honward.world, fun frame hframe => ?_⟩
    rcases List.mem_cons.1 hframe with rfl | hframe
    · exact hgoes _ rfl
    · exact (hframes frame (List.mem_cons_of_mem _ hframe)).later honward.later
  | @nested waiting f s rest v specifier target m _ _ _ _ _ ih =>
    obtain ⟨hv, hframes⟩ := ih
    obtain ⟨hentered, hframe⟩ := hv.enter m
    refine ⟨hentered.world, fun frame hmem => ?_⟩
    rcases List.mem_cons.1 hmem with rfl | hmem
    · exact hframe
    · exact (hframes frame hmem).later hentered.later

namespace Session

/-- The object held of a module was made since. -/
def HeldSince (b : World) (s : Session) : Prop := ∀ h ∈ s.held, b.MadeSince s.world h.2

theorem held_require {b : World} {s : Session} (hs : b.Extends s.world) (hheld : s.HeldSince b)
    (id : ModuleId) : (s.require id).2.HeldSince b := by
  obtain ⟨honward, hgiven⟩ := requireWithin_confined b s.registry
    (s.registry.modules.length + 1) id s.world hs
  unfold require Loader.require
  split <;> rename_i heq <;> rw [heq] at honward hgiven
  · intro k hk
    rcases List.mem_cons.1 hk with rfl | hk
    · exact hgiven _ rfl
    · exact (hheld k hk).later honward.later
  · exact fun k hk => (hheld k hk).later honward.later

theorem Reachable.confined {s : Session} (hs : s.Reachable) :
    World.initial.Extends s.world ∧ s.HeldSince World.initial := by
  induction hs with
  | start registry log => exact ⟨extends_start registry log, fun k hk => by cases hk⟩
  | @call s c _ ih =>
    refine ⟨(call_confined ih.1 c).1.world, ?_⟩
    cases c with
    | run => exact held_require ih.1 ih.2 s.registry.entry
    | require id => exact held_require ih.1 ih.2 id
  | @set s id key value _ ih =>
    unfold Session.set
    split
    · exact ih
    · rename_i o hobject
      obtain ⟨k, hfound, rfl⟩ := Option.map_eq_some_iff.1 hobject
      have hdefined := ih.1.definePlain (ih.2 k (List.mem_of_find?_eq_some hfound)) key value
      exact ⟨hdefined.world, fun k hk => (ih.2 k hk).later hdefined.later⟩
  | @restart s _ ih =>
    have hforgotten : World.initial.Onward s.world s.restart.world :=
      ih.1.withState fun hphase => by cases hphase
    exact ⟨hforgotten.world, fun k hk => (ih.2 k hk).later hforgotten.later⟩
  | @takeLog s _ ih =>
    exact ⟨⟨ih.1.objects, ih.1.cells, ih.1.started_le, ih.1.phases, ih.1.slots⟩, ih.2⟩

end Session

namespace World.Reachable

variable {w : World}

/-- All that is read in a world that a loader comes to was made since the beginning. -/
theorem extends_initial (hw : w.Reachable) : World.initial.Extends w := by
  cases hw with
  | between hs => exact hs.confined.1
  | within hs hp => exact (Registry.Passes.confined hs.confined.1 hp).1

/-- From a name of an object that was made, forwards lead to names of such objects. -/
theorem made_of_trail (hw : w.Reachable) {p e : Place} {met : List Place}
    (ht : w.heap.Trail p met e) (hp : p.1 < w.heap.fresh) : e.1 < w.heap.fresh := by
  induction ht with
  | arrived => exact hp
  | @forward p q e met hnext _ ih => exact ih (hw.extends_initial.slots (Nat.zero_le p.1) hnext).2

/-- In every world that a loader comes to, a name of an object reads as what is at the end of its
way, and a change there is read by all names that lead to it; an object shows what its names read
as; and a name whose way comes back does not read as anything. -/
theorem read_live (hw : w.Reachable) :
    (∀ p : Place, w.heap.Circular p ∨ ∃ met e, w.heap.Trail p met e ∧ w.heap.Final e) ∧
      (∀ (p e : Place) (met : List Place), p.1 < w.heap.fresh → w.heap.Trail p met e →
        w.heap.Final e → w.heap.Settles p met e) ∧
      (∀ o contents, w.heap.Shows o contents ↔
        (∀ name ∈ w.heap.names o, ¬ w.heap.Circular (o, name)) ∧
          contents = w.heap.snapshot o) ∧
      ∀ p : Place, w.heap.Circular p →
        (∀ n, w.heap.read n p.1 p.2 = .endless) ∧ ¬ ∃ v, w.heap.Reads p v := by
  refine ⟨w.heap.circular_or_trail, ?_, w.heap.shows_iff, ?_⟩
  · intro p e met hp ht he
    exact ht.settles he (hw.made_of_trail ht hp)
  · intro p hp
    exact ⟨hp.read_eq, fun hv => Heap.exists_reads_iff.1 hv hp⟩

end World.Reachable

/-- The world after the module `x` was required.  It exports a variable that it assigns after
requiring `y`, which forwards to it; and both forward `echo` to each other. -/
def World.relay : World :=
  ((Session.start ⟨.ofPath "x",
    [⟨.ofPath "x", [⟨"./y", .ofPath "y"⟩],
        [.getter "value" "v", .require "./y" "y", .forward "echo" "y" "echo",
          .assign "v" (.string "ready")]⟩,
      ⟨.ofPath "y", [⟨"./x", .ofPath "x"⟩],
        [.require "./x" "x", .forward "seen" "x" "value", .forward "echo" "x" "echo"]⟩]⟩
    []).call .run).2.world

theorem World.relay_live :
    relay.Reachable ∧ relay.heap.Settles (1, "seen") [(1, "seen")] (0, "value") ∧
      relay.heap.get 1 "seen" = .value (.string "ready") ∧
      (relay.heap.assign ⟨0, "v"⟩ .null).get 1 "seen" = .value .null ∧
      ¬ (∃ contents, relay.heap.Shows 1 contents) ∧ ¬ ∃ v, relay.heap.Reads (0, "echo") v := by
  have hrelay : relay.Reachable := .between (.call .run (.start _ _))
  obtain ⟨-, hsettles, hshows, hendless⟩ := World.Reachable.read_live hrelay
  have hnext : relay.heap.Forwards (1, "seen") (0, "value") := rfl
  have hslot : slotOf (relay.heap.entries 0) "value" = some (.reads ⟨0, "v"⟩) := rfl
  have hseen := hsettles _ _ _ (by decide) (.forward hnext (.arrived _))
    (Heap.final_of_slot hslot (by simp))
  have hforth : relay.heap.Forwards (0, "echo") (1, "echo") := rfl
  have hback : relay.heap.Forwards (1, "echo") (0, "echo") := rfl
  refine ⟨hrelay, hseen, hseen.cell _ hslot, hseen.assigned _ _ hslot, ?_,
    (hendless _ ⟨_, .refl, .head hforth (.single hback)⟩).2⟩
  rintro ⟨contents, hcontents⟩
  exact ((hshows 1 contents).1 hcontents).1 "echo" (by decide)
    ⟨_, .refl, .head hback (.single hforth)⟩

end ModuleBundler.Loader
