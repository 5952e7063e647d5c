import ModuleBundler.Proofs.Appearance
import ModuleBundler.Proofs.Loader.Liveness

/-!
# What exports objects hold

An exports object is used through handles, and handles that stand for one object are aliases of each
other.  `Heap.after` performs operations through any handles, one after the other.  What they make
of an object is what its own definitions make of nothing, through whatever handles they come
(`Heap.entries_after`); so the definitions of other objects do not matter, and among its own ones

* the names are listed in the order of their first definition (`names_defineAll`), and whatever is
  asked about them is answered from that list (`Heap.lists_names`);
* the last definition of a name decides about its slot (`slotOf_defineAll_of_last`), which is read
  anew each time (`Heap.get_eq_now`).

`Heap.Reflects` says all of this of a heap and operations.  A loader does nothing else with objects:
every statement of a body performs operations (`Frame.step_made`), hence every require does, by
induction on how many bodies can be within each other (`requireWithin_made`).

* **`Heap.reflects_operations`** — a heap reflects the operations that have made it, and every world
  that a loader comes to has such a heap.
-/

namespace ModuleBundler.Loader

/-! ## Definitions, one after the other -/

/-- The entries of an object after definitions. -/
def defineAll (entries : List Entry) (ds : List Entry) : List Entry :=
  ds.foldl (fun entries d => define d.name d.slot entries) entries

section Definitions

variable {entries ds before after : List Entry} {d : Entry} {name : String}

theorem defineAll_append (entries ds more : List Entry) :
    defineAll entries (ds ++ more) = defineAll (defineAll entries ds) more :=
  List.foldl_append

/-- The names are those that were defined, each once, in the order of their first definition. -/
theorem names_defineAll (ds : List Entry) :
    FirstAppearances (ds.map (·.name)) ((defineAll [] ds).map (·.name)) := by
  induction ds using List.reverseRecOn with
  | nil => exact .nil
  | append_singleton ds d ih =>
    have hlast : defineAll [] (ds ++ [d]) = define d.name d.slot (defineAll [] ds) := by
      rw [defineAll_append]
      rfl
    rw [hlast, define_names, List.map_append]
    split
    · rename_i hmem
      exact ih.skip hmem
    · rename_i hmem
      exact ih.add hmem

/-- Definitions of other names leave a slot as it is. -/
theorem slotOf_defineAll_of_ne (entries : List Entry) (hds : ∀ d ∈ ds, d.name ≠ name) :
    slotOf (defineAll entries ds) name = slotOf entries name := by
  induction ds generalizing entries with
  | nil => rfl
  | cons d rest ih =>
    have hrest : ∀ e ∈ rest, e.name ≠ name := fun e he => hds e (List.mem_cons_of_mem _ he)
    have hd : name ≠ d.name := (hds d List.mem_cons_self).symm
    show slotOf (defineAll (define d.name d.slot entries) rest) name = slotOf entries name
    rw [ih _ hrest, slotOf_define, if_neg hd]

/-- The last definition of a name gives its slot. -/
theorem slotOf_defineAll_of_last (entries before : List Entry)
    (hafter : ∀ e ∈ after, e.name ≠ d.name) :
    slotOf (defineAll entries (before ++ d :: after)) d.name = some d.slot := by
  rw [defineAll_append]
  show slotOf (defineAll (define d.name d.slot (defineAll entries before)) after) d.name = _
  rw [slotOf_defineAll_of_ne _ hafter, slotOf_define, if_pos rfl]

/-- What has a slot is what is among the names. -/
theorem isSome_slotOf_iff : (slotOf entries name).isSome ↔ name ∈ entries.map (·.name) := by
  simp [slotOf]

end Definitions

/-! ## Operations -/

/-- Something that is done with exports objects, through handles. -/
inductive Operation (Handle : Type) where
  /-- Makes an object. -/
  | make
  /-- Defines a name of the object at a handle, as a value or by a getter. -/
  | define (handle : Handle) (name : String) (slot : Slot)
  /-- Assigns a variable that getters can read. -/
  | assign (cell : Cell) (value : Value)

/-- The definition that an operation makes in an object, when each handle stands for an object. -/
def Operation.definition? {Handle : Type} (object : Handle → ObjectId) (o : ObjectId) :
    Operation Handle → Option Entry
  | .define handle name slot => if object handle = o then some ⟨name, slot⟩ else none
  | _ => none

/-- The definitions that operations make in an object, through whatever handles. -/
def definitions {Handle : Type} (object : Handle → ObjectId) (o : ObjectId)
    (ops : List (Operation Handle)) : List Entry :=
  ops.filterMap (Operation.definition? object o)

namespace Heap

section Operations

variable {Handle : Type} {object : Handle → ObjectId} {h : Heap} {o : ObjectId} {name : String}
  {op : Operation Handle} {ops more : List (Operation Handle)} {c : Cell}

/-- Performs an operation. -/
def operate (object : Handle → ObjectId) (h : Heap) : Operation Handle → Heap
  | .make => h.allocate
  | .define handle name slot => h.define (object handle) name slot
  | .assign c v => h.assign c v

/-- The heap after operations. -/
def after (h : Heap) (object : Handle → ObjectId) (ops : List (Operation Handle)) : Heap :=
  ops.foldl (operate object) h

/-- Names are defined on objects that have been made. -/
def Admits (h : Heap) (object : Handle → ObjectId) : List (Operation Handle) → Prop
  | [] => True
  | op :: rest =>
    (∀ handle name slot, op = .define handle name slot → object handle < h.fresh) ∧
      (h.operate object op).Admits object rest

theorem after_append (h : Heap) (object : Handle → ObjectId) (ops more : List (Operation Handle)) :
    h.after object (ops ++ more) = (h.after object ops).after object more :=
  List.foldl_append

theorem admits_append :
    h.Admits object (ops ++ more) ↔
      h.Admits object ops ∧ (h.after object ops).Admits object more := by
  induction ops generalizing h with
  | nil => exact (iff_of_eq (true_and _)).symm
  | cons op rest ih =>
    show _ ∧ (h.operate object op).Admits object (rest ++ more) ↔ _
    rw [ih, ← and_assoc]
    rfl

/-- An operation changes an object by the definition that it makes in it. -/
theorem entries_operate
    (hop : ∀ handle name slot, op = .define handle name slot → object handle < h.fresh) :
    (h.operate object op).entries o =
      defineAll (h.entries o) (op.definition? object o).toList := by
  cases op with
  | make => exact entries_allocate h o
  | assign c v => rfl
  | define handle name slot =>
    have hmade : object handle < h.fresh := hop handle name slot rfl
    show (h.define (object handle) name slot).entries o = _
    rw [entries_define name slot hmade]
    by_cases ho : o = object handle
    · simp [ho, Operation.definition?, defineAll]
    · simp [ho, Ne.symm ho, Operation.definition?, defineAll]

/-- Operations change an object by the definitions that they make in it, and by nothing else. -/
theorem entries_after (hops : h.Admits object ops) :
    (h.after object ops).entries o = defineAll (h.entries o) (definitions object o ops) := by
  induction ops generalizing h with
  | nil => rfl
  | cons op rest ih =>
    have hcons : definitions object o (op :: rest) =
        (op.definition? object o).toList ++ definitions object o rest := by
      unfold definitions
      cases hop : op.definition? object o <;> simp [hop]
    show ((h.operate object op).after object rest).entries o = _
    rw [ih hops.2, entries_operate hops.1, hcons, defineAll_append]

/-- A variable holds what it held until it is assigned. -/
theorem cell?_after_of_unassigned (h : Heap) (hops : ∀ v, .assign c v ∉ ops) :
    (h.after object ops).cell? c = h.cell? c := by
  induction ops generalizing h with
  | nil => rfl
  | cons op rest ih =>
    have hrest : ∀ v, .assign c v ∉ rest := fun v hv => hops v (List.mem_cons_of_mem _ hv)
    show ((h.operate object op).after object rest).cell? c = h.cell? c
    rw [ih _ hrest]
    cases op with
    | make => rfl
    | define handle name slot => rfl
    | assign other v =>
      have hne : other ≠ c := by
        rintro rfl
        exact hops v List.mem_cons_self
      show (h.assign other v).cell? c = h.cell? c
      simp [cell?, Heap.assign, hne]

end Operations

/-! ## What is seen of an object -/

/-- What is asked about the names of an object is answered from a list of names. -/
structure Lists (h : Heap) (o : ObjectId) (names : List String) : Prop where
  names_eq : Inspection.names.of h o = .array (names.map .string)
  size_eq : Inspection.size.of h o = .number names.length 0
  isEmpty_eq : Inspection.isEmpty.of h o = .boolean names.isEmpty
  has_eq : ∀ key, (Inspection.has key).of h o = .boolean (names.contains key)
  /-- The contents have these names, each with what it reads as. -/
  snapshot_eq : Inspection.snapshot.of h o =
    .object (names.map fun name => (name, h.getOrNull o name))
  /-- A name that is not listed has no slot. -/
  slot_iff : ∀ key, (slotOf (h.entries o) key).isSome ↔ key ∈ names

theorem lists_names (h : Heap) (o : ObjectId) : h.Lists o (h.names o) :=
  ⟨rfl, rfl, rfl, fun _ => rfl, rfl, fun _ => isSome_slotOf_iff⟩

/-- What a slot reads as at the moment. -/
def now (h : Heap) : Slot → Reading
  | .plain v => .value v
  | .reads c => (h.cell? c).elim .absent .value
  | .forwards o name => h.get o name

/-- A name reads as its slot does. -/
theorem get_eq_now {h : Heap} {o : ObjectId} {name : String} {slot : Slot}
    (hslot : slotOf (h.entries o) name = some slot) : h.get o name = h.now slot := by
  cases slot with
  | plain v => exact get_of_plain (p := (o, name)) hslot
  | reads c => exact get_of_reads (p := (o, name)) hslot
  | forwards target key =>
    have hnext : h.Forwards (o, name) (target, key) := hslot
    exact (Trail.forward hnext (.arrived _)).get_eq

/-! ## What operations have made -/

section Reflects

variable {Handle : Type} {object : Handle → ObjectId} {o : ObjectId} {name : String} {slot : Slot}
  {ops : List (Operation Handle)}

theorem exists_of_mem_definitions {d : Entry} (hd : d ∈ definitions object o ops) :
    ∃ handle, object handle = o ∧ .define handle d.name d.slot ∈ ops := by
  obtain ⟨op, hop, hdefines⟩ := List.mem_filterMap.1 hd
  cases op with
  | make => cases hdefines
  | assign c v => cases hdefines
  | define handle name slot =>
    obtain ⟨ho, hentry⟩ := Option.ite_none_right_eq_some.1 hdefines
    cases hentry
    exact ⟨handle, ho, hop⟩

theorem definitions_eq_nil (hops : ∀ handle name slot, .define handle name slot ∈ ops →
    object handle ≠ o) : definitions object o ops = [] := by
  refine List.eq_nil_iff_forall_not_mem.2 fun d hd => ?_
  obtain ⟨handle, ho, hmem⟩ := exists_of_mem_definitions hd
  exact hops handle d.name d.slot hmem ho

/-- A heap is what operations through handles have made of nothing. -/
structure Reflects (h : Heap) (object : Handle → ObjectId) (ops : List (Operation Handle)) :
    Prop where
  /-- The names of an object are those defined on it through any handle, each once, in the order of
  their first definition, and whatever is asked about them agrees with that. -/
  lists : ∀ o, ∃ names,
    FirstAppearances ((definitions object o ops).map (·.name)) names ∧ h.Lists o names
  /-- The last definition of a name, through any handle of the object, gives its slot, and the name
  reads as that slot does now. -/
  last : ∀ {before after handle name slot},
    ops = before ++ .define handle name slot :: after →
    (∀ other found, .define other name found ∈ after → object other ≠ object handle) →
      slotOf (h.entries (object handle)) name = some slot ∧
        h.get (object handle) name = h.now slot
  /-- A name that was not defined on an object is absent there. -/
  undefined : ∀ {o name}, (∀ handle slot, .define handle name slot ∈ ops → object handle ≠ o) →
    slotOf (h.entries o) name = none ∧ h.get o name = .absent
  /-- The last assignment of a variable gives its value. -/
  assigned : ∀ {before after c v}, ops = before ++ .assign c v :: after →
    (∀ other, .assign c other ∉ after) → h.cell? c = some v
  unassigned : ∀ {c}, (∀ v, .assign c v ∉ ops) → h.cell? c = none
  /-- Operations on other objects leave an object as it was. -/
  apart : ∀ {before after o}, ops = before ++ after →
    (∀ handle name slot, .define handle name slot ∈ after → object handle ≠ o) →
      h.entries o = (empty.after object before).entries o

theorem entries_empty (o : ObjectId) : empty.entries o = [] := by
  simp [entries, empty]

/-- The entries of an object are what its definitions make of nothing. -/
theorem entries_after_empty (hops : empty.Admits object ops) :
    (empty.after object ops).entries o = defineAll [] (definitions object o ops) := by
  rw [entries_after hops, entries_empty]

theorem reflects_after (hops : empty.Admits object ops) :
    (empty.after object ops).Reflects object ops where
  lists o := by
    refine ⟨(empty.after object ops).names o, ?_, lists_names _ o⟩
    unfold names
    rw [entries_after_empty hops]
    exact names_defineAll _
  last {before after handle name slot} hsplit hafter := by
    have hslot : slotOf ((empty.after object ops).entries (object handle)) name =
        some slot := by
      have hdefinitions : definitions object (object handle) ops =
          definitions object (object handle) before ++
            ⟨name, slot⟩ :: definitions object (object handle) after := by
        simp [definitions, hsplit, Operation.definition?]
      rw [entries_after_empty hops, hdefinitions]
      refine slotOf_defineAll_of_last (d := ⟨name, slot⟩) [] _ fun e he hname => ?_
      obtain ⟨other, ho, hmem⟩ := exists_of_mem_definitions he
      have hname : e.name = name := hname
      exact hafter other e.slot (hname ▸ hmem) ho
    exact ⟨hslot, get_eq_now hslot⟩
  undefined {o name} hnone := by
    have hslot : slotOf ((empty.after object ops).entries o) name = none := by
      rw [entries_after_empty hops]
      refine slotOf_defineAll_of_ne [] fun e he hname => ?_
      obtain ⟨handle, ho, hmem⟩ := exists_of_mem_definitions he
      exact hnone handle e.slot (hname ▸ hmem) ho
    exact ⟨hslot, get_of_missing (p := (o, name)) hslot⟩
  assigned {before after c v} hsplit hafter := by
    rw [hsplit, after_append]
    show (((empty.after object before).assign c v).after object after).cell? c = some v
    rw [cell?_after_of_unassigned _ hafter, cell?_assign_self]
  unassigned hnone := cell?_after_of_unassigned _ hnone
  apart {before after o} hsplit hafter := by
    rw [hsplit] at hops ⊢
    rw [after_append, entries_after (admits_append.1 hops).2, definitions_eq_nil hafter]
    rfl

end Reflects

/-! ## What a loader makes -/

/-- The heap is made by operations. -/
def Made (h : Heap) : Prop :=
  ∃ ops : List (Operation ObjectId), empty.Admits id ops ∧ h = empty.after id ops

namespace Made

variable {h : Heap}

theorem empty : Made Heap.empty := ⟨[], trivial, rfl⟩

theorem operate (hh : h.Made) (op : Operation ObjectId)
    (hop : ∀ o name slot, op = .define o name slot → o < h.fresh) : (h.operate id op).Made := by
  obtain ⟨ops, hops, rfl⟩ := hh
  refine ⟨ops ++ [op], admits_append.2 ⟨hops, hop, trivial⟩, ?_⟩
  rw [after_append]
  rfl

theorem allocate (hh : h.Made) : h.allocate.Made :=
  hh.operate .make fun _ _ _ heq => by cases heq

theorem define (hh : h.Made) {o : ObjectId} (ho : o < h.fresh) (name : String) (slot : Slot) :
    (h.define o name slot).Made :=
  hh.operate (.define o name slot) fun _ _ _ heq => by cases heq; exact ho

theorem assign (hh : h.Made) (c : Cell) (v : Value) : (h.assign c v).Made :=
  hh.operate (.assign c v) fun _ _ _ heq => by cases heq

end Made

end Heap

open World

/-- A way to require performs operations. -/
def Making (requiring : Requiring) : Prop :=
  ∀ id w, initial.Extends w → w.heap.Made → (requiring id w).2.heap.Made

namespace Frame

variable {requiring : Requiring} {f : Frame} {w : World}

/-- A statement that requires a module does to the heap what the require does. -/
theorem heap_step_of_requested (requiring : Requiring) (f : Frame) (w : World) {s : Statement}
    {specifier : String} (h : s.requested = some specifier) :
    (f.step requiring w s).2.heap = (f.requireSpecifier requiring specifier w).2.heap := by
  cases s with
  | require other handle =>
    cases h
    unfold step
    dsimp only
    split <;> rename_i heq <;> rw [heq]
  | attempt other handle =>
    cases h
    unfold step
    dsimp only
    split <;> rename_i heq <;> rw [heq]
    rfl
  | _ => cases h

theorem object_made (f : Frame) (handle : String) (hmade : w.heap.Made) :
    (f.object handle w).2.heap.Made := by
  unfold object
  split
  · exact hmade
  · exact hmade.allocate

/-- A statement performs operations, if requiring does. -/
theorem step_made (hr : Making requiring) (hw : initial.Extends w) (hf : f.Since initial w)
    (hmade : w.heap.Made) (s : Statement) : (f.step requiring w s).2.heap.Made := by
  have hspecifier : ∀ specifier, (f.requireSpecifier requiring specifier w).2.heap.Made := by
    intro specifier
    unfold requireSpecifier
    split
    · exact hmade
    · exact hr _ w hw hmade
  cases s with
  | set name value => exact hmade.define hf.exports.2 name _
  | alter handle name value =>
    obtain ⟨-, ho⟩ := object_since hw hf handle
    exact (object_made f handle hmade).define ho.2 name _
  | assign cell value => exact hmade.assign _ value
  | getter name cell => exact hmade.define hf.exports.2 name _
  | forward name handle key =>
    obtain ⟨hv, -⟩ := object_since hw hf handle
    exact (object_made f handle hmade).define (hf.exports.later hv.later).2 name _
  | require specifier handle =>
    rw [heap_step_of_requested requiring f w rfl]
    exact hspecifier specifier
  | attempt specifier handle =>
    rw [heap_step_of_requested requiring f w rfl]
    exact hspecifier specifier
  | inspect name handle what =>
    obtain ⟨hv, -⟩ := object_since hw hf handle
    exact (object_made f handle hmade).define (hf.exports.later hv.later).2 name _
  | same name first second =>
    obtain ⟨hv, -⟩ := object_since hw hf first
    obtain ⟨hu, -⟩ := object_since hv.world (hf.later hv.later) second
    have hboth := object_made f second (object_made f first hmade)
    exact hboth.define (hf.exports.later (hv.later.trans hu.later)).2 name _
  | phase name id => exact hmade.define hf.exports.2 name _
  | importer name => exact hmade.define hf.exports.2 name _
  | log line => exact hmade
  | throw message => exact hmade
  | throwFirst message times =>
    unfold step
    dsimp only
    split <;> exact hmade

/-- And so does a body. -/
theorem run_made (hc : Confined initial requiring) (hr : Making requiring)
    (hw : initial.Extends w) (hf : f.Since initial w) (hmade : w.heap.Made)
    (body : List Statement) : (f.run requiring body w).2.heap.Made := by
  induction body generalizing f w with
  | nil => exact hmade
  | cons s rest ih =>
    have hfirst := step_made hr hw hf hmade s
    obtain ⟨hv, hnext⟩ := step_confined hc hw hf s
    unfold run
    split <;> rename_i heq <;> rw [heq] at hfirst hv hnext
    · exact ih hv.world (hnext _ rfl) hfirst
    · exact hfirst

end Frame

/-- A require performs operations, by induction on how many bodies can be within each other. -/
theorem requireWithin_made (r : Registry) (n : Nat) : Making (requireWithin r n) := by
  induction n with
  | zero =>
    intro id w _ hmade
    exact hmade
  | succ n ih =>
    intro id w hw hmade
    have hbody : ∀ m : Registered,
        ((w.enter m).1.run (requireWithin r n) m.body (w.enter m).2).2.heap.Made := by
      intro m
      obtain ⟨hentered, hframe⟩ := hw.enter m
      have hbegun : (w.enter m).2.heap.Made := hmade.allocate
      exact Frame.run_made (requireWithin_confined initial r n) ih hentered.world hframe hbegun _
    rcases requireWithin_cases r n id w with ⟨phase, -, heq⟩ | ⟨-, -, heq⟩ |
      ⟨m, u, -, -, hrun, heq⟩ | ⟨m, e, u, -, -, hrun, heq⟩ <;> rw [heq]
    · exact hmade
    · exact hmade
    · have hdone := hbody m
      rw [hrun] at hdone
      exact hdone
    · have hdone := hbody m
      rw [hrun] at hdone
      exact hdone

/-- At every point of a require, the heap is made by operations. -/
theorem Registry.Passes.made {r : Registry} {w : World} {id : ModuleId} {p : Point}
    (hw : initial.Extends w) (hmade : w.heap.Made) (hp : r.Passes w id p) :
    p.world.heap.Made := by
  induction hp with
  | enter => exact hmade.allocate
  | @next waiting f f' s rest v v' hbefore hstep ih =>
    obtain ⟨hv, hframes⟩ := hbefore.confined hw
    have hnext := Frame.step_made (requireWithin_made r (r.modules.length - waiting.length)) hv
      (hframes f List.mem_cons_self) ih s
    unfold Point.requiring at hstep
    rw [hstep] at hnext
    exact hnext
  | nested _ _ _ _ _ ih => exact ih.allocate

theorem Session.Reachable.made {s : Session} (hs : s.Reachable) : s.world.heap.Made := by
  induction hs with
  | start registry log => exact .empty
  | @call s c hbefore ih =>
    rw [call_world]
    exact requireWithin_made s.registry _ _ s.world hbefore.confined.1 ih
  | @set s id key value hbefore ih =>
    unfold Session.set
    split
    · exact ih
    · rename_i o hobject
      obtain ⟨k, hfound, rfl⟩ := Option.map_eq_some_iff.1 hobject
      exact ih.define (hbefore.confined.2 k (List.mem_of_find?_eq_some hfound)).2 key _
  | restart _ ih => exact ih
  | takeLog _ ih => exact ih

theorem World.Reachable.made {w : World} (hw : w.Reachable) : w.heap.Made := by
  cases hw with
  | between hs => exact hs.made
  | within hs hp => exact hp.made hs.confined.1 hs.made

/-- A heap reflects the operations through handles that have made it: names are listed in the order
of their first definition, the last definition of a name decides what it reads as, and objects do
not interfere.  In every world that a loader comes to, the heap is made by operations. -/
theorem Heap.reflects_operations :
    (∀ (Handle : Type) (object : Handle → ObjectId) (ops : List (Operation Handle)),
      empty.Admits object ops → (empty.after object ops).Reflects object ops) ∧
    ∀ w : World, w.Reachable →
      ∃ ops : List (Operation ObjectId), empty.Admits id ops ∧ w.heap = empty.after id ops :=
  ⟨fun _ _ _ hops => reflects_after hops, fun _ hw => hw.made⟩

/-- The handles `first` and `alias` stand for one object, the handle `other` for the next one. -/
def sharedHandles (handle : String) : ObjectId := if handle = "other" then 1 else 0

/-- The names `x` and `y` are defined through one handle; then `x` is defined again through its
alias, as what `x` reads as on the other object, where it is defined after that. -/
def sharedOperations : List (Operation String) :=
  [.make, .make, .define "first" "x" (.plain (.boolean true)),
    .define "first" "y" (.reads ⟨0, "v"⟩), .define "alias" "x" (.forwards 1 "x"),
    .assign ⟨0, "v"⟩ (.string "ready"), .define "other" "x" (.plain .null)]

theorem sharedOperations_reflected :
    let h := Heap.empty.after sharedHandles sharedOperations
    Heap.empty.Admits sharedHandles sharedOperations ∧ h.Lists 0 ["x", "y"] ∧
      h.get 0 "x" = .value .null ∧ h.get 0 "y" = .value (.string "ready") ∧
      h.get 1 "y" = .absent ∧ World.relay.Reachable ∧
      ∃ ops : List (Operation ObjectId),
        Heap.empty.Admits id ops ∧ World.relay.heap = Heap.empty.after id ops := by
  have hsame (h : Heap) (c : Cell) (v : Value) : (h.assign c v).fresh = h.fresh := rfl
  have hadmits : Heap.empty.Admits sharedHandles sharedOperations := by
    simp [sharedOperations, sharedHandles, Heap.Admits, Heap.operate, hsame]
  obtain ⟨hall, hmade⟩ := Heap.reflects_operations
  have h := hall _ sharedHandles sharedOperations hadmits
  have hlisted : FirstAppearances ["x", "y", "x"] ["x", "y"] :=
    ((FirstAppearances.singleton "x").add (by simp)).skip (by simp)
  obtain ⟨names, hnames, hlists⟩ := h.lists 0
  obtain rfl : names = ["x", "y"] := hnames.eq hlisted
  -- the alias has the last word on `x`, and what it forwards to has changed since
  have halias : sharedOperations = sharedOperations.take 4 ++
      .define "alias" "x" (.forwards 1 "x") :: sharedOperations.drop 5 := rfl
  have hother : sharedOperations = sharedOperations.take 6 ++
      .define "other" "x" (.plain .null) :: [] := rfl
  have hx : (Heap.empty.after sharedHandles sharedOperations).get 0 "x" = _ :=
    (h.last halias (by simp [sharedOperations, sharedHandles])).2
  have hfirst : sharedOperations = sharedOperations.take 3 ++
      .define "first" "y" (.reads ⟨0, "v"⟩) :: sharedOperations.drop 4 := rfl
  have hassign : sharedOperations = sharedOperations.take 5 ++
      .assign ⟨0, "v"⟩ (.string "ready") :: sharedOperations.drop 6 := rfl
  have hy : (Heap.empty.after sharedHandles sharedOperations).get 0 "y" = _ :=
    (h.last hfirst (by simp [sharedOperations, sharedHandles])).2
  have hrelay : World.relay.Reachable := .between (.call .run (.start _ _))
  refine ⟨hadmits, hlists, hx.trans (h.last hother (by simp)).2, ?_, ?_, hrelay,
    hmade _ hrelay⟩
  · rw [hy, Heap.now, h.assigned hassign (by simp [sharedOperations])]
    rfl
  · exact (h.undefined (by simp [sharedOperations, sharedHandles])).2

end ModuleBundler.Loader
