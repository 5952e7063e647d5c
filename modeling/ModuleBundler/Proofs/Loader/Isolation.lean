import ModuleBundler.Proofs.Loader.Confinement

/-!
# Loaders over one registry are isolated

A loader that begins where another one has ended does what it would do alone.  Its objects and
executions have other numbers, as if its world stood beside the world of the other one
(`World.beside`).

* `World.define_beside`, `World.enter_beside` and the like — what is done in a world that stands
  beside another one does the same there;
* `Heap.get_beside` — what is read there is the same, because the variables of the other loader
  have smaller numbers;
* `Frame.step_beside` and `Frame.run_beside` — so a statement does the same, and so does a body, if
  none asks how often it was executed;
* `requireWithin_beside` — and so does a require, by induction on how many bodies can be within
  each other;
* **`Session.restart_isolated`** — so a new loader over the registry of an old one changes nothing of
  what that has made, gives none of its objects, and answers as if it had been the first.
-/

namespace ModuleBundler.Loader

open LoaderState

/-! ## Worlds beside each other -/

variable {w u : World} {f : Frame} {o : ObjectId}

/-- A variable, when executions are numbered from the end of a world on. -/
def Cell.beside (w : World) (c : Cell) : Cell := ⟨w.started.length + c.owner, c.name⟩

/-- A slot, when objects are numbered from there on as well. -/
def Slot.beside (w : World) : Slot → Slot
  | .plain value => .plain value
  | .reads c => .reads (c.beside w)
  | .forwards o name => .forwards (w.heap.fresh + o) name

def Entry.beside (w : World) (e : Entry) : Entry := ⟨e.name, e.slot.beside w⟩

def Phase.beside (w : World) : Phase → Phase
  | .loading o => .loading (w.heap.fresh + o)
  | .loaded o => .loaded (w.heap.fresh + o)

/-- An execution of a world that stands beside the world `w`. -/
def Frame.beside (w : World) (f : Frame) : Frame where
  module := f.module
  exports := w.heap.fresh + f.exports
  number := w.started.length + f.number
  attempt := w.started.count f.module.id + f.attempt
  handles := f.handles.map fun h => (h.1, w.heap.fresh + h.2)

/-- The world `u` beside the world `w`: all of both, with the numbers of `u` behind those of `w`,
and with the phases of `u`. -/
def World.beside (w u : World) : World where
  heap :=
    { objects := w.heap.objects ++ u.heap.objects.map (·.map (Entry.beside w))
      cells := u.heap.cells.map (fun c => (c.1.beside w, c.2)) ++ w.heap.cells }
  state := u.state.map fun entry => (entry.1, entry.2.beside w)
  log := w.log ++ u.log
  started := w.started ++ u.started

/-- The variables of a world have the numbers of its executions. -/
def World.Owned (w : World) : Prop := ∀ c ∈ w.heap.cells, c.1.owner < w.started.length

/-! ## What is there -/

namespace World

theorem fresh_beside (w u : World) :
    (w.beside u).heap.fresh = w.heap.fresh + u.heap.fresh := by
  simp [beside, Heap.fresh]

theorem entries_beside (w u : World) (o : ObjectId) :
    (w.beside u).heap.entries (w.heap.fresh + o) = (u.heap.entries o).map (Entry.beside w) := by
  simp only [beside, Heap.entries, Heap.fresh, List.getD_eq_getElem?_getD]
  rw [List.getElem?_append_right (Nat.le_add_right _ _), Nat.add_sub_cancel_left,
    List.getElem?_map]
  cases u.heap.objects[o]? <;> rfl

theorem names_beside (w u : World) (o : ObjectId) :
    (w.beside u).heap.names (w.heap.fresh + o) = u.heap.names o := by
  simp [Heap.names, entries_beside, Entry.beside, Function.comp_def]

theorem phase?_beside (w u : World) (id : ModuleId) :
    (w.beside u).state.phase? id = (u.state.phase? id).map (Phase.beside w) := by
  simp [beside, phase?, List.find?_map, Function.comp_def]

theorem cell?_beside (hw : w.Owned) (u : World) (c : Cell) :
    (w.beside u).heap.cell? (c.beside w) = u.heap.cell? c := by
  have hnone : w.heap.cells.find? (fun entry => entry.1 == c.beside w) = none := by
    rw [List.find?_eq_none]
    intro entry hentry heq
    have hsame : entry.1 = c.beside w := by simpa using heq
    have hlt : (c.beside w).owner < w.started.length := hsame ▸ hw entry hentry
    have hle : w.started.length ≤ (c.beside w).owner := Nat.le_add_right _ _
    omega
  have hcell : ∀ other : Cell, (other.beside w == c.beside w) = (other == c) := by
    intro other
    rw [Bool.eq_iff_iff]
    cases other
    cases c
    simp [Cell.beside]
  simp [beside, Heap.cell?, List.find?_append, hnone, List.find?_map, Function.comp_def, hcell]

end World

theorem slotOf_beside (w : World) (entries : List Entry) (name : String) :
    slotOf (entries.map (Entry.beside w)) name = (slotOf entries name).map (Slot.beside w) := by
  simp [slotOf, List.find?_map, Function.comp_def, Entry.beside]

theorem define_beside (w : World) (name : String) (slot : Slot) (entries : List Entry) :
    define name (slot.beside w) (entries.map (Entry.beside w)) =
      (define name slot entries).map (Entry.beside w) := by
  induction entries with
  | nil => rfl
  | cons e rest ih =>
    by_cases he : e.name = name
    · simp [define, he, Entry.beside]
    · simp only [define, List.map_cons, he, if_false]
      rw [← ih, if_neg (by exact he)]

/-- Changing an element and then mapping all of them. -/
theorem map_modify_of_comm {α β : Type} {change : α → α} {change' : β → β} {g : α → β} {n : Nat}
    {elements : List α} (h : ∀ a, g (change a) = change' (g a)) :
    (elements.modify n change).map g = (elements.map g).modify n change' := by
  refine List.ext_getElem? fun k => ?_
  by_cases hk : n = k
  · subst hk
    simp [h, Function.comp_def]
  · simp [hk]

/-! ## What is read there -/

namespace Heap

theorem read_beside (hw : w.Owned) (u : World) (n : Nat) (o : ObjectId) (name : String) :
    (w.beside u).heap.read n (w.heap.fresh + o) name = u.heap.read n o name := by
  induction n generalizing o name with
  | zero => rfl
  | succ n ih =>
    simp only [read, World.entries_beside, slotOf_beside]
    cases slotOf (u.heap.entries o) name with
    | none => rfl
    | some slot =>
      cases slot with
      | plain value => rfl
      | reads c => simp only [Option.map_some, Slot.beside, World.cell?_beside hw]
      | forwards target key => exact ih target key

theorem slotCount_beside_le (w u : World) : u.heap.slotCount ≤ (w.beside u).heap.slotCount := by
  simp [slotCount_eq_length, World.beside, List.length_flatten, Function.comp_def]

theorem get_beside (hw : w.Owned) (u : World) (o : ObjectId) (name : String) :
    (w.beside u).heap.get (w.heap.fresh + o) name = u.heap.get o name := by
  have hmany : u.heap.slotCount < (w.beside u).heap.slotCount + 1 :=
    Nat.lt_succ_of_le (slotCount_beside_le w u)
  rw [get, read_beside hw]
  exact read_eq_get hmany (o, name)

theorem snapshot_beside (hw : w.Owned) (u : World) (o : ObjectId) :
    (w.beside u).heap.snapshot (w.heap.fresh + o) = u.heap.snapshot o := by
  simp only [snapshot, getOrNull, World.names_beside, get_beside hw]

end Heap

theorem Inspection.of_beside (hw : w.Owned) (u : World) (o : ObjectId) (what : Inspection) :
    what.of (w.beside u).heap (w.heap.fresh + o) = what.of u.heap o := by
  cases what <;>
    simp only [Inspection.of, World.names_beside, Heap.snapshot_beside hw, Heap.getOrNull,
      Heap.get_beside hw]

/-! ## What is done there -/

namespace World

theorem define_beside (w u : World) (o : ObjectId) (name : String) (slot : Slot) :
    (w.beside u).define (w.heap.fresh + o) name (slot.beside w) =
      w.beside (u.define o name slot) := by
  have hback : (u.heap.objects.modify o (Loader.define name slot)).map (·.map (Entry.beside w)) =
      (u.heap.objects.map (·.map (Entry.beside w))).modify o
        (Loader.define name (slot.beside w)) :=
    map_modify_of_comm fun entries => (Loader.define_beside w name slot entries).symm
  have hobjects : (w.beside (u.define o name slot)).heap.objects =
      (w.beside u).heap.objects.modify (w.heap.objects.length + o)
        (Loader.define name (slot.beside w)) := by
    show w.heap.objects ++ _ = (w.heap.objects ++ _).modify _ _
    rw [modify_append_of_le _ (Nat.le_add_right _ _), Nat.add_sub_cancel_left]
    exact congrArg (w.heap.objects ++ ·) hback
  exact congrArg (fun objects => { w.beside u with heap := { (w.beside u).heap with objects } })
    hobjects.symm

theorem allocate_beside (w u : World) :
    { w.beside u with heap := (w.beside u).heap.allocate } =
      w.beside { u with heap := u.heap.allocate } := by
  simp [beside, Heap.allocate]

theorem say_beside (w u : World) (line : String) :
    (w.beside u).say line = w.beside (u.say line) := by
  simp [beside, say]

theorem put_beside (w u : World) (id : ModuleId) (phase : Phase) :
    { w.beside u with state := (w.beside u).state.put id (phase.beside w) } =
      w.beside { u with state := u.state.put id phase } := by
  simp [beside, LoaderState.put, LoaderState.erase, List.filter_map, Function.comp_def]

theorem erase_beside (w u : World) (id : ModuleId) :
    { w.beside u with state := (w.beside u).state.erase id } =
      w.beside { u with state := u.state.erase id } := by
  simp [beside, LoaderState.erase, List.filter_map, Function.comp_def]

theorem enter_beside (w u : World) (m : Registered) :
    (w.beside u).enter m = ((u.enter m).1.beside w, w.beside (u.enter m).2) := by
  refine Prod.ext ?_ ?_
  · simp only [enter, Frame.beside, fresh_beside]
    simp [beside]
  · simp [enter, beside, Heap.allocate, Heap.fresh, LoaderState.put, LoaderState.erase,
      List.filter_map, Function.comp_def, Phase.beside]

end World

/-! ## What a body does there -/

theorem phaseWord_beside (w : World) (phase : Option Phase) :
    phaseWord (phase.map (Phase.beside w)) = phaseWord phase := by
  rcases phase with _ | _ | _ <;> rfl

/-- A way to require does the same beside the world `w`. -/
def Moved (w : World) (requiring : Requiring) : Prop :=
  ∀ id u, requiring id (w.beside u) =
    ((requiring id u).1.map (w.heap.fresh + ·), w.beside (requiring id u).2)

/-- The statement does not ask how often its body was executed. -/
def Statement.Countless (s : Statement) : Prop :=
  ∀ message times, s ≠ .throwFirst message times

namespace Frame

variable {requiring : Requiring}

theorem object_beside (w : World) (f : Frame) (handle : String) (u : World) :
    (f.beside w).object handle (w.beside u) =
      (w.heap.fresh + (f.object handle u).1, w.beside (f.object handle u).2) := by
  simp only [object, beside, List.find?_map, Function.comp_def]
  cases f.handles.find? fun h => h.1 == handle with
  | some h => rfl
  | none =>
    simp only [Option.map_none]
    rw [World.fresh_beside, World.allocate_beside]

theorem requireSpecifier_beside (hr : Moved w requiring) (f : Frame) (specifier : String)
    (u : World) : (f.beside w).requireSpecifier requiring specifier (w.beside u) =
      ((f.requireSpecifier requiring specifier u).1.map (w.heap.fresh + ·),
        w.beside (f.requireSpecifier requiring specifier u).2) := by
  simp only [requireSpecifier, beside]
  cases targetOf f.module.imports specifier with
  | none => rfl
  | some target => exact hr target u

/-- A statement does the same beside another world. -/
theorem step_beside (hw : w.Owned) (hr : Moved w requiring) (f : Frame) (u : World)
    {s : Statement} (hs : s.Countless) :
    (f.beside w).step requiring (w.beside u) s =
      ((f.step requiring u s).1.map (Frame.beside w), w.beside (f.step requiring u s).2) := by
  have hgoes : ∀ {v v' : World}, v = w.beside v' →
      ((.ok (f.beside w), v) : Except RunFailure Frame × World) =
        ((.ok f : Except RunFailure Frame).map (Frame.beside w), w.beside v') :=
    fun heq => congrArg (Prod.mk _) heq
  cases s with
  | set name value => exact hgoes (World.define_beside w u f.exports name (.plain value))
  | alter handle name value =>
    simp only [step, object_beside]
    exact hgoes (World.define_beside w _ _ name (.plain value))
  | assign cell value => rfl
  | getter name cell =>
    exact hgoes (World.define_beside w u f.exports name (.reads ⟨f.number, cell⟩))
  | forward name handle key =>
    simp only [step, object_beside]
    exact hgoes (World.define_beside w _ f.exports name (.forwards _ key))
  | require specifier handle =>
    simp only [step, requireSpecifier_beside hr]
    rcases f.requireSpecifier requiring specifier u with ⟨_ | _, _⟩ <;> rfl
  | attempt specifier handle =>
    simp only [step, requireSpecifier_beside hr]
    rcases f.requireSpecifier requiring specifier u with ⟨_ | _, v⟩
    · exact hgoes (World.say_beside w v _)
    · rfl
  | inspect name handle what =>
    simp only [step, object_beside, Inspection.of_beside hw]
    exact hgoes (World.define_beside w _ f.exports name (.plain _))
  | same name first second =>
    have hsame : ∀ a b : ObjectId, (w.heap.fresh + a == w.heap.fresh + b) = (a == b) := by
      intro a b
      simp
    simp only [step, object_beside, hsame]
    exact hgoes (World.define_beside w _ f.exports name (.plain _))
  | phase name id =>
    simp only [step, World.phase?_beside, phaseWord_beside]
    exact hgoes (World.define_beside w u f.exports name (.plain _))
  | importer name => exact hgoes (World.define_beside w u f.exports name (.plain _))
  | log line => exact hgoes (World.say_beside w u line)
  | throw message => rfl
  | throwFirst message times => exact absurd rfl (hs message times)

theorem run_beside (hw : w.Owned) (hr : Moved w requiring) (f : Frame) (u : World)
    {body : List Statement} (hbody : ∀ s ∈ body, s.Countless) :
    (f.beside w).run requiring body (w.beside u) =
      ((f.run requiring body u).1, w.beside (f.run requiring body u).2) := by
  induction body generalizing f u with
  | nil => rfl
  | cons s rest ih =>
    have hstep := step_beside hw hr f u (hbody s List.mem_cons_self)
    simp only [run, hstep]
    rcases f.step requiring u s with ⟨_ | f', v⟩
    · rfl
    · exact ih f' v fun k hk => hbody k (List.mem_cons_of_mem _ hk)

end Frame

/-- No body of the registry asks how often it was executed. -/
def Registry.Countless (r : Registry) : Prop := ∀ m ∈ r.modules, ∀ s ∈ m.body, s.Countless

/-- A body that a require runs does the same beside another world, if requiring does. -/
theorem run_enter_beside {r : Registry} (hr : r.Countless) (hw : w.Owned) {requiring : Requiring}
    (hrequiring : Moved w requiring) {id : ModuleId} {m : Registered} (hm : r.get? id = some m)
    (u : World) :
    ((w.beside u).enter m).1.run requiring m.body ((w.beside u).enter m).2 =
      (((u.enter m).1.run requiring m.body (u.enter m).2).1,
        w.beside ((u.enter m).1.run requiring m.body (u.enter m).2).2) := by
  rw [World.enter_beside]
  exact Frame.run_beside hw hrequiring _ _ (hr m (Registry.mem_of_get? hm))

/-- A require does the same beside another world. -/
theorem requireWithin_beside {r : Registry} (hr : r.Countless) (hw : w.Owned) (n : Nat) :
    Moved w (requireWithin r n) := by
  induction n with
  | zero =>
    intro id u
    rfl
  | succ n ih =>
    intro id u
    have hphase := World.phase?_beside w u id
    rcases requireWithin_cases r n id u with ⟨phase, hfound, heq⟩ | ⟨hnone, hm, heq⟩ |
      ⟨m, v, hnone, hm, hrun, heq⟩ | ⟨m, e, v, hnone, hm, hrun, heq⟩ <;> rw [heq]
    · rw [hfound] at hphase
      rw [requireWithin_of_phase hphase]
      cases phase <;> rfl
    · rw [hnone] at hphase
      rw [requireWithin_of_unknown hphase hm]
      rfl
    · rw [hnone] at hphase
      have hbody := run_enter_beside hr hw ih hm u
      rw [hrun] at hbody
      rw [requireWithin_of_run_ok hphase hm hbody, World.enter_beside]
      exact congrArg (Prod.mk _) (World.put_beside w v id (.loaded (u.enter m).1.exports))
    · rw [hnone] at hphase
      have hbody := run_enter_beside hr hw ih hm u
      rw [hrun] at hbody
      rw [requireWithin_of_run_error hphase hm hbody]
      exact congrArg (Prod.mk _) (World.erase_beside w v id)

/-! ## Sessions -/

namespace Session

theorem owned_of_extends (h : World.initial.Extends w) : w.Owned := by
  obtain ⟨new, hnew, howned⟩ := h.cells
  intro c hc
  rw [hnew] at hc
  simp only [World.initial, Heap.empty, List.append_nil] at hc
  exact (howned c hc).2

/-- A new loader stands beside the world of the old one. -/
theorem restart_beside (s : Session) : s.restart.world = s.world.beside World.initial := by
  simp [restart, World.beside, World.initial, Heap.empty]

/-- So it answers as it would alone. -/
theorem call_beside {s t : Session} (hr : s.registry.Countless) (hw : w.Owned)
    (hregistry : t.registry = s.registry) (hworld : t.world = w.beside s.world) (c : Call) :
    (t.call c).1.map (·.object) = ((s.call c).1.map (·.object)).map (w.heap.fresh + ·) ∧
      (t.call c).2.world = w.beside (s.call c).2.world := by
  rw [call_object, call_object, call_world, call_world, hregistry, hworld]
  have hrequire := requireWithin_beside hr hw (s.registry.modules.length + 1)
    (c.target s.registry) s.world
  exact Prod.ext_iff.1 hrequire

theorem callAll_beside {s t : Session} (hr : s.registry.Countless) (hw : w.Owned)
    (hregistry : t.registry = s.registry) (hworld : t.world = w.beside s.world)
    (calls : List Call) : (t.callAll calls).world = w.beside (s.callAll calls).world := by
  unfold callAll
  induction calls generalizing s t with
  | nil => exact hworld
  | cons c rest ih =>
    have hcall := (call_beside hr hw hregistry hworld c).2
    refine ih ?_ ?_ hcall
    · rw [call_registry]
      exact hr
    · rw [call_registry, call_registry, hregistry]

/-- A new loader over the registry of an old one leaves the old objects and all that is read from
them as they were, and gives other objects.  If no body asks how often it was executed, it answers
as if it had been the first, with objects that are numbered from the end of the old ones on: its
phases, its log and what its objects hold are the same. -/
theorem restart_isolated (registry : Registry) (log : List String) (earlier calls : List Call) :
    let first := (start registry log).callAll earlier
    let second := first.restart.callAll calls
    let alone := (start registry []).callAll calls
    let moved := (first.world.heap.fresh + ·)
    (∀ o, o < first.world.heap.fresh →
      second.world.heap.entries o = first.world.heap.entries o ∧
      ∀ name, second.world.heap.get o name = first.world.heap.get o name) ∧
    (∀ o, first.restart.Returns calls o → ¬ (start registry log).Returns earlier o) ∧
    (registry.Countless →
      (∀ c, (second.call c).1.map (·.object) = ((alone.call c).1.map (·.object)).map moved) ∧
      (∀ id, second.world.state.phase? id =
        (alone.world.state.phase? id).map (Phase.beside first.world)) ∧
      (∀ o, second.world.heap.snapshot (moved o) = alone.world.heap.snapshot o) ∧
      second.world.log = first.world.log ++ alone.world.log) := by
  intro first second alone moved
  have hfirst : World.initial.Extends first.world :=
    (callAll_confined (extends_start registry log) earlier).world
  have hrestart := extends_restart first
  have hsecond : first.world.Extends second.world := (callAll_confined hrestart calls).world
  refine ⟨fun o ho => ⟨hsecond.entries_eq ho, hsecond.get_eq hfirst ho⟩, ?_, fun hr => ?_⟩
  · intro o hsecond hearlier
    have hge := (hsecond.madeSince hrestart).1
    have hlt := (hearlier.madeSince (extends_start registry log)).2
    exact absurd hlt (Nat.not_lt.2 hge)
  · have hw := owned_of_extends hfirst
    have hregistry : first.restart.registry = (start registry []).registry :=
      callAll_registry _ earlier
    have hworld := callAll_beside hr hw hregistry (restart_beside first) calls
    have hboth : second.registry = alone.registry := by
      show (first.restart.callAll calls).registry = ((start registry []).callAll calls).registry
      rw [callAll_registry, callAll_registry, hregistry]
    have halone : alone.registry.Countless := by
      show ((start registry []).callAll calls).registry.Countless
      rw [callAll_registry]
      exact hr
    have hsame : second.world = first.world.beside alone.world := hworld
    refine ⟨fun c => (call_beside halone hw hboth hsame c).1, ?_, ?_, ?_⟩
    · rw [hsame]
      exact World.phase?_beside _ _
    · rw [hsame]
      exact Heap.snapshot_beside hw _
    · rw [hsame]
      rfl

/-- Two modules in a cycle: `a` exports a variable, and `b` forwards to it and changes the exports
of `a`. -/
def pairRegistry : Registry :=
  ⟨.ofPath "a",
    [⟨.ofPath "a", [⟨"./b", .ofPath "b"⟩],
        [.assign "x" .null, .getter "v" "x", .require "./b" "b", .set "done" (.boolean true)]⟩,
      ⟨.ofPath "b", [⟨"./a", .ofPath "a"⟩],
        [.require "./a" "a", .forward "w" "a" "v", .alter "a" "done" (.boolean false)]⟩]⟩

theorem pairRegistry_isolated :
    let first := (start pairRegistry []).callAll [.run]
    pairRegistry.Countless ∧ (start pairRegistry []).Returns [.run] 0 ∧
      (∀ name, (first.restart.callAll [.run]).world.heap.get 0 name =
        first.world.heap.get 0 name) ∧
      ((first.restart.callAll [.run]).call .run).1.map (·.object) = .ok 2 ∧
      (first.restart.callAll [.run]).world.log =
        ["exec /a", "exec /b", "exec /a", "exec /b"] := by
  have hcountless : pairRegistry.Countless := by
    simp [Registry.Countless, pairRegistry, Statement.Countless]
  obtain ⟨hkept, -, hsame⟩ := restart_isolated pairRegistry [] [.run] [.run]
  obtain ⟨hanswers, -, -, hlog⟩ := hsame hcountless
  exact ⟨hcountless, ⟨[], .run, [], rfl, rfl⟩, (hkept 0 (by decide)).2, hanswers .run,
    hlog.trans (by decide +kernel)⟩

end Session

end ModuleBundler.Loader
