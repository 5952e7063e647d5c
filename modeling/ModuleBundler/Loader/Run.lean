import ModuleBundler.Loader.Heap
import ModuleBundler.Loader.Registry

/-!
# Running modules

Requiring a module runs its body once and keeps its exports.  While the body runs the module is
`loading`, and requiring it again gives the exports made so far; afterwards it is `loaded`.  When
the body fails the module is forgotten, so that a later require runs it anew.

A `World` is everything that a run changes: the heap, the phases of modules, the lines logged, and
which executions were started.  `require` is `requireWithin` with room for as many nested bodies
as modules are registered, which is enough because a running body is never started again.
-/

namespace ModuleBundler.Loader

/-! ## Worlds -/

/-- How far a module is loaded. -/
inductive Phase where
  | loading (exports : ObjectId)
  | loaded (exports : ObjectId)
deriving DecidableEq

def Phase.exports : Phase → ObjectId
  | .loading o => o
  | .loaded o => o

/-- The phases of modules; a module without a phase is not loaded. -/
abbrev LoaderState := List (ModuleId × Phase)

def LoaderState.phase? (s : LoaderState) (id : ModuleId) : Option Phase :=
  (s.find? fun entry => entry.1 == id).map (·.2)

def LoaderState.erase (s : LoaderState) (id : ModuleId) : LoaderState :=
  s.filter fun entry => entry.1 != id

def LoaderState.put (s : LoaderState) (id : ModuleId) (phase : Phase) : LoaderState :=
  s.erase id ++ [(id, phase)]

def phaseWord : Option Phase → String
  | none => "unloaded"
  | some (.loading _) => "loading"
  | some (.loaded _) => "loaded"

/-- Everything that a run changes. -/
structure World where
  heap : Heap
  state : LoaderState
  log : List String
  /-- The modules of the executions started so far. -/
  started : List ModuleId

namespace World

def initial : World := ⟨.empty, [], [], []⟩

def say (w : World) (line : String) : World := { w with log := w.log ++ [line] }

def define (w : World) (o : ObjectId) (name : String) (slot : Slot) : World :=
  { w with heap := w.heap.define o name slot }

end World

/-! ## Bodies -/

/-- One execution of a body. -/
structure Frame where
  module : Registered
  exports : ObjectId
  /-- The number of the execution, which owns its variables. -/
  number : Nat
  /-- How many executions of the module were started, this one included. -/
  attempt : Nat
  handles : List (String × ObjectId)

def Frame.keep (f : Frame) (handle : String) (o : ObjectId) : Frame :=
  { f with handles := (handle, o) :: f.handles }

/-- The object at a handle; a handle that is not known means a new object. -/
def Frame.object (f : Frame) (handle : String) (w : World) : ObjectId × World :=
  match f.handles.find? fun h => h.1 == handle with
  | some (_, o) => (o, w)
  | none => (w.heap.fresh, { w with heap := w.heap.allocate })

/-- What is seen of an object. -/
def Inspection.of (h : Heap) (o : ObjectId) : Inspection → Value
  | .names => .array ((h.names o).map .string)
  | .size => .number (h.names o).length 0
  | .isEmpty => .boolean (h.names o).isEmpty
  | .snapshot => .object (h.snapshot o)
  | .has key => .boolean ((h.names o).contains key)
  | .value key => h.getOrNull o key

abbrev Requiring := ModuleId → World → Except RunFailure ObjectId × World

/-- Requires what a specifier of the running module means. -/
def Frame.requireSpecifier (requiring : Requiring) (f : Frame) (specifier : String) (w : World) :
    Except RunFailure ObjectId × World :=
  match targetOf f.module.imports specifier with
  | none => (.error (.unresolved f.module.id specifier), w)
  | some target => requiring target w

def Frame.step (requiring : Requiring) (f : Frame) (w : World) :
    Statement → Except RunFailure Frame × World
  | .set name value => (.ok f, w.define f.exports name (.plain value))
  | .alter handle name value =>
    let (o, w) := f.object handle w
    (.ok f, w.define o name (.plain value))
  | .assign cell value => (.ok f, { w with heap := w.heap.assign ⟨f.number, cell⟩ value })
  | .getter name cell => (.ok f, w.define f.exports name (.reads ⟨f.number, cell⟩))
  | .forward name handle key =>
    let (o, w) := f.object handle w
    (.ok f, w.define f.exports name (.forwards o key))
  | .require specifier handle =>
    match f.requireSpecifier requiring specifier w with
    | (.ok o, w) => (.ok (f.keep handle o), w)
    | (.error e, w) => (.error e, w)
  | .attempt specifier handle =>
    match f.requireSpecifier requiring specifier w with
    | (.ok o, w) => (.ok (f.keep handle o), w)
    | (.error e, w) => (.ok f, w.say s!"caught {e.message}")
  | .inspect name handle what =>
    let (o, w) := f.object handle w
    (.ok f, w.define f.exports name (.plain (what.of w.heap o)))
  | .same name first second =>
    let (a, w) := f.object first w
    let (b, w) := f.object second w
    (.ok f, w.define f.exports name (.plain (.boolean (a == b))))
  | .phase name id =>
    (.ok f, w.define f.exports name (.plain (.string (phaseWord (w.state.phase? id)))))
  | .importer name => (.ok f, w.define f.exports name (.plain (.string f.module.id.text)))
  | .log line => (.ok f, w.say line)
  | .throw message => (.error (.execution f.module.id message), w)
  | .throwFirst message times =>
    if f.attempt ≤ times then (.error (.execution f.module.id message), w) else (.ok f, w)

/-- Runs statements up to the first failure. -/
def Frame.run (requiring : Requiring) (f : Frame) :
    List Statement → World → Except RunFailure Unit × World
  | [], w => (.ok (), w)
  | s :: rest, w =>
    match f.step requiring w s with
    | (.ok f, w) => f.run requiring rest w
    | (.error e, w) => (.error e, w)

/-! ## Requiring -/

/-- The execution of a module that begins in a world, and the world in which its body runs. -/
def World.enter (w : World) (m : Registered) : Frame × World :=
  let o := w.heap.fresh
  let started := w.started ++ [m.id]
  (⟨m, o, w.started.length, started.count m.id, [("self", o)]⟩,
    { heap := w.heap.allocate
      state := w.state.put m.id (.loading o)
      log := w.log ++ [s!"exec {m.id.text}"]
      started })

/-- Requires a module with room for `n` nested bodies. -/
def requireWithin (r : Registry) : Nat → Requiring
  | 0, _, w => (.error .tooDeep, w)
  | n + 1, id, w =>
    match w.state.phase? id with
    | some phase => (.ok phase.exports, w)
    | none =>
      match r.get? id with
      | none => (.error (.unknownModule id), w)
      | some m =>
        let (frame, entered) := w.enter m
        match frame.run (requireWithin r n) m.body entered with
        | (.ok _, w) =>
          (.ok frame.exports, { w with state := w.state.put id (.loaded frame.exports) })
        | (.error e, w) => (.error e, { w with state := w.state.erase id })

def require (r : Registry) : Requiring := requireWithin r (r.modules.length + 1)

end ModuleBundler.Loader
