import ModuleBundler.Loader.Run

/-!
# Sessions with a loader

A `Session` is a loader in use: a registry, the world it runs in, and for each module the exports
object that requiring it gave last.  Starting a new loader forgets what is loaded, and neither the
objects nor how often each body was executed.
-/

namespace ModuleBundler.Loader

structure Session where
  registry : Registry
  world : World
  /-- The object that the last successful require of a module gave. -/
  held : List (ModuleId × ObjectId)

/-- What a successful require gives. -/
structure Required where
  object : ObjectId
  /-- Whether it is the object that was held before, if one was. -/
  sameAsBefore : Option Bool

namespace Session

/-- A loader that has not run anything. -/
def start (registry : Registry) (log : List String) : Session :=
  ⟨registry, { World.initial with log }, []⟩

/-- The object held of a module. -/
def object? (s : Session) (id : ModuleId) : Option ObjectId :=
  (s.held.find? fun h => h.1 == id).map (·.2)

def require (s : Session) (id : ModuleId) : Except RunFailure Required × Session :=
  match Loader.require s.registry id s.world with
  | (.ok o, world) =>
    (.ok ⟨o, (s.object? id).map (· == o)⟩, { s with world, held := (id, o) :: s.held })
  | (.error e, world) => (.error e, { s with world })

/-- Requires the entry. -/
def run (s : Session) : Except RunFailure Required × Session := s.require s.registry.entry

/-- Reads a name of the object held of a module. -/
def get (s : Session) (id : ModuleId) (key : String) : Option Value :=
  (s.object? id).bind fun o => (s.world.heap.get o key).value?

/-- Defines a name of the object held of a module; the result is its names. -/
def set (s : Session) (id : ModuleId) (key : String) (value : Value) :
    Option (List String) × Session :=
  match s.object? id with
  | none => (none, s)
  | some o =>
    let world := s.world.define o key (.plain value)
    (some (world.heap.names o), { s with world })

/-- Starts a new loader over the same registry. -/
def restart (s : Session) : Session := { s with world := { s.world with state := [] } }

def takeLog (s : Session) : List String × Session :=
  (s.world.log, { s with world := { s.world with log := [] } })

end Session

/-! ## Scripts -/

/-- A module as it is written down for a session: its body, or why it does not compile. -/
structure Script where
  id : ModuleId
  imports : List Link
  body : List Statement
  compileFailure : Option String

/-- Compiles the first script of an id. -/
def compileScript (scripts : List Script) (m : Module) : Except RunFailure (List Statement) :=
  match scripts.find? fun s => s.id == m.id with
  | none => .ok []
  | some s =>
    match s.compileFailure with
    | some message => .error (.execution s.id message)
    | none => .ok s.body

/-- The registry in which scripts are registered in order. -/
def registerScripts (entry : ModuleId) (scripts : List Script) : Registry :=
  scripts.foldl (fun r s => r.register ⟨s.id, s.imports, s.body⟩) ⟨entry, []⟩

/-- The graph of some scripts. -/
def graphOfScripts (entry : ModuleId) (scripts : List Script) : Except GraphFlaw ModuleGraph :=
  ModuleGraph.ofModules entry (scripts.map fun s => ⟨s.id, s.imports, ""⟩)

/-- The registry of a graph of scripts, and the lines that compiling logs. -/
def compileScripts (g : ModuleGraph) (scripts : List Script) :
    Except RunFailure Registry × List String :=
  let (result, begun) := Registry.ofGraph g (compileScript scripts)
  (result, begun.map fun id => s!"compile {id.text}")

end ModuleBundler.Loader
