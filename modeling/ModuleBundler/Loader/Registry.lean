import ModuleBundler.Loader.Value
import ModuleBundler.Module.Graph

/-!
# Registered modules

A `Registry` holds modules that are ready to run: each with its links and its body, a list of
statements.  The statements are what a module in loader form can do: define names on its exports,
assign variables, require other modules and look at what they export.

`Registry.ofGraph` compiles the modules of a graph in order, up to the first that fails.
-/

namespace ModuleBundler.Loader

/-! ## Statements -/

/-- The value that a statement looks up about an exports object. -/
inductive Inspection where
  /-- Its names. -/
  | names
  /-- The number of its names. -/
  | size
  | isEmpty
  /-- Its current contents. -/
  | snapshot
  /-- Whether it has a name. -/
  | has (key : String)
  /-- The current value of a name, null when it has none. -/
  | value (key : String)
deriving DecidableEq

/-- A statement of a module body.  Exports objects go by handles; the handle `self` is the
module's own. -/
inductive Statement where
  /-- Defines a name of the module. -/
  | set (name : String) (value : Value)
  /-- Defines a name of the object at a handle. -/
  | alter (handle name : String) (value : Value)
  /-- Assigns a variable. -/
  | assign (cell : String) (value : Value)
  /-- Defines a name that reads a variable. -/
  | getter (name cell : String)
  /-- Defines a name that reads a name of the object at a handle. -/
  | forward (name handle key : String)
  /-- Requires a module; a failure ends the body. -/
  | require (specifier handle : String)
  /-- Requires a module; a failure is logged. -/
  | attempt (specifier handle : String)
  /-- Defines a name as what is seen of the object at a handle. -/
  | inspect (name handle : String) (what : Inspection)
  /-- Defines a name as whether two handles have one object. -/
  | same (name first second : String)
  /-- Defines a name as the phase of a module. -/
  | phase (name : String) (id : ModuleId)
  /-- Defines a name as the id of the running module. -/
  | importer (name : String)
  /-- Logs a line. -/
  | log (line : String)
  /-- Ends the body. -/
  | throw (message : String)
  /-- Ends the body in its first `times` executions. -/
  | throwFirst (message : String) (times : Nat)

/-! ## Failures -/

/-- Why a module cannot be required. -/
inductive RunFailure where
  | unknownModule (id : ModuleId)
  | unresolved (importer : ModuleId) (specifier : String)
  /-- The body ended with a message. -/
  | execution (module : ModuleId) (message : String)
  /-- More bodies are running than modules are registered, which does not happen. -/
  | tooDeep
deriving DecidableEq

def RunFailure.message : RunFailure → String
  | .unknownModule id => s!"module {id.text} is not registered"
  | .unresolved importer specifier => s!"cannot resolve '{specifier}' from {importer.text}"
  | .execution module message => s!"error while executing {module.text}: {message}"
  | .tooDeep => "too many modules are loading"

/-! ## Registries -/

/-- A module that is ready to run. -/
structure Registered where
  id : ModuleId
  imports : List Link
  body : List Statement

/-- Modules that are ready to run, and the one to start from. -/
structure Registry where
  entry : ModuleId
  modules : List Registered

/-- Replaces or adds a module. -/
def putModule (m : Registered) : List Registered → List Registered
  | [] => [m]
  | r :: rest => if r.id = m.id then m :: rest else r :: putModule m rest

namespace Registry

def get? (r : Registry) (id : ModuleId) : Option Registered := r.modules.find? fun m => m.id == id

def contains (r : Registry) (id : ModuleId) : Bool := r.modules.any fun m => m.id == id

/-- Registers a module in the place of an earlier one of its id. -/
def register (r : Registry) (m : Registered) : Registry :=
  { r with modules := putModule m r.modules }

/-- Compiles modules in order, up to the first that fails; the second result lists the modules
whose compilation was begun. -/
def compileAll (compile : Module → Except RunFailure (List Statement)) :
    List Module → Except RunFailure (List Registered) × List ModuleId
  | [] => (.ok [], [])
  | m :: rest =>
    match compile m with
    | .error e => (.error e, [m.id])
    | .ok body =>
      let later := compileAll compile rest
      (later.1.map (⟨m.id, m.imports, body⟩ :: ·), m.id :: later.2)

/-- The registry of a graph, and the modules whose compilation was begun. -/
def ofGraph (g : ModuleGraph) (compile : Module → Except RunFailure (List Statement)) :
    Except RunFailure Registry × List ModuleId :=
  let compiled := compileAll compile g.modules
  (compiled.1.map fun modules => ⟨g.entry, modules⟩, compiled.2)

end Registry

end ModuleBundler.Loader
