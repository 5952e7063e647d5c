import ModuleBundler.Loader.Session

/-!
# The loader in a bundle

A bundle carries a loader of its own (`loaderLines`).  It keeps one cache, from the ids of modules
to their exports objects, and does not tell modules that are loading from those that are loaded: an
id is put into the cache before the code of its module runs, and taken out again when the code
throws.  What is thrown is thrown on as it is.

Code runs here as it runs in any loader (`Frame.step`), except that it requires through this one,
and that there are no phases to ask for: to a statement that asks, every module is unloaded.  As
for `Loader.require`, there is room for as many nested executions as modules are registered.
-/

namespace ModuleBundler.Loader.Bundled

/-! ## What is thrown -/

/-- What the loader or the code of a module throws. -/
inductive Thrown where
  | missingModule (id : ModuleId)
  | unresolved (specifier : String) (importer : ModuleId)
  /-- The code threw this message. -/
  | body (message : String)
  /-- More code is running than modules are registered, which does not happen. -/
  | tooDeep
deriving DecidableEq

def Thrown.message : Thrown → String
  | .missingModule id => s!"Cannot find module '{id.text}'"
  | .unresolved specifier importer => s!"Cannot resolve '{specifier}' from '{importer.text}'"
  | .body message => message
  | .tooDeep => "too many modules are loading"

/-- What is thrown where a loader with phases gives a failure. -/
def Thrown.of : RunFailure → Thrown
  | .unknownModule id => .missingModule id
  | .unresolved importer specifier => .unresolved specifier importer
  | .execution _ message => .body message
  | .tooDeep => .tooDeep

/-! ## Worlds -/

/-- The exports objects of the modules that are kept. -/
abbrev Cache := List (ModuleId × ObjectId)

def Cache.get? (c : Cache) (id : ModuleId) : Option ObjectId :=
  (c.find? fun entry => entry.1 == id).map (·.2)

def Cache.delete (c : Cache) (id : ModuleId) : Cache := c.filter fun entry => entry.1 != id

def Cache.set (c : Cache) (id : ModuleId) (o : ObjectId) : Cache := c.delete id ++ [(id, o)]

/-- Everything that a run in a bundle changes. -/
structure World where
  heap : Heap
  cache : Cache
  log : List String
  /-- The modules of the executions started so far. -/
  started : List ModuleId

namespace World

/-- What code sees of a world: all but the cache. -/
def bare (w : World) : Loader.World := ⟨w.heap, [], w.log, w.started⟩

/-- The world in which code has left `v` behind. -/
def after (w : World) (v : Loader.World) : World := ⟨v.heap, w.cache, v.log, v.started⟩

def say (w : World) (line : String) : World := { w with log := w.log ++ [line] }

/-- The execution of a module that begins in a world, and the world in which its code runs. -/
def enter (w : World) (m : Registered) : Frame × World :=
  let (frame, v) := w.bare.enter m
  (frame, { w.after v with cache := w.cache.set m.id frame.exports })

end World

/-! ## Code -/

abbrev Requiring := ModuleId → World → Except Thrown ObjectId × World

/-- Requires what a specifier of the running module means. -/
def localRequire (requiring : Requiring) (m : Registered) (specifier : String) (w : World) :
    Except Thrown ObjectId × World :=
  match targetOf m.imports specifier with
  | none => (.error (.unresolved specifier m.id), w)
  | some target => requiring target w

/-- The require of statements that have none. -/
def noRequire : Loader.Requiring := fun _ w => (.error .tooDeep, w)

def step (requiring : Requiring) (f : Frame) (w : World) : Statement → Except Thrown Frame × World
  | .require specifier handle =>
    match localRequire requiring f.module specifier w with
    | (.ok o, w) => (.ok (f.keep handle o), w)
    | (.error e, w) => (.error e, w)
  | .attempt specifier handle =>
    match localRequire requiring f.module specifier w with
    | (.ok o, w) => (.ok (f.keep handle o), w)
    | (.error e, w) => (.ok f, w.say s!"caught {e.message}")
  | s =>
    let (result, v) := f.step noRequire w.bare s
    (result.mapError Thrown.of, w.after v)

/-- Runs statements up to the first that throws. -/
def run (requiring : Requiring) (f : Frame) : List Statement → World → Except Thrown Unit × World
  | [], w => (.ok (), w)
  | s :: rest, w =>
    match step requiring f w s with
    | (.ok f, w) => run requiring f rest w
    | (.error e, w) => (.error e, w)

/-! ## Requiring -/

/-- Requires a module with room for `n` nested executions. -/
def requireWithin (r : Registry) : Nat → Requiring
  | 0, _, w => (.error .tooDeep, w)
  | n + 1, id, w =>
    match w.cache.get? id with
    | some o => (.ok o, w)
    | none =>
      match r.get? id with
      | none => (.error (.missingModule id), w)
      | some m =>
        let (frame, entered) := w.enter m
        match run (requireWithin r n) frame m.body entered with
        | (.ok _, w) => (.ok frame.exports, w)
        | (.error e, w) => (.error e, { w with cache := w.cache.delete id })

def require (r : Registry) : Requiring := requireWithin r (r.modules.length + 1)

/-! ## Sessions -/

/-- The loader of a bundle in use. -/
structure Session where
  registry : Registry
  world : World

def Session.require (s : Session) (id : ModuleId) : Except Thrown ObjectId × Session :=
  let (result, world) := Bundled.require s.registry id s.world
  (result, { s with world })

/-- Starts the bundle. -/
def Session.run (s : Session) : Except Thrown ObjectId × Session := s.require s.registry.entry

end ModuleBundler.Loader.Bundled
