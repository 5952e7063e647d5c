import ModuleBundler.Build.Resolver
import ModuleBundler.Build.Transformer
import ModuleBundler.Text.LineEnd

/-!
# Discovery of a module graph

`build` finds every module that an entry leads to, breadth first.  Each module is loaded and
transformed once, then the specifiers it requests are resolved in order; a module that nothing has
asked for before is put at the end of the worklist.  The first failure ends the build.

A `Discovery` is the state between two modules.  It keeps what was asked, loaded and transformed,
in order.
-/

namespace ModuleBundler

open ModuleBundler.Text

/-! ## Sources -/

/-- Where modules come from: which ids exist, what their texts are, and a number that is at least
the number of ids that exist. -/
structure Sources where
  has : ModuleId → Bool
  load : ModuleId → Except BuildFailure String
  capacity : Nat

def putFile (id : ModuleId) (text : String) :
    List (ModuleId × String) → List (ModuleId × String)
  | [] => [(id, text)]
  | f :: rest => if f.1 = id then (id, text) :: rest else f :: putFile id text rest

/-- Modules that are kept in memory, each with a text. -/
def Sources.ofFiles (files : List (ModuleId × String)) : Sources where
  has id := files.any fun f => f.1 == id
  load id :=
    match files.find? fun f => f.1 == id with
    | some f => .ok f.2
    | none => .error (.file id.text .notFound)
  capacity := files.length

/-! ## The state of a discovery -/

/-- What a discovery has found and done so far. -/
structure Discovery where
  resolver : Resolver
  /-- The ids whose existence was asked. -/
  probes : List ModuleId
  /-- The ids whose texts were loaded. -/
  loads : List ModuleId
  /-- The ids whose texts were transformed. -/
  transforms : List ModuleId
  /-- The modules that were taken from the worklist. -/
  visited : List ModuleId
  /-- The modules that were ever put on the worklist. -/
  queued : List ModuleId
  /-- The modules to be taken next. -/
  worklist : List ModuleId
  graph : ModuleGraph

/-- A step of a discovery: its result and the state afterwards. -/
abbrev Discovery.Step (α : Type) := Except BuildFailure α × Discovery

/-- Puts a module on the worklist, unless it has been there. -/
def Discovery.enqueue (d : Discovery) (id : ModuleId) : Discovery :=
  if d.queued.contains id then d
  else { d with queued := d.queued ++ [id], worklist := d.worklist ++ [id] }

/-- Resolves specifiers of a module, each once, and puts what they mean on the worklist; `links`
are those made before. -/
def Discovery.linkAll (sources : Sources) (importer : ModuleId) (links : List Link) :
    List String → Discovery → Discovery.Step (List Link)
  | [], d => (.ok links, d)
  | specifier :: rest, d =>
    if links.any fun l => l.specifier == specifier then linkAll sources importer links rest d
    else
      let a := d.resolver.resolve sources.has importer specifier
      let d := { d with resolver := a.resolver, probes := d.probes ++ a.probes }
      match a.result with
      | .error e => (.error e, d)
      | .ok target =>
        linkAll sources importer (links ++ [⟨specifier, target⟩]) rest (d.enqueue target)

/-- Loads, transforms and links a module. -/
def Discovery.process (sources : Sources) (transformer : Transformer) (id : ModuleId)
    (d : Discovery) : Discovery.Step Module :=
  let d := { d with loads := d.loads ++ [id] }
  match sources.load id with
  | .error e => (.error e, d)
  | .ok text =>
    let d := { d with transforms := d.transforms ++ [id] }
    match transformer id (String.ofList (unifyLineEnds text.toList)) with
    | .error e => (.error e, d)
    | .ok made =>
      match linkAll sources id [] made.requested d with
      | (.error e, d) => (.error e, d)
      | (.ok links, d) => (.ok ⟨id, links, made.code⟩, d)

/-- Takes up to `n` modules from the worklist, until it is empty. -/
def Discovery.run (sources : Sources) (transformer : Transformer) :
    Nat → Discovery → Discovery.Step ModuleGraph
  | 0, d => (.ok d.graph, d)
  | n + 1, d =>
    match d.worklist with
    | [] => (.ok d.graph, d)
    | id :: rest =>
      let d := { d with worklist := rest }
      if d.visited.contains id then run sources transformer n d
      else
        match process sources transformer id { d with visited := d.visited ++ [id] } with
        | (.error e, d) => (.error e, d)
        | (.ok m, d) => run sources transformer n { d with graph := d.graph.insert m }

/-! ## Building -/

/-- The graph that an entry leads to, or the first failure on the way, and what was done.  The
resolver may have been used before. -/
def buildWith (sources : Sources) (transformer : Transformer) (resolver : Resolver)
    (entrySpecifier : String) : Discovery.Step ModuleGraph :=
  let a := resolver.resolveFromRoot sources.has entrySpecifier
  let start (entry : ModuleId) (queued : List ModuleId) : Discovery :=
    ⟨a.resolver, a.probes, [], [], [], queued, queued, ⟨entry, []⟩⟩
  match a.result with
  | .error e => (.error e, start .root [])
  | .ok entry =>
    match Discovery.run sources transformer (sources.capacity + 1) (start entry [entry]) with
    | (.error e, d) => (.error e, d)
    | (.ok g, d) =>
      match g.firstMissing with
      | some flaw => (.error flaw.failure, d)
      | none => (.ok g, d)

/-- The graph that an entry leads to, found by a resolver that knows nothing. -/
def build (sources : Sources) (transformer : Transformer) (extensions : List String)
    (entrySpecifier : String) : Discovery.Step ModuleGraph :=
  buildWith sources transformer (.fresh extensions) entrySpecifier

end ModuleBundler
