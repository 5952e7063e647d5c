import ModuleBundler.Module.Id

/-!
# Module graphs

A `Module` has an id, code in loader form, and links: for each specifier that it imports, the
module that the specifier means.  A `ModuleGraph` is a list of modules with different ids, in the
order in which they were found, and the id of the one to start from.

`ModuleGraph.ofModules` makes a graph from modules and refuses two flaws: an entry that is no
module of the graph, and a link to a module that is missing (`ModuleGraph.firstMissing`).
-/

namespace ModuleBundler

/-! ## Modules -/

/-- A specifier and the module that it means. -/
structure Link where
  specifier : String
  target : ModuleId
deriving DecidableEq

/-- Adds a link; a specifier that is there already keeps its place and gets the new target. -/
def addLink (l : Link) : List Link → List Link
  | [] => [l]
  | k :: rest => if k.specifier = l.specifier then l :: rest else k :: addLink l rest

/-- Links with different specifiers, in the order of first appearance; the last target of a
specifier counts. -/
def linksOf (links : List Link) : List Link := links.foldl (fun made l => addLink l made) []

def targetOf (links : List Link) (specifier : String) : Option ModuleId :=
  (links.find? fun l => l.specifier == specifier).map (·.target)

/-- A module that is ready to be bundled. -/
structure Module where
  id : ModuleId
  imports : List Link
  code : String
deriving DecidableEq

/-- The modules that a module links to, each once. -/
def Module.dependencies (m : Module) : List ModuleId := (m.imports.map (·.target)).eraseDups

/-! ## Graphs -/

/-- Modules in the order in which they were found, and where to start. -/
structure ModuleGraph where
  entry : ModuleId
  modules : List Module
deriving DecidableEq

inductive GraphFlaw where
  /-- The entry is no module of the graph. -/
  | missingEntry (entry : ModuleId)
  /-- A link of a module leads to no module of the graph. -/
  | missingTarget (importer : ModuleId) (link : Link)
deriving DecidableEq

namespace ModuleGraph

def ids (g : ModuleGraph) : List ModuleId := g.modules.map (·.id)

def get? (g : ModuleGraph) (id : ModuleId) : Option Module := g.modules.find? fun m => m.id == id

def contains (g : ModuleGraph) (id : ModuleId) : Bool := g.modules.any fun m => m.id == id

/-- Adds a module, unless there is one with its id. -/
def insert (g : ModuleGraph) (m : Module) : ModuleGraph :=
  if g.contains m.id then g else { g with modules := g.modules ++ [m] }

/-- The first link that leads to no module of the graph. -/
def firstMissing (g : ModuleGraph) : Option GraphFlaw :=
  g.modules.findSome? fun m =>
    (m.imports.find? fun l => !g.contains l.target).map (.missingTarget m.id)

/-- A graph of modules, the first of each id. -/
def ofModules (entry : ModuleId) (modules : List Module) : Except GraphFlaw ModuleGraph :=
  let g := modules.foldl insert ⟨entry, []⟩
  if !g.contains entry then .error (.missingEntry entry)
  else
    match g.firstMissing with
    | some flaw => .error flaw
    | none => .ok g

end ModuleGraph

end ModuleBundler
