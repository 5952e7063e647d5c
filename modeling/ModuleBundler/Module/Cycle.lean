import ModuleBundler.Module.Graph

/-!
# Circular imports

Two modules import each other circularly when each can be reached from the other by following
links, at least one.  `ModuleGraph.importCycles` lists the groups of such modules; a module that
links to itself and to no other of them is a group of one.  Members and groups are in the order of
the graph.
-/

namespace ModuleBundler

namespace ModuleGraph

def next (g : ModuleGraph) (id : ModuleId) : List ModuleId :=
  match g.get? id with
  | some m => m.dependencies.filter g.contains
  | none => []

/-- Adds to `seen` what can be reached from `frontier` in one to `n` steps. -/
def reachFrom (g : ModuleGraph) : Nat → List ModuleId → List ModuleId → List ModuleId
  | 0, seen, _ => seen
  | n + 1, seen, frontier =>
    match (frontier.flatMap g.next).eraseDups.filter fun id => !seen.contains id with
    | [] => seen
    | found => reachFrom g n (seen ++ found) found

def reachable (g : ModuleGraph) (id : ModuleId) : List ModuleId :=
  g.reachFrom (g.modules.length + 1) [] [id]

/-- What can be reached from each module. -/
def reachTable (g : ModuleGraph) : List (ModuleId × List ModuleId) :=
  g.ids.map fun id => (id, g.reachable id)

/-- The modules that a module imports circularly, according to a table of what can be reached. -/
def circularWith (table : List (ModuleId × List ModuleId)) (row : ModuleId × List ModuleId) :
    List ModuleId :=
  (table.filter fun other => row.2.contains other.1 && other.2.contains row.1).map (·.1)

/-- The groups of modules that import each other circularly. -/
def importCycles (g : ModuleGraph) : List (List ModuleId) :=
  let table := g.reachTable
  table.filterMap fun row =>
    let group := circularWith table row
    if group.head? = some row.1 then some group else none

end ModuleGraph

/-- A group as a chain of imports that ends where it begins. -/
def cycleText (group : List ModuleId) : String :=
  " -> ".intercalate ((group ++ group.take 1).map ModuleId.text)

end ModuleBundler
