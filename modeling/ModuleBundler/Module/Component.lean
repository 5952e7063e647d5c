import ModuleBundler.Module.Graph

/-!
# Import cycles from components

The import cycles of a graph are read off the strongly connected components of its links.  Which
nodes make up a component is left to a function on directed graphs (`Digraph`), whose nodes are numbers;
a module is numbered by its place in the graph.

`ModuleGraph.circularGroups` passes over each component of a single module that does not link to itself,
and puts the members of the others, and then the components, into the order of the graph.
-/

namespace ModuleBundler

/-- A directed graph: its nodes are the numbers below `order`. -/
structure Digraph where
  order : Nat
  edges : List (Nat × Nat)
  bounded : ∀ e ∈ edges, e.1 < order ∧ e.2 < order
deriving DecidableEq

/-- A component of several nodes, or of one with an edge to itself. -/
def Digraph.isCircular (d : Digraph) (component : List Nat) : Bool :=
  1 < component.length || component.head?.any fun n => d.edges.contains (n, n)

namespace ModuleGraph

def place? (g : ModuleGraph) (id : ModuleId) : Option Nat := g.ids.idxOf? id

/-- The edges of a module: one to each module of the graph that it links to. -/
def edgesOf (g : ModuleGraph) (m : Module) : List (Nat × Nat) :=
  match g.place? m.id with
  | none => []
  | some source => (m.dependencies.filterMap g.place?).map fun target => (source, target)

theorem place?_lt {g : ModuleGraph} {id : ModuleId} {n : Nat} (h : g.place? id = some n) :
    n < g.modules.length := by
  obtain ⟨hn, -⟩ := List.idxOf?_eq_some_iff.1 h
  unfold ids at hn
  rwa [List.length_map] at hn

/-- An edge of a module leads from its place to the place of a module that it links to. -/
theorem mem_edgesOf_iff {g : ModuleGraph} {m : Module} {e : Nat × Nat} :
    e ∈ g.edgesOf m ↔
      g.place? m.id = some e.1 ∧ ∃ target ∈ m.dependencies, g.place? target = some e.2 := by
  unfold edgesOf
  cases g.place? m.id with
  | none => simp
  | some source =>
    simp only [List.mem_map, List.mem_filterMap, Option.some.injEq]
    constructor
    · rintro ⟨n, hn, rfl⟩
      exact ⟨rfl, hn⟩
    · rintro ⟨rfl, hn⟩
      exact ⟨e.2, hn, rfl⟩

def digraph (g : ModuleGraph) : Digraph where
  order := g.modules.length
  edges := (g.modules.flatMap g.edgesOf).eraseDups
  bounded e he := by
    obtain ⟨m, -, he⟩ := List.mem_flatMap.1 (List.mem_eraseDups.1 he)
    obtain ⟨hsource, target, -, htarget⟩ := mem_edgesOf_iff.1 he
    exact ⟨place?_lt hsource, place?_lt htarget⟩

/-- The groups of modules that import each other circularly, given the strongly connected components
of a directed graph. -/
def circularGroups (components : Digraph → List (List Nat)) (g : ModuleGraph) :
    List (List ModuleId) :=
  let circular := (components g.digraph).filter g.digraph.isCircular
  let sorted := circular.map fun component => component.mergeSort fun a b => decide (a ≤ b)
  let ordered := sorted.mergeSort fun a b => decide (a.headD 0 ≤ b.headD 0)
  ordered.map fun component => component.filterMap fun n => g.ids[n]?

end ModuleGraph

end ModuleBundler
