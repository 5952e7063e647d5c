import ModuleBundler.Loader.Value

/-!
# Exports objects

A `Heap` holds the exports objects that modules have made, and the cells that their getters read.
An object is a list of entries with different names, in the order in which the names were first
defined; a later definition of a name replaces its slot and keeps its place (`define_names`).

A slot is a plain value, a getter of a cell, or a getter that forwards to a name of an object.
Getters are read anew each time, so a reader sees the current value.  `Heap.get` follows forwarding
to its end; a chain of forwards that comes back to itself has none, which is the answer `endless`.
-/

namespace ModuleBundler.Loader

/-! ## Objects -/

/-- The number of an exports object. -/
abbrev ObjectId := Nat

/-- A variable of one execution of a module. -/
structure Cell where
  /-- The number of the execution. -/
  owner : Nat
  name : String
deriving DecidableEq

/-- What an exported name holds. -/
inductive Slot where
  | plain (value : Value)
  /-- Reads a cell. -/
  | reads (cell : Cell)
  /-- Reads a name of an object. -/
  | forwards (object : ObjectId) (name : String)

structure Entry where
  name : String
  slot : Slot

def define (name : String) (slot : Slot) : List Entry → List Entry
  | [] => [⟨name, slot⟩]
  | e :: rest => if e.name = name then ⟨name, slot⟩ :: rest else e :: define name slot rest

def slotOf (entries : List Entry) (name : String) : Option Slot :=
  (entries.find? fun e => e.name == name).map (·.slot)

/-- A definition keeps the names in place and adds a new one at the end. -/
theorem define_names (name : String) (slot : Slot) (entries : List Entry) :
    (define name slot entries).map (·.name) =
      if name ∈ entries.map (·.name) then entries.map (·.name)
      else entries.map (·.name) ++ [name] := by
  induction entries with
  | nil => simp [define]
  | cons e rest ih =>
    unfold define
    by_cases h : e.name = name
    · simp [h]
    · simp only [h, if_false, List.map_cons, ih, List.mem_cons, Ne.symm (Ne.intro h), false_or]
      split <;> simp

/-! ## The heap -/

/-- All exports objects, and the cells that have a value. -/
structure Heap where
  objects : List (List Entry)
  cells : List (Cell × Value)

/-- What reading a name gives. -/
inductive Reading where
  | value (v : Value)
  /-- The name is not defined, or its cell is not assigned. -/
  | absent
  /-- The name forwards to itself. -/
  | endless

/-- The value that was read, if any. -/
def Reading.value? : Reading → Option Value
  | .value v => some v
  | _ => none

namespace Heap

def empty : Heap := ⟨[], []⟩

def entries (h : Heap) (o : ObjectId) : List Entry := h.objects.getD o []

/-- The number of the next object. -/
def fresh (h : Heap) : ObjectId := h.objects.length

def allocate (h : Heap) : Heap := { h with objects := h.objects ++ [[]] }

def define (h : Heap) (o : ObjectId) (name : String) (slot : Slot) : Heap :=
  { h with objects := h.objects.modify o (Loader.define name slot) }

def assign (h : Heap) (c : Cell) (v : Value) : Heap := { h with cells := (c, v) :: h.cells }

def cell? (h : Heap) (c : Cell) : Option Value :=
  (h.cells.find? fun entry => entry.1 == c).map (·.2)

def names (h : Heap) (o : ObjectId) : List String := (h.entries o).map (·.name)

/-- The number of entries of all objects. -/
def slotCount (h : Heap) : Nat := h.objects.foldl (fun n entries => n + entries.length) 0

/-- Reads a name in at most `n` steps. -/
def read (h : Heap) : Nat → ObjectId → String → Reading
  | 0, _, _ => .endless
  | n + 1, o, name =>
    match slotOf (h.entries o) name with
    | none => .absent
    | some (.plain v) => .value v
    | some (.reads c) =>
      match h.cell? c with
      | some v => .value v
      | none => .absent
    | some (.forwards target key) => h.read n target key

/-- Reads a name of an object.  A chain of forwards that ends meets each entry at most once. -/
def get (h : Heap) (o : ObjectId) (name : String) : Reading := h.read (h.slotCount + 1) o name

/-- The current value of a name, null when it has none. -/
def getOrNull (h : Heap) (o : ObjectId) (name : String) : Value :=
  (h.get o name).value?.getD .null

/-- The current contents of an object. -/
def snapshot (h : Heap) (o : ObjectId) : List (String × Value) :=
  (h.names o).map fun name => (name, h.getOrNull o name)

end Heap

end ModuleBundler.Loader
