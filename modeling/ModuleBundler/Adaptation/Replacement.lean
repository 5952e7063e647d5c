import ModuleBundler.Adaptation.Temporary

/-!
# Replacements of newer operators

For each of the newer operators the expression that means the same without it.  A value that is
read twice is kept in a variable first, unless it is stable; `kept` is that variable.

* `a ** b` is a call of `Math.pow`.
* `a ?? b` compares the value of `a` with `null` and the undefined value.
* `a ||= b`, and likewise `&&=` and `??=`, is the operator with an assignment on its right.
* An optional chain is a choice that compares every optional object before it goes on (`Links`).
-/

namespace ModuleBundler.Adaptation

open ModuleBundler.Syntax

/-! ## Values that are read twice -/

/-- The first and the second reading of a value. -/
def readings (kept : Option String) (value : Node) : Node × Node :=
  match kept with
  | some name => (assignTo (refer name) value, refer name)
  | none => (value, value)

/-- The value itself if it is neither `null` nor undefined, else another one. -/
def presentOr (kept : Option String) (value other : Node) : Node :=
  let (first, again) := readings kept value
  choose (compareAbsent "!==" "&&" first again) again other

/-! ## Assignments -/

/-- A property access whose object and key are read twice: the first and the second access. -/
structure Access where
  first : Node
  again : Node

def Access.named (optional : Bool) (keptObject : Option String) (object name : Node) : Access :=
  let (first, again) := readings keptObject object
  ⟨new (.member optional) [first, name], new (.member optional) [again, name]⟩

def Access.keyed (keptObject keptKey : Option String) (object key : Node) : Access :=
  let (first, again) := readings keptObject object
  let (firstKey, againKey) := readings keptKey key
  ⟨new (.index false) [first, firstKey], new (.index false) [again, againKey]⟩

/-- A variable for a key, unless it is a literal. -/
def keepKey (k : Knowledge) (key : Node) : Naming (Option String) :=
  match key.label with
  | .string .. | .number .. => return none
  | _ => k.keep key

/-- A variable for an object, unless it is a binding of the program. -/
def keepObject (k : Knowledge) (object : Node) : Naming (Option String) := do
  if k.isBound object || object.label == .thisValue || object.label == .superValue then return none
  return some (← fresh object)

/-- The assignment of a power to a target: values to be kept first, then the access read and the
access assigned to. -/
def powerAssignment (kept : List Node) (read target value : Node) : Node :=
  sequenceOf kept (assignTo target (powerCall read value))

def keeping (values : List (Option String × Node)) : List Node :=
  values.filterMap fun v => v.1.map fun name => assignTo (refer name) v.2

/-- A kept value as it is read later. -/
def later (kept : Option String) (value : Node) : Node := (readings kept value).2

/-- The key that stands for a property name. -/
def nameAsKey (name : Node) : Node :=
  match name.nameText? with
  | some text => new (.string text true text) []
  | none => name

/-! ## Chains -/

/-- A chain so far: the comparisons that may end it, the variable they keep values in, and the
expression that it has reached. -/
structure Links where
  tests : List Node
  holder : Option String
  reached : Node

def Links.start (n : Node) : Links := ⟨[], none, n⟩

/-- A chain that goes on with an expression. -/
def Links.goOn (l : Links) (n : Node) : Links := { l with reached := n }

/-- A chain that ends if the expression it has reached is absent; the value is read again from the
chain's variable. -/
def Links.guarded (l : Links) (k : Knowledge) : Naming Links := do
  if k.isStable l.reached then
    return { l with tests := l.tests ++ [compareAbsent "===" "||" l.reached l.reached] }
  let name ← match l.holder with
    | some name => pure name
    | none => fresh l.reached
  let (first, again) := readings (some name) l.reached
  return ⟨l.tests ++ [compareAbsent "===" "||" first again], some name, again⟩

/-- A chain that ends if the method it has reached is absent.  The method is kept in a variable of
its own, and the answer tells the object that it is called on. -/
def Links.guardedMethod (l : Links) (k : Knowledge) : Naming (Links × Node) := do
  match l.reached with
  | .mk label _ (object :: key) =>
    let held ← if object.reference?.isSome then pure none else k.keep object
    let (first, again) := readings held object
    let method := Node.mk label ⟨0, 0⟩ (first :: key)
    let name ← fresh (Node.mk label ⟨0, 0⟩ (object :: key))
    let (test, value) := readings (some name) method
    return (⟨l.tests ++ [compareAbsent "===" "||" test value], l.holder, value⟩, again)
  | n => return (← (l.goOn n).guarded k, undefinedValue)

def Links.call (l : Links) (arguments : List Node) : Links :=
  l.goOn (new (.call false) (l.reached :: arguments))

/-- The call of a method that a chain has reached, on an object. -/
def Links.callOn (l : Links) (object : Node) (arguments : List Node) : Links :=
  l.goOn (new (.call false) (property l.reached "call" :: object :: arguments))

def anyOf : List Node → Node → Node
  | [], last => last
  | .mk (.logical "||") _ [a, b] :: rest, before =>
    anyOf rest (new (.logical "||") [new (.logical "||") [before, a], b])
  | test :: rest, before => anyOf rest (new (.logical "||") [before, test])

/-- The chain as one expression; `absent` is its value where it ends early. -/
def Links.close (l : Links) (absent : Node) (wrap : Node → Node) : Node :=
  match l.tests with
  | [] => wrap l.reached
  | first :: rest => choose (anyOf rest first) absent (wrap l.reached)

end ModuleBundler.Adaptation
