import ModuleBundler.Syntax.Tree
import ModuleBundler.Text.Quoted

/-!
# Requests of a module

An import declaration and an export with a source both request another module.  A `Request` is
what such a statement asks for; `requests` lists those of a program in the order of its text,
each with the name of the variable that will hold the requested module, if it needs one.

`Request.line` is the statement that loads the requested module, and `imports` says what every
imported name stands for.
-/

namespace ModuleBundler.LoaderForm

open ModuleBundler.Syntax ModuleBundler.Text

/-! ## Requests -/

/-- The part of a module that an import names. -/
inductive Selection where
  /-- The module as one object. -/
  | all
  /-- One exported name. -/
  | named (name : String)
deriving DecidableEq

/-- A local name and what it selects. -/
structure ImportBinding where
  localName : String
  selection : Selection
deriving DecidableEq

/-- What a statement asks of another module. -/
inductive Request where
  /-- To be loaded, and nothing more. -/
  | load
  /-- Values for local names. -/
  | bind (bindings : List ImportBinding)
  /-- Values to export again: each a selected name and the name to export it under. -/
  | reexport (names : List (String × String))
  /-- The module as one object, exported under a name. -/
  | reexportAs (exported : String)
  /-- Everything it exports, except its default. -/
  | reexportAll
deriving DecidableEq

/-- The first string literal among some nodes. -/
def sourceOf (nodes : List Node) : Option String :=
  nodes.findSome? fun n =>
    match n.label with
    | .string value _ _ => some value
    | _ => none

def importBinding (n : Node) : Option ImportBinding :=
  match n.label with
  | .importNamed =>
    match (n.child 0).nameText?, (n.child 1).binding? with
    | some name, some localName => some ⟨localName, .named name⟩
    | _, _ => none
  | .importDefault => (n.child 0).binding?.map fun localName => ⟨localName, .named "default"⟩
  | .importNamespace => (n.child 0).binding?.map fun localName => ⟨localName, .all⟩
  | _ => none

/-- The local and the exported name of an export specifier. -/
def exportPair (n : Node) : Option (String × String) :=
  match n.label, (n.child 0).nameText?, (n.child 1).nameText? with
  | .exportSpecifier, some name, some exported => some (name, exported)
  | _, _, _ => none

/-- The source and the request of a top-level statement that has a source. -/
def requestOf (n : Node) : Option (String × Request) :=
  match n.label with
  | .importDecl _ =>
    (sourceOf n.children).map fun source =>
      match n.children.filterMap importBinding with
      | [] => (source, .load)
      | bindings => (source, .bind bindings)
  | .exportNames =>
    (sourceOf n.children).map fun source =>
      (source, .reexport (n.children.filterMap exportPair))
  | .exportAll =>
    (sourceOf (n.children.drop 1)).map fun source =>
      match (n.child 0).nameText? with
      | some exported => (source, .reexportAs exported)
      | none => (source, .reexportAll)
  | _ => none

/-! ## Variables for requested modules -/

/-- The variable that holds the `i`-th requested module that needs one. -/
def moduleVariable (i : Nat) : String := "__dep" ++ toString i

/-- A request in its place: the statement that makes it, and the variable for the module, which
is empty for a request that needs none. -/
structure PlacedRequest where
  span : Span
  source : String
  request : Request
  holder : String
deriving DecidableEq

/-- Whether the module that a request names has to be kept in a variable. -/
def Request.needsVariable : Request → Bool
  | .load => false
  | _ => true

/-- The requests of some statements; variables are numbered from `next`. -/
def requestsFrom (next : Nat) : List Node → List PlacedRequest
  | [] => []
  | n :: rest =>
    match requestOf n with
    | none => requestsFrom next rest
    | some (source, request) =>
      if request.needsVariable then
        ⟨n.span, source, request, moduleVariable next⟩ :: requestsFrom (next + 1) rest
      else ⟨n.span, source, request, ""⟩ :: requestsFrom next rest

def requests (program : Node) : List PlacedRequest := requestsFrom 0 program.children

/-! ## What is written for a request -/

def requireCall (source : String) : String := "require(" ++ quote source ++ ");"

/-- The statement that forwards every exported name of the module in `holder` that is not the
default and that `exports` does not have yet. -/
def forwardAll (holder : String) : String :=
  "Object.keys(" ++ holder ++ ").forEach(function (key) \x7b "
    ++ "if (key === \"default\" || Object.prototype.hasOwnProperty.call(exports, key)) return; "
    ++ "Object.defineProperty(exports, key, \x7b enumerable: true, get: function () \x7b return "
    ++ holder ++ "[key]; \x7d \x7d); \x7d);"

/-- The lines that load the requested module. -/
def PlacedRequest.lines (r : PlacedRequest) : List String :=
  match r.request with
  | .load => [requireCall r.source]
  | .reexportAll => ["var " ++ r.holder ++ " = " ++ requireCall r.source, forwardAll r.holder]
  | _ => ["var " ++ r.holder ++ " = " ++ requireCall r.source]

/-- The expression that reads a selection from the module in `holder`. -/
def Selection.read (holder : String) : Selection → String
  | .all => holder
  | .named name => readProperty holder name

/-- A name and the expression that stands for it. -/
structure NamedValue where
  name : String
  value : String
deriving DecidableEq

/-- The imported names of a request, and what stands for each. -/
def PlacedRequest.imports (r : PlacedRequest) : List NamedValue :=
  match r.request with
  | .bind bindings => bindings.map fun b => ⟨b.localName, b.selection.read r.holder⟩
  | _ => []

/-- The names that a request exports again, and what each of them reads. -/
def PlacedRequest.exports (r : PlacedRequest) : List NamedValue :=
  match r.request with
  | .reexport names => names.map fun p => ⟨p.2, readProperty r.holder p.1⟩
  | .reexportAs exported => [⟨exported, r.holder⟩]
  | _ => []

/-- The value of the last entry of a name. -/
def lookup (values : List NamedValue) (name : String) : Option String :=
  (values.reverse.find? fun v => v.name == name).map (·.value)

end ModuleBundler.LoaderForm
