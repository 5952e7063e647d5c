import ModuleBundler.LoaderForm.LocalExport
import ModuleBundler.Syntax.Diagnostic
import ModuleBundler.Syntax.EarlyError
import ModuleBundler.Syntax.Grammar.Program
import ModuleBundler.Syntax.Scope
import ModuleBundler.Text.LineEnd

/-!
# Modules in loader form

A module in loader form reads two names, `require` and `exports`, and has no import or export of
its own.  `LoaderForm.ofSource` brings a module into that form:

1. every exported name becomes a getter on `exports`, so that readers see the current value;
2. every request becomes a `require` call, in the order of the text;
3. the text of the module follows, without its imports and the words of its exports, and with each
   reference to an imported name replaced by the expression that reads it.

All other text is copied.  A module that has a grammar fault or an early error is refused with the
first of them.
-/

namespace ModuleBundler

open ModuleBundler.Syntax ModuleBundler.Text

/-- A module in loader form. -/
structure LoaderForm where
  /-- The sources of the requests, in the order of the text, repetitions included. -/
  requested : List String
  /-- The exported names, apart from those of an export of everything. -/
  exported : List String
  code : String
deriving DecidableEq

namespace LoaderForm

/-! ## Parts of the result -/

def getterLine (v : NamedValue) : String :=
  "Object.defineProperty(exports, " ++ quote v.name
    ++ ", \x7b enumerable: true, get: function () \x7b return " ++ v.value ++ "; \x7d \x7d);"

/-- What the imported names of a program stand for. -/
def imports (program : Node) : List NamedValue :=
  (requests program).flatMap PlacedRequest.imports

/-- The exported names of a program and what each reads: first those that come from a request. -/
def publishedNames (program : Node) : List NamedValue :=
  (requests program).flatMap PlacedRequest.exports
    ++ program.children.flatMap (localExports (imports program))

/-- What is written in the place of a reference that stands for `value`.  A callee is written so
that the module does not become the receiver of the call. -/
def referenceText (r : OpenReference) (value : String) : String :=
  match r.role with
  | .plain => value
  | .shorthand => r.name ++ ": " ++ value
  | .callee => "(0, " ++ value ++ ")"

def referenceEdits (program : Node) : List Edit :=
  let values := imports program
  if values.isEmpty then []
  else
    (program.openReferences .plain []).filterMap fun r =>
      (lookup values r.name).map fun value => ⟨r.span, (referenceText r value).toList⟩

/-- The edit that takes a hashbang away. -/
def hashbangEdits (program : Node) : List Edit :=
  if (program.child 0).label == .hashbang then [.remove (program.child 0).span] else []

def edits (text : List Char) (program : Node) : List Edit :=
  hashbangEdits program
    ++ (requests program).map (fun r => .remove r.span)
    ++ program.children.flatMap (localEdits text)
    ++ referenceEdits program

/-- The lines before the text of the module. -/
def header (program : Node) : List String :=
  "\"use strict\";" :: (publishedNames program).map getterLine
    ++ (requests program).flatMap PlacedRequest.lines

/-- The loader form of a program that is written as `text`. -/
def ofProgram (text : List Char) (program : Node) : LoaderForm where
  requested := (requests program).map (·.source)
  exported := (publishedNames program).map (·.name)
  code := endLines (header program) ++ String.ofList (applyEdits text (edits text program))

/-! ## From text to loader form -/

/-- Reads a module and checks its early errors. -/
def checkedProgram (text : List Char) : Except Fault Node := do
  let program ← parse text
  match earlyFaults program with
  | [] => return program
  | f :: _ => throw f

/-- Brings a module into loader form. -/
def ofSource (source : String) : Except Diagnostic LoaderForm :=
  let text := source.toList
  match checkedProgram text with
  | .ok program => .ok (ofProgram text program)
  | .error f => .error (f.locate text)

end LoaderForm

end ModuleBundler
