import ModuleBundler.LoaderForm.Edit
import ModuleBundler.LoaderForm.Request
import ModuleBundler.Text.CharClass

/-!
# Exports of a module's own values

An export without a source publishes a binding of the module itself, or an imported one.  For
each such statement this module says which names it exports, what each of them reads
(`localExports`), and which edits leave the statement as plain code (`localEdits`): a list
disappears, a declaration loses the words before it, and a default value becomes the constant
`__default`, unless it is a declaration with a name of its own.  An unnamed default function is
named in place, so that it stays a declaration.
-/

namespace ModuleBundler.LoaderForm

open ModuleBundler.Syntax ModuleBundler.Text

/-- The name of a default value that has no name of its own. -/
def defaultName : String := "__default"

inductive DefaultForm where
  /-- A declaration with a name. -/
  | declared (name : String)
  /-- A function declaration without a name; `params` is where its parameters start. -/
  | unnamedFunction (params : Nat)
  | value
deriving DecidableEq

/-- How the default export of `value` is written. -/
def DefaultForm.of (value : Node) : DefaultForm :=
  match value.label, (value.child 0).binding? with
  | .function .defaultExport _ _, some name => .declared name
  | .function .defaultExport _ _, none => .unnamedFunction (value.child 1).span.start
  | .classDef true, some name => .declared name
  | _, _ => .value

/-- The names that a top-level statement exports without a source, and what each reads, given
what the imported names stand for. -/
def localExports (imports : List NamedValue) (n : Node) : List NamedValue :=
  match n.label with
  | .exportDecl =>
    let declaration := n.child 0
    let names :=
      match declaration.label with
      | .variables _ => declaration.boundNames
      | .function .. | .classDef _ => (declaration.child 0).boundNames
      | _ => []
    names.map fun b => ⟨b.name, b.name⟩
  | .exportDefault _ =>
    match DefaultForm.of (n.child 0) with
    | .declared name => [⟨"default", name⟩]
    | _ => [⟨"default", defaultName⟩]
  | .exportNames =>
    if (sourceOf n.children).isSome then []
    else
      (n.children.filterMap exportPair).map fun p =>
        ⟨p.2, (lookup imports p.1).getD p.1⟩
  | _ => []

/-- The character before an offset of a text satisfies `test`. -/
def precededBy (text : List Char) (offset : Nat) (test : Char → Bool) : Bool :=
  offset != 0 && (text[offset - 1]?.map test).getD false

/-- The edits that leave a top-level export without a source as plain code. -/
def localEdits (text : List Char) (n : Node) : List Edit :=
  let lead : Span := ⟨n.span.start, (n.child 0).span.start⟩
  match n.label with
  | .exportDecl => [.remove lead]
  | .exportDefault _ =>
    match DefaultForm.of (n.child 0) with
    | .declared _ => [.remove lead]
    | .unnamedFunction params =>
      let gap := if precededBy text params isBlank then "" else " "
      [.remove lead, .insert params (gap ++ defaultName)]
    | .value =>
      ⟨lead, ("const " ++ defaultName ++ " = ").toList⟩
        :: (if precededBy text n.span.stop (· == ';') then [] else [.insert n.span.stop ";"])
  | .exportNames => if (sourceOf n.children).isSome then [] else [.remove n.span]
  | _ => []

end ModuleBundler.LoaderForm
