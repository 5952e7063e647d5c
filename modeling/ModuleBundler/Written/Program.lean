import ModuleBundler.Written.Statement

/-!
# The text of modules

`Node.written` is the text of a program: every statement on a line of its own, indented by tabs.
It follows from the label and the children's texts of each node, with one case for each kind of
node; a node of no known shape has no text.
-/

namespace ModuleBundler.Written

open ModuleBundler.Syntax

/-! ## Imports and exports -/

def labelled (label : Label) (parts : List Piece) : List Piece :=
  parts.filter fun x => x.label == label

/-- The text of each piece at a place without surroundings. -/
def plainTexts (parts : List Piece) : List String := parts.map fun x => x.text (.statement 0)

def specifiersText (parts : List Piece) : String :=
  match parts with
  | [] => "\x7b\x7d"
  | _ => "\x7b " ++ commaSeparated (plainTexts parts) ++ " \x7d"

/-- A name, and the other name it stands for if that is a different one. -/
def renamedText (name other : Piece) : String :=
  String.join (plainTexts [name])
    ++ (if name.node.nameText? == other.node.nameText? then ""
      else " as " ++ String.join (plainTexts [other]))

def isSource (x : Piece) : Bool :=
  match x.label with
  | .string .. => true
  | _ => false

def attributesText (parts : List Piece) : String :=
  match labelled .importAttribute parts with
  | [] => ""
  | attributes => " with " ++ specifiersText attributes

def clauseText (parts : List Piece) : String :=
  let named := labelled .importNamed parts
  let others := labelled .importDefault parts ++ labelled .importNamespace parts
  commaSeparated
    (plainTexts others ++ if named.isEmpty && !others.isEmpty then [] else [specifiersText named])

def sourceText (parts : List Piece) : String :=
  String.join (plainTexts (parts.filter isSource)) ++ attributesText parts ++ ";"

def moduleItemText : Label → List Piece → Option (Place → String)
  | .importDecl true, parts => some fun _ =>
      "import " ++ clauseText parts ++ " from " ++ sourceText parts
  | .importDecl false, parts => some fun _ => "import " ++ sourceText parts
  | .importNamed, [imported, name] => some fun _ => renamedText imported name
  | .importDefault, [name] => some name.text
  | .importNamespace, [name] => some fun p => "* as " ++ name.text p
  | .importAttribute, [key, value] => some fun p => key.text p ++ ": " ++ value.text p
  | .exportDecl, [declaration] => some fun p => "export " ++ statementLine p declaration
  | .exportDefault _, [value] => some fun p =>
      "export default "
        ++ (match value.label with
          | .function .defaultExport .. | .classDef true => value.text p
          | _ => value.text { p.bracketed Level.comma with front := .defaultExport } ++ ";")
  | .exportNames, parts => some fun _ =>
      "export " ++ specifiersText (labelled .exportSpecifier parts)
        ++ (if parts.any isSource then " from " ++ sourceText parts else ";")
  | .exportSpecifier, [name, exported] => some fun _ => renamedText name exported
  | .exportAll, name :: parts => some fun p =>
      "export *" ++ (if name.isPresent then " as " ++ name.text p else "") ++ " from "
        ++ sourceText parts
  | _, _ => none

/-! ## All nodes -/

/-- The text of a node with a label from the pieces of its children. -/
def textOf (label : Label) (parts : List Piece) : Place → String :=
  match leafText? label with
  | some text => fun _ => text
  | none =>
    ((expressionText label parts <|> functionOrClassText label parts <|> statementText label parts
      <|> moduleItemText label parts).getD fun _ => "")

mutual

/-- The piece of a node.  Parentheses are seen through. -/
def piece : Node → Piece
  | .mk label span children =>
    let parts := pieces children
    match label, parts with
    | .paren, [inner] => inner
    | _, _ => ⟨.mk label span (parts.map Piece.node), textOf label parts⟩

def pieces : List Node → List Piece
  | [] => []
  | n :: rest => piece n :: pieces rest

end

end ModuleBundler.Written

namespace ModuleBundler.Syntax

open ModuleBundler.Written

def Node.writtenLines (text : List Char) (program : Node) : List String :=
  program.children.filterMap fun n =>
    match n.label with
    | .absent => none
    | .hashbang => some (String.ofList (n.span.slice text))
    | _ => some (statementLine (.statement 0) (piece n))

def Node.written (text : List Char) (program : Node) : String :=
  String.join ((program.writtenLines text).map (· ++ "\n"))

end ModuleBundler.Syntax
