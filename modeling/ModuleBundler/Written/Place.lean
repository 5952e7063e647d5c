import ModuleBundler.Syntax.Tree

/-!
# Places

How an expression is written depends on its place: how deep the lines around it are indented, how
tightly the operator around it binds, and whether it stands where some of its first words would be
read as something else.  A `Piece` is a node together with its text at every place, so that the
text of a node follows from its label and the pieces of its children, without recursion.

The levels are the usual ones of the language, from the comma to the member access; an expression
is put in parentheses where the level of its place is not below its own.
-/

namespace ModuleBundler.Written

open ModuleBundler.Syntax

/-! ## Levels -/

namespace Level

/-- A place where every expression stands as it is. -/
def lowest : Nat := 0
/-- The operand of a comma. -/
def comma : Nat := 1
/-- The branch of a conditional. -/
def yield : Nat := 3
/-- Assignments and arrow functions. -/
def assign : Nat := 4
/-- Conditional expressions. -/
def conditional : Nat := 5
/-- The operator `**`. -/
def power : Nat := 17
/-- Operators before their operand. -/
def unary : Nat := 18
/-- Operators behind their operand. -/
def update : Nat := 19
/-- Constructor calls. -/
def new : Nat := 20
/-- Calls. -/
def call : Nat := 21
/-- Accesses. -/
def member : Nat := 22

end Level

/-- The level of an operator between two operands. -/
def operatorLevel : String → Nat
  | "??" => 6
  | "||" => 7
  | "&&" => 8
  | "|" => 9
  | "^" => 10
  | "&" => 11
  | "==" | "!=" | "===" | "!==" => 12
  | "<<" | ">>" | ">>>" => 14
  | "+" | "-" => 15
  | "*" | "/" | "%" => 16
  | "**" => Level.power
  | _ => 13

/-! ## Places and pieces -/

/-- What an expression is the first part of. -/
inductive Front where
  | inside | statement | arrowBody | defaultExport
deriving DecidableEq

/-- The surroundings of an expression or statement. -/
structure Place where
  /-- The number of tabs before a line. -/
  indent : Nat
  level : Nat
  front : Front
  /-- The operator `in` would end the head of a loop. -/
  loopHead : Bool
  /-- Parentheses of a call would be those of a constructor call. -/
  constructed : Bool

/-- The place of a statement that is indented by `indent` tabs. -/
def Place.statement (indent : Nat) : Place := ⟨indent, Level.lowest, .inside, false, false⟩

/-- A place inside brackets. -/
def Place.bracketed (p : Place) (level : Nat) : Place := ⟨p.indent, level, .inside, false, false⟩

/-- The place of an operand other than the first. -/
def Place.operand (p : Place) (level : Nat) : Place :=
  { p with level, front := .inside, constructed := false }

def Place.first (p : Place) (level : Nat) : Place := { p with level }

def Place.deeper (p : Place) : Place := { p with indent := p.indent + 1 }

/-- A node and its text at every place. -/
structure Piece where
  node : Node
  text : Place → String

def Piece.label (x : Piece) : Label := x.node.label

/-- Whether the piece stands for something in the program. -/
def Piece.isPresent (x : Piece) : Bool := x.node.isPresent

def Piece.absent : Piece := ⟨.absent, fun _ => ""⟩

instance : Inhabited Piece := ⟨.absent⟩

/-! ## Layout -/

/-- The text in parentheses if a condition holds; inside of them nothing stands in front. -/
def wrapIf (condition : Bool) (p : Place) (text : Place → String) : String :=
  if condition then "(" ++ text (p.bracketed p.level) ++ ")" else text p

def commaSeparated (texts : List String) : String := ", ".intercalate texts

/-- The start of a line. -/
def tabs (indent : Nat) : String := String.ofList (List.replicate indent '\t')

/-- Lines of text between two brackets, one tab deeper than the brackets. -/
def indentedBetween (p : Place) (left right : String) (lines : List String) : String :=
  left ++ "\n" ++ String.join (lines.map fun l => tabs (p.indent + 1) ++ l ++ "\n")
    ++ tabs p.indent ++ right

end ModuleBundler.Written
