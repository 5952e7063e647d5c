import ModuleBundler.Written.Literal
import ModuleBundler.Written.Place

/-!
# The text of expressions and patterns

`expressionText label parts` is the text of an expression from the pieces of its children.
Parentheses of the program are not kept; they are written where the place of an expression needs
them, and nowhere else.  Objects with more than one property and arrays with more than two
elements stand on lines of their own.
-/

namespace ModuleBundler.Written

open ModuleBundler.Syntax

/-! ## Operators -/

def isWordOperator (operator : String) : Bool :=
  operator.toList.head?.any Char.isAlpha

/-- Whether a piece mixes with `??` only in parentheses. -/
def isMixing (x : Piece) : Bool := x.label == .logical "||" || x.label == .logical "&&"

/-- Whether a piece is an operator before an operand, which `**` does not take on its left. -/
def isPlainUnary (x : Piece) : Bool :=
  match x.label with
  | .unary _ | .await => true
  | _ => false

def operandLevels (operator : String) (left right : Piece) : Nat × Nat :=
  let level := operatorLevel operator
  match operator with
  | "**" => (if isPlainUnary left then Level.call else level, level - 1)
  | "??" =>
    (if isMixing left then Level.unary else level - 1,
      if isMixing right then Level.unary else level)
  | _ => (level - 1, level)

def binaryText (operator : String) (left right : Piece) (p : Place) : String :=
  let level := operatorLevel operator
  let levels := operandLevels operator left right
  wrapIf (level ≤ p.level || (operator == "in" && p.loopHead)) p fun p =>
    left.text (p.first levels.1) ++ " " ++ operator ++ " " ++ right.text (p.operand levels.2)

/-- An operator before its operand; equal signs are kept apart. -/
def unaryText (operator : String) (operand : Piece) (p : Place) : String :=
  wrapIf (Level.unary ≤ p.level) p fun p =>
    let text := operand.text (p.operand Level.power)
    let joins := (operator == "+" || operator == "-") && operator.toList.head? == text.toList.head?
    operator ++ (if isWordOperator operator || joins then " " else "") ++ text

def updateText (operator : String) (before : Bool) (operand : Piece) (p : Place) : String :=
  if before then
    wrapIf (Level.unary ≤ p.level) p fun p => operator ++ operand.text (p.operand Level.unary)
  else
    wrapIf (Level.update ≤ p.level) p fun p => operand.text (p.first Level.update) ++ operator

/-- An assignment; an object pattern does not begin a statement. -/
def assignText (operator : String) (target value : Piece) (p : Place) : String :=
  let wrapped := Level.assign ≤ p.level
    || (target.label == .objectPattern && (p.front == .statement || p.front == .arrowBody))
  wrapIf wrapped p fun p =>
    target.text (p.first Level.lowest) ++ " " ++ operator ++ " "
      ++ value.text (p.operand Level.comma)

def conditionalText (test yes no : Piece) (p : Place) : String :=
  wrapIf (Level.conditional ≤ p.level) p fun p =>
    test.text (p.first Level.conditional) ++ " ? "
      ++ yes.text { p.operand Level.yield with loopHead := false } ++ " : "
      ++ no.text (p.operand Level.yield)

/-! ## Accesses and calls -/

/-- The text between an object and the name of its property. -/
def accessMark (optional : Bool) (object : String) (label : Label) : String :=
  match optional, label with
  | true, _ => "?."
  | false, .number .. => if object.toList.all Char.isDigit then " ." else "."
  | false, _ => "."

def memberText (optional : Bool) (object name : Piece) (p : Place) : String :=
  let text := object.text { p.first Level.update with constructed := p.constructed }
  text ++ accessMark optional text object.label ++ name.text p

def indexText (optional : Bool) (object key : Piece) (p : Place) : String :=
  object.text { p.first Level.update with constructed := p.constructed }
    ++ (if optional then "?.[" else "[") ++ key.text (p.bracketed Level.lowest) ++ "]"

def argumentsText (items : List Piece) (p : Place) : String :=
  "(" ++ commaSeparated (items.map fun x => x.text (p.bracketed Level.comma)) ++ ")"

def callText (optional : Bool) (callee : Piece) (items : List Piece) (p : Place) : String :=
  wrapIf (Level.new ≤ p.level || p.constructed) p fun p =>
    callee.text (p.first Level.update) ++ (if optional then "?." else "") ++ argumentsText items p

def newText (callee : Piece) (items : List Piece) (p : Place) : String :=
  wrapIf (Level.call ≤ p.level) p fun p =>
    "new " ++ callee.text { p.operand Level.new with constructed := true } ++ argumentsText items p

/-! ## Lists -/

/-- Elements between brackets; a last place without an element keeps its comma. -/
def arrayText (items : List Piece) (p : Place) : String :=
  let texts (p : Place) := items.map fun x => x.text (p.bracketed Level.comma)
  let last := if (items.getLast?.map (·.label)) == some .elision then "," else ""
  if 2 < items.length then
    let deep := texts p.deeper
    indentedBetween p "[" "]" (deep.dropLast.map (· ++ ",") ++ [deep.getLastD "" ++ last])
  else "[" ++ commaSeparated (texts p) ++ last ++ "]"

def objectText (items : List Piece) (p : Place) : String :=
  wrapIf (p.front == .statement || p.front == .arrowBody) p fun p =>
    let texts (p : Place) := items.map fun x => x.text (p.bracketed Level.comma)
    match items with
    | [] => "\x7b\x7d"
    | [_] => "\x7b " ++ commaSeparated (texts p) ++ " \x7d"
    | _ =>
      let deep := texts p.deeper
      indentedBetween p "\x7b" "\x7d" (deep.dropLast.map (· ++ ",") ++ [deep.getLastD ""])

/-- A property name, in brackets where it is computed. -/
def keyText (computed : Bool) (key : Piece) (p : Place) : String :=
  if computed then "[" ++ key.text (p.bracketed Level.comma) ++ "]" else key.text (p.bracketed 0)

def objectPatternText (items : List Piece) (p : Place) : String :=
  match items with
  | [] => "\x7b\x7d"
  | _ =>
    "\x7b " ++ commaSeparated (items.map fun x => x.text (p.bracketed Level.comma)) ++ " \x7d"

def arrayPatternText (items : List Piece) (p : Place) : String :=
  let last := if (items.getLast?.map (·.label)) == some .elision then "," else ""
  "[" ++ commaSeparated (items.map fun x => x.text (p.bracketed Level.comma)) ++ last ++ "]"

/-! ## All expressions -/

/-- The text of an expression or pattern that is neither a function nor a class. -/
def expressionText : Label → List Piece → Option (Place → String)
  | .template parts, values => some fun p =>
      "`" ++ templateText parts (values.map fun x => x.text (p.bracketed Level.lowest)) ++ "`"
  | .tagged, [tag, quasi] => some fun p => tag.text (p.first Level.update) ++ quasi.text p
  | .array, items => some (arrayText items)
  | .spread, [value] => some fun p => "..." ++ value.text (p.bracketed Level.comma)
  | .object, items => some (objectText items)
  | .property .plain true _, [_, value] => some value.text
  | .property .plain false computed, [key, value] => some fun p =>
      keyText computed key p ++ ": " ++ value.text (p.bracketed Level.comma)
  | .sequence, first :: rest => some fun p =>
      wrapIf (Level.comma ≤ p.level) p fun p =>
        commaSeparated
          (first.text (p.first Level.lowest)
            :: rest.map fun x => x.text (p.operand Level.lowest))
  | .assign operator, [target, value] => some (assignText operator target value)
  | .binary operator, [left, right] => some (binaryText operator left right)
  | .logical operator, [left, right] => some (binaryText operator left right)
  | .privateIn, [name, right] => some (binaryText "in" name right)
  | .conditional, [test, yes, no] => some (conditionalText test yes no)
  | .unary operator, [operand] => some (unaryText operator operand)
  | .update operator before, [operand] => some (updateText operator before operand)
  | .await, [operand] => some fun p =>
      wrapIf (Level.unary ≤ p.level) p fun p => "await " ++ operand.text (p.operand Level.power)
  | .yield delegate, [operand] => some fun p =>
      wrapIf (Level.assign ≤ p.level) p fun p =>
        (if delegate then "yield*" else "yield")
          ++ (if operand.isPresent then " " ++ operand.text (p.operand Level.yield) else "")
  | .member optional, [object, name] => some (memberText optional object name)
  | .index optional, [object, key] => some (indexText optional object key)
  | .call optional, callee :: items => some (callText optional callee items)
  | .new _, callee :: items => some (newText callee items)
  | .importCall phase, items => some fun p =>
      "import" ++ (if phase.isEmpty then "" else "." ++ phase) ++ argumentsText items p
  | .metaProperty, [word, name] => some fun p => word.text p ++ "." ++ name.text p
  | .chain, [inner] => some fun p => wrapIf (Level.update ≤ p.level) p inner.text
  | .objectPattern, items => some (objectPatternText items)
  | .patternProperty true _, [_, pattern] => some pattern.text
  | .patternProperty false computed, [key, pattern] => some fun p =>
      keyText computed key p ++ ": " ++ pattern.text (p.bracketed Level.comma)
  | .arrayPattern, items => some (arrayPatternText items)
  | .defaulted, [pattern, value] => some fun p =>
      pattern.text p ++ " = " ++ value.text (p.bracketed Level.comma)
  | .rest, [pattern] => some fun p => "..." ++ pattern.text p
  | _, _ => none

end ModuleBundler.Written
