import ModuleBundler.Written.Function

/-!
# The text of statements

The text of a statement has no tabs before it and no line end behind it.  Every statement that can
end with a semicolon does.  The body of a loop or branch stands on the line of its head.
-/

namespace ModuleBundler.Written

open ModuleBundler.Syntax

/-! ## Lines -/

def statementLine (p : Place) (x : Piece) : String :=
  match x.label with
  | .variables _ => x.text p ++ ";"
  | _ => x.text p

/-- The body of a loop or branch, behind its head. -/
def bodyText (x : Piece) (p : Place) : String :=
  match x.label with
  | .emptyStatement => ";"
  | _ => " " ++ statementLine (.statement p.indent) x

def headText (x : Piece) (p : Place) : String := "(" ++ x.text (p.bracketed Level.lowest) ++ ")"

/-- A word, and an expression or name behind it unless that is left out. -/
def wordText (word : String) (x : Piece) (p : Place) : String :=
  word ++ (if x.isPresent then " " ++ x.text (p.bracketed Level.lowest) else "") ++ ";"

/-! ## Branches -/

mutual

/-- Whether a statement ends with a branch that a following `else` would belong to. -/
def endsInOpenBranch : Node → Bool
  | .mk label _ children =>
    match label with
    | .ifStatement => openBranch children
    | .forLoop | .forIn | .forOf _ | .whileLoop | .withStatement | .labeled =>
      lastEndsInOpenBranch children
    | _ => false

/-- Whether a branch with these children takes a following `else`, itself or at its end. -/
def openBranch : List Node → Bool
  | [_, _, alternate] => if alternate.isPresent then endsInOpenBranch alternate else true
  | _ => false

/-- Whether the last of some statements ends with an open branch. -/
def lastEndsInOpenBranch : List Node → Bool
  | [] => false
  | [n] => endsInOpenBranch n
  | _ :: rest => lastEndsInOpenBranch rest

end

def ifText (test yes no : Piece) (p : Place) : String :=
  let alone := endsInOpenBranch yes.node
  let consequent :=
    if alone then " " ++ bracedText [yes] statementLine p else bodyText yes p
  let between := if yes.label == .block || alone then " " else "\n" ++ tabs p.indent
  "if " ++ headText test p ++ consequent
    ++ (if no.isPresent then between ++ "else" ++ bodyText no p else "")

/-- A case of a switch statement; a single statement stands on the line of its case. -/
def caseText (test : Piece) (items : List Piece) (p : Place) : String :=
  let head :=
    (if test.isPresent then "case " ++ test.text (p.bracketed Level.lowest) else "default") ++ ":"
  match items with
  | [x] => head ++ bodyText x p
  | _ =>
    let inner := Place.statement (p.indent + 1)
    head ++ String.join (items.map fun x => "\n" ++ tabs inner.indent ++ statementLine inner x)

/-! ## Loops -/

def forHead (start test step : Piece) (p : Place) : String :=
  let part (x : Piece) : String :=
    if x.isPresent then " " ++ x.text (p.bracketed Level.lowest) else ""
  (if start.isPresent then start.text { p.bracketed Level.lowest with loopHead := true } else "")
    ++ ";" ++ part test ++ ";" ++ part step

/-! ## All statements -/

def statementText : Label → List Piece → Option (Place → String)
  | .directive, [text] => some fun p =>
      (match text.label with
        | .string _ _ raw => directiveText raw
        | _ => text.text p) ++ ";"
  | .expressionStatement, [x] => some fun p =>
      x.text { p.bracketed Level.lowest with front := .statement } ++ ";"
  | .block, items | .body, items => some (bracedText items statementLine)
  | .staticBlock, items => some fun p => "static " ++ bracedText items statementLine p
  | .emptyStatement, _ => some fun _ => ";"
  | .variables kind, items => some fun p =>
      kind.text ++ " " ++ commaSeparated (items.map fun x => x.text p)
  | .declarator _, [pattern, value] => some fun p =>
      pattern.text p
        ++ (if value.isPresent then
          " = " ++ value.text { p.bracketed Level.comma with loopHead := p.loopHead } else "")
  | .ifStatement, [test, yes, no] => some (ifText test yes no)
  | .forLoop, [start, test, step, body] => some fun p =>
      "for (" ++ forHead start test step p ++ ")" ++ bodyText body p
  | .forIn, [left, right, body] => some fun p =>
      "for (" ++ left.text { p.bracketed Level.lowest with loopHead := true } ++ " in "
        ++ right.text (p.bracketed Level.lowest) ++ ")" ++ bodyText body p
  | .forOf isAwait, [left, right, body] => some fun p =>
      (if isAwait then "for await (" else "for (")
        ++ left.text { p.bracketed Level.lowest with loopHead := true } ++ " of "
        ++ right.text (p.bracketed Level.comma) ++ ")" ++ bodyText body p
  | .whileLoop, [test, body] => some fun p => "while " ++ headText test p ++ bodyText body p
  | .doWhile, [body, test] => some fun p =>
      let between := if body.label == .block then " " else "\n" ++ tabs p.indent
      "do" ++ bodyText body p ++ between ++ "while " ++ headText test p ++ ";"
  | .continueStatement, [label] => some (wordText "continue" label)
  | .breakStatement, [label] => some (wordText "break" label)
  | .returnStatement, [value] => some (wordText "return" value)
  | .throwStatement, [value] => some (wordText "throw" value)
  | .withStatement, [object, body] => some fun p => "with " ++ headText object p ++ bodyText body p
  | .switchStatement, test :: cases => some fun p =>
      "switch " ++ headText test p ++ " " ++ bracedText cases (fun p x => x.text p) p
  | .switchCase, test :: items => some (caseText test items)
  | .labeled, [label, body] => some fun p => label.text p ++ ":" ++ bodyText body p
  | .tryStatement, [block, handler, finalizer] => some fun p =>
      "try " ++ block.text p ++ (if handler.isPresent then " " ++ handler.text p else "")
        ++ (if finalizer.isPresent then " finally " ++ finalizer.text p else "")
  | .catchClause, [parameter, block] => some fun p =>
      "catch " ++ (if parameter.isPresent then headText parameter p ++ " " else "") ++ block.text p
  | .debuggerStatement, _ => some fun _ => "debugger;"
  | _, _ => none

end ModuleBundler.Written
