import ModuleBundler.Syntax.Parse

/-!
# Goals, words and literals

The grammar is mutually recursive.  Its recursion runs through one function from a `Goal` to the
node found, which every piece of the grammar takes as the argument `sub`; `Grammar.Program` ties
the knot.

This module holds the pieces that need no recursion: identifiers, property names that are words,
and literals.
-/

namespace ModuleBundler.Syntax

/-- Whether a statement stands in a list or alone, as the body of another statement. -/
inductive StatementPlace where
  | list | single
deriving DecidableEq

/-- What the grammar recurs on. -/
inductive Goal where
  | expression
  | assignment
  /-- Operators that bind more tightly than `above`. -/
  | binary (above : Nat)
  | unary
  | leftHandSide
  | statement (position : StatementPlace)
  | pattern
  | block
  | functionBody
deriving DecidableEq

namespace Grammar

open Parse

/-! ## Identifiers -/

/-- Notes `await` and `yield` as identifiers where they are operators. -/
def checkIdentifier (word : String) (offset : Nat) (permit : Permit) : Parse Unit := do
  if permit.await && word == "await" then report .awaitAsIdentifier offset
  if permit.yield && word == "yield" then report .yieldAsIdentifier offset

/-- Whether the current token may be an identifier. -/
def atIdentifier : Parse Bool := do
  match (← token).kind with
  | .word text _ => return isIdentifierWord text
  | _ => return false

/-- An identifier that refers to a binding. -/
def identifierReference : Parse Node := do
  if ← atIdentifier then
    checkIdentifier (← wordHere) (← here) (← get).permit
    nameLeaf .reference
  else unexpected

def bindingIdentifier : Parse Node := do
  if ← atIdentifier then
    checkIdentifier (← wordHere) (← here) (← get).permit
    nameLeaf .binding
  else unexpected

/-- The label of a statement, or the label a jump names. -/
def labelIdentifier : Parse Node := do
  if ← atIdentifier then
    checkIdentifier (← wordHere) (← here) (← get).permit
    nameLeaf .labelName
  else unexpected

def identifierName : Parse Node := do
  match (← token).kind with
  | .word _ _ => nameLeaf .name
  | _ => unexpected

def privateName : Parse Node := do
  match (← token).kind with
  | .privateName text => leaf (.privateName text)
  | _ => unexpected

/-! ## Literals -/

def stringLiteral : Parse Node := do
  match (← token).kind with
  | .string value wellFormed raw => leaf (.string value wellFormed raw)
  | _ => unexpected

def numberLiteral : Parse Node := do
  match (← token).kind with
  | .number .bigint raw => leaf (.bigint raw)
  | .number form raw => leaf (.number (form == .octal) raw)
  | _ => unexpected

/-- A regular expression, whose first slash is the current token. -/
def regexLiteral : Parse Node := do
  rereadRegex
  if !(← get).lexical.isEmpty then unexpected
  let t ← token
  match t.kind with
  | .regex pattern flags =>
    let n ← leaf (.regex pattern flags)
    if flags.toList.contains 'u' && flags.toList.contains 'v' then
      report .regexFlagsConflict t.span.start
    return n
  | _ => unexpected

end Grammar

end ModuleBundler.Syntax
