import ModuleBundler.Syntax.Lexer
import ModuleBundler.Syntax.Tree

/-!
# Parsing steps

`Parse α` is a step of a parser: it takes a `ParseState`, whose current token has been read and
whose cursor stands behind that token, and answers with a result and a later state, or halts.

Faults come in two strengths.  `report` notes a fault and goes on; `fail` halts.  A halt keeps the
state in which it happened, because the fault to show is not always the one that halted: faults
of the characters come first, then noted faults, then the halting fault (`Halt.first`).

Loops run through `iterate`, whose bound is the budget of the state; every round of a loop in the
grammar reads at least one token, so a budget above the length of the text is never used up.
-/

namespace ModuleBundler.Syntax

/-! ## States -/

/-- What the place allows. -/
structure Permit where
  /-- The word `in` is an operator. -/
  inOperator : Bool
  /-- The word `yield` begins an expression. -/
  yield : Bool
  /-- The word `await` begins an expression. -/
  await : Bool
  /-- A return statement may stand here. -/
  returning : Bool
  /-- The place is an expression behind an at sign. -/
  decorator : Bool
deriving DecidableEq

/-- The top level of a module. -/
def Permit.module : Permit := ⟨true, false, true, false, false⟩

/-- Where a parser stands. -/
structure ParseState where
  /-- The current token. -/
  token : Token
  /-- The text behind the current token. -/
  next : Cursor
  /-- The offset at which the previous token ends. -/
  prevStop : Nat
  permit : Permit
  /-- Faults of the characters read so far, newest first. -/
  lexical : List Fault
  /-- Faults of the grammar noted so far, newest first. -/
  noted : List Fault
  /-- Initializers of shorthand properties that are faults unless their literal turns out to be a
  pattern, by the offset of the property. -/
  initializers : List Nat
  /-- The offsets of trailing commas, by the offset of their literal. -/
  trailing : List (Nat × Nat)
  /-- Offsets of parentheses known not to open the parameters of an arrow function. -/
  notArrow : List Nat
  /-- The first comment of the program. -/
  comment : Option Span
  /-- A bound on the rounds of a loop. -/
  budget : Nat

/-- The end of parsing by a fault. -/
structure Halt where
  state : ParseState
  fault : Fault

/-- A step of a parser. -/
abbrev Parse (α : Type) := StateT ParseState (Except Halt) α

/-- The fault to show for a halt. -/
def Halt.first (h : Halt) : Fault :=
  match h.state.lexical.reverse, h.state.noted.reverse with
  | f :: _, _ => f
  | [], f :: _ => f
  | [], [] => h.fault

namespace Parse

def report (cause : Cause) (offset : Nat) : Parse Unit :=
  modify fun s => { s with noted := ⟨cause, offset⟩ :: s.noted }

def fail {α : Type} (cause : Cause) (offset : Nat) : Parse α :=
  fun s => .error ⟨s, ⟨cause, offset⟩⟩

/-- Halts at the current token.  Characters that form no token have a better fault already. -/
def unexpected {α : Type} : Parse α := fun s =>
  match s.token.kind, s.lexical with
  | .unknown, f :: rest => .error ⟨{ s with lexical := rest }, f⟩
  | _, _ => .error ⟨s, ⟨.unexpectedToken, s.token.span.start⟩⟩

/-! ## Tokens -/

def token : Parse Token := do return (← get).token

def here : Parse Nat := do return (← get).token.span.start

/-- Whether the current token begins a line. -/
def afterNewline : Parse Bool := do return (← get).token.afterNewline

/-- The text of the current token when it is a word, and the empty text otherwise. -/
def wordHere : Parse String := do
  match (← get).token.kind with
  | .word text _ => return text
  | _ => return ""

/-- Makes a lexeme the current token. -/
def accept (lexeme : Lexeme) : Parse Unit :=
  modify fun s =>
    { s with
      token := lexeme.token
      next := lexeme.next
      lexical := lexeme.faults.reverse ++ s.lexical
      comment := s.comment <|> lexeme.comment }

/-- Passes the current token, which is read as a name. -/
def advanceName : Parse Unit := do
  let s ← get
  set { s with prevStop := s.token.span.stop }
  accept (Token.read s.budget s.next)

/-- Passes the current token.  A keyword must be spelled without escapes. -/
def advance : Parse Unit := do
  let t ← token
  if let .word text true := t.kind then
    if isKeyword text then report .escapedKeyword t.span.start
  advanceName

def isAt (p : Punct) : Parse Bool := do return (← get).token.isPunct p

def atWord (text : String) : Parse Bool := do return (← get).token.isWord text

def atEnd : Parse Bool := do return (← get).token.kind == .eof

def eat (p : Punct) : Parse Bool := do
  if ← isAt p then advance; return true else return false

def eatWord (text : String) : Parse Bool := do
  if ← atWord text then advance; return true else return false

/-- Halts because `wanted` does not stand here. -/
def expected {α : Type} (wanted : String) : Parse α := do
  let t ← token
  fail (.expectedToken wanted t.kind.describe) t.span.start

/-- Passes the punctuator `p`, which must stand here. -/
def expect (p : Punct) : Parse Unit := do
  if ← isAt p then advance else expected p.text

/-- Passes the word `text`, which must stand here. -/
def expectWord (text : String) : Parse Unit := do
  if ← atWord text then advance else expected text

/-- Whether a statement may end here without a semicolon. -/
def canEndStatement : Parse Bool := do
  let t ← token
  return t.isPunct .semicolon || t.isPunct .rightBrace || t.kind == .eof || t.afterNewline

/-- Passes the semicolon of a statement, written or implicit. -/
def semicolon : Parse Unit := do
  if ← eat .semicolon then return ()
  if ← canEndStatement then return ()
  let s ← get
  fail .semicolonMissing s.prevStop

/-- Reads the current slash again as the start of a regular expression. -/
def rereadRegex : Parse Unit := do
  let s ← get
  accept (Token.readRegex s.token s.next)

/-- Reads the current closing brace again as the rest of a template. -/
def rereadTemplate : Parse Unit := do
  let s ← get
  if s.token.isPunct .rightBrace then accept (Token.readTemplateTail s.budget s.token s.next)

/-! ## Combinators -/

/-- Runs a step and goes back. -/
def lookahead {α : Type} (p : Parse α) : Parse α := fun s =>
  match p s with
  | .ok (a, _) => .ok (a, s)
  | .error h => .error h

/-- Runs a step; when it halts, goes back and answers `none`. -/
def attempt {α : Type} (p : Parse α) : Parse (Option α) := fun s =>
  match p s with
  | .ok (a, after) => .ok (some a, after)
  | .error _ => .ok (none, s)

/-- Runs a step with another permit. -/
def permitting {α : Type} (change : Permit → Permit) (p : Parse α) : Parse α := do
  let before := (← get).permit
  modify fun s => { s with permit := change s.permit }
  let a ← p
  modify fun s => { s with permit := before }
  return a

def allowingIn {α : Type} (p : Parse α) : Parse α :=
  permitting (fun c => { c with inOperator := true }) p

/-- Repeats a step until it answers `none`, at most `n` times. -/
def rounds {α : Type} (step : α → Parse (Option α)) : Nat → α → Parse α
  | 0, a => return a
  | n + 1, a => do
    match ← step a with
    | none => return a
    | some b => rounds step n b

/-- Repeats a step until it answers `none`. -/
def iterate {α : Type} (step : α → Parse (Option α)) (a : α) : Parse α := do
  rounds step (← get).budget a

def repeatUntil (stop : Parse Bool) (item : Parse Node) : Parse (List Node) := do
  let items ← iterate (fun items => do
    if ← stop then return none
    return some ((← item) :: items)) []
  return items.reverse

/-- Items between commas up to the closing punctuator, which is left in place; the second result
is the offset of a comma that stands just before it. -/
def commaList (close : Punct) (item : Parse Node) : Parse (List Node × Option Nat) := do
  if (← isAt close) || (← atEnd) then return ([], none)
  let first ← item
  let (items, comma, _) ← iterate
    (fun (state : List Node × Option Nat × Bool) => do
      let (items, _, done) := state
      if done || (← isAt close) || (← atEnd) then return none
      let comma ← here
      expect .comma
      if ← isAt close then return some (items, some comma, true)
      return some ((← item) :: items, none, false))
    ([first], none, false)
  return (items.reverse, comma)

/-- Items between commas up to the closing punctuator, which is left in place, with at most one
rest, which must be the last of them. -/
def commaListWithRest (close : Punct) (item rest : Parse Node) (restNotLast : Cause) :
    Parse (List Node) := do
  let (items, _) ← iterate
    (fun (state : List Node × Option Node) => do
      let (items, restNode) := state
      if (← isAt close) || (← atEnd) then return none
      if !items.isEmpty then
        let comma ← here
        expect .comma
        if ← isAt close then
          if restNode.isSome then report .commaAfterRestBinding comma
          return none
      if let some r := restNode then fail restNotLast r.span.start
      if ← isAt .dots then
        let r ← rest
        return some (r :: items, some r)
      return some ((← item) :: items, none))
    ([], none)
  return items.reverse

/-! ## Nodes -/

/-- A node from offset `start` to the end of the previous token. -/
def node (label : Label) (start : Nat) (children : List Node) : Parse Node := do
  return .mk label ⟨start, (← get).prevStop⟩ children

/-- A node that is the current token, which is passed. -/
def leaf (label : Label) : Parse Node := do
  let t ← token
  advance
  return .mk label t.span []

/-- A node that is the current word, which is passed as a name. -/
def nameLeaf (label : String → Label) : Parse Node := do
  let t ← token
  let text ← wordHere
  advanceName
  return .mk (label text) t.span []

end Parse

end ModuleBundler.Syntax
