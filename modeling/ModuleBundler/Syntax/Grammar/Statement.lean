import ModuleBundler.Syntax.Grammar.Expression

/-!
# Statements

A statement stands in a list or alone as the body of another one (`StatementPlace`); declarations
are faults in the second place.  Module items are read wherever a statement may stand; that they stand
at the top level is an early error's business.

The word `using` is an identifier here: it opens no declaration, neither alone nor behind `await`.
-/

namespace ModuleBundler.Syntax.Grammar

open Parse

variable (sub : Goal → Parse Node)

/-! ## Variables -/

/-- A declared pattern with its optional value. -/
def declarator (kind : VariableKind) : Parse Node := do
  let start ← here
  let pattern ← sub .pattern
  let value ← if ← eat .assign then sub .assignment else pure .absent
  node (.declarator kind) start [pattern, value]

/-- Notes a declarator that lacks a value it needs. -/
def checkInitializer (kind : VariableKind) (d : Node) : Parse Unit := do
  if !(d.child 1).isPresent then
    let pattern := d.child 0
    if pattern.binding?.isNone then report .missingPatternInitializer pattern.span.start
    else if kind == .const then report .missingConstInitializer pattern.span.start

/-- The declarators behind the word of a variable declaration that begins at `start`. -/
def declarators (start : Nat) (kind : VariableKind) (inLoop : Bool) : Parse Node := do
  let one : Parse Node := do
    let d ← declarator sub kind
    if !inLoop then checkInitializer kind d
    return d
  let first ← one
  let items ← iterate (fun items => do
    if ← eat .comma then return some ((← one) :: items) else return none) [first]
  node (.variables kind) start items.reverse

/-- A variable declaration, whose word is the current token, as a statement. -/
def variableStatement (kind : VariableKind) (position : StatementPlace) : Parse Node := do
  let start ← here
  advance
  let n ← declarators sub start kind false
  semicolon
  let n ← node (.variables kind) start n.children
  if position == .single && kind != .var then report .lexicalInSingleStatement start
  return n

/-- An expression that has been read as a statement that begins at `start`. -/
def expressionStatement (start : Nat) (expression : Node) : Parse Node := do
  semicolon
  node .expressionStatement start [expression]

/-- A statement that begins with the word `let`, which may also be an identifier. -/
def letStatement (position : StatementPlace) : Parse Node := do
  let start ← here
  let follower ← lookahead (do advance; token)
  let isOperator := (strength? follower.kind).isSome || match follower.kind with
    | .punct p => p.isAssignment
    | _ => false
  if isOperator then
    expressionStatement start (← sub .assignment)
  else if follower.isPunct .dot || follower.isPunct .leftParen then
    expressionStatement start (← sub .expression)
  else if (position == .single && !follower.isPunct .leftBracket) || follower.isPunct .semicolon
  then
    expressionStatement start (← identifierReference)
  else variableStatement sub .let position

/-! ## Simple statements -/

/-- A parenthesized expression in the head of a statement. -/
def headExpression : Parse Node := do
  expect .leftParen
  let n ← sub .expression
  expect .rightParen
  return n

def block : Parse Node := do
  let start ← here
  expect .leftBrace
  let items ← repeatUntil (do return (← isAt .rightBrace) || (← atEnd)) (sub (.statement .list))
  expect .rightBrace
  node .block start items

def expressionOrLabeled : Parse Node := do
  let start ← here
  let e ← sub .expression
  match e.label with
  | .reference name =>
    if ← eat .colon then
      let body ← sub (.statement .single)
      node .labeled start [.mk (.labelName name) e.span [], body]
    else expressionStatement start e
  | _ => expressionStatement start e

def ifStatement : Parse Node := do
  let start ← here
  advance
  let test ← headExpression sub
  let consequent ← sub (.statement .single)
  let alternate ← if ← eatWord "else" then sub (.statement .single) else pure .absent
  node .ifStatement start [test, consequent, alternate]

def whileLoop : Parse Node := do
  let start ← here
  advance
  let test ← headExpression sub
  let body ← sub (.statement .single)
  node .whileLoop start [test, body]

def doWhile : Parse Node := do
  let start ← here
  advance
  let body ← sub (.statement .single)
  expectWord "while"
  let test ← headExpression sub
  let _ ← eat .semicolon
  node .doWhile start [body, test]

/-- A jump, whose word is the current token. -/
def jump (label : Label) : Parse Node := do
  let start ← here
  advance
  let target ← if ← canEndStatement then pure .absent else labelIdentifier
  semicolon
  node label start [target]

def returnStatement : Parse Node := do
  let start ← here
  advance
  let value ←
    if (← eat .semicolon) || (← canEndStatement) then pure .absent
    else
      let value ← allowingIn (sub .expression)
      semicolon
      pure value
  if !(← get).permit.returning then report .returnOutsideFunction start
  node .returnStatement start [value]

def withStatement : Parse Node := do
  let start ← here
  advance
  let object ← headExpression sub
  let body ← sub (.statement .single)
  node .withStatement start [object, body]

def switchCase : Parse Node := do
  let start ← here
  let test ←
    if ← eatWord "default" then pure .absent
    else do
      if ← eatWord "case" then sub .expression else unexpected
  expect .colon
  let atCaseEnd : Parse Bool := do
    return (← atWord "case") || (← atWord "default") || (← isAt .rightBrace) || (← atEnd)
  let items ← repeatUntil atCaseEnd (sub (.statement .list))
  node .switchCase start (test :: items)

def switchStatement : Parse Node := do
  let start ← here
  advance
  let discriminant ← headExpression sub
  expect .leftBrace
  let cases ← repeatUntil (do return (← isAt .rightBrace) || (← atEnd)) (switchCase sub)
  expect .rightBrace
  node .switchStatement start (discriminant :: cases)

def throwStatement : Parse Node := do
  let start ← here
  advance
  if ← afterNewline then report .newlineAfterThrow start
  let value ← sub .expression
  semicolon
  node .throwStatement start [value]

def tryStatement : Parse Node := do
  let start ← here
  advance
  let body ← sub .block
  let handlerStart ← here
  let handler ←
    if ← eatWord "catch" then
      let parameter ←
        if ← eat .leftParen then
          let pattern ← sub .pattern
          expect .rightParen
          pure pattern
        else pure .absent
      let handlerBody ← sub .block
      node .catchClause handlerStart [parameter, handlerBody]
    else pure .absent
  let finalizer ← if ← eatWord "finally" then sub .block else pure .absent
  if !handler.isPresent && !finalizer.isPresent then
    report .catchOrFinallyMissing body.span.stop
  node .tryStatement start [body, handler, finalizer]

/-! ## For loops -/

/-- A for loop with three parts, the first of which has been read. -/
def forLoop (start : Nat) (isAwait : Bool) (first : Node) : Parse Node := do
  expect .semicolon
  if let .variables kind := first.label then
    for d in first.children do checkInitializer kind d
  let test ←
    if (← isAt .semicolon) || (← isAt .rightParen) then pure .absent
    else allowingIn (sub .expression)
  expect .semicolon
  let step ← if ← isAt .rightParen then pure .absent else allowingIn (sub .expression)
  expect .rightParen
  if isAwait then report .forAwaitWithoutOf start
  let body ← sub (.statement .single)
  node .forLoop start [first, test, step, body]

/-- A for loop over the members of an object or a sequence; its left part has been read. -/
def forEach (start : Nat) (isAwait : Bool) (left : Node) : Parse Node := do
  let isIn ← atWord "in"
  advance
  let right ← if isIn then sub .expression else sub .assignment
  expect .rightParen
  if isAwait && isIn then report .forAwaitWithoutOf start
  let body ← sub (.statement .single)
  node (if isIn then .forIn else .forOf isAwait) start [left, right, body]

/-- The kind of declaration that opens the head of a for loop. -/
def forDeclarationKind : Parse (Option VariableKind) := do
  if ← atWord "var" then return some .var
  if ← atWord "const" then return some .const
  if ← atWord "let" then
    let follower ← lookahead (do advance; token)
    let declares := match follower.kind with
      | .word text _ => text != "in"
      | .punct .leftBrace | .punct .leftBracket => true
      | _ => false
    return if declares then some .let else none
  return none

def forStatement : Parse Node := do
  let start ← here
  advance
  let isAwait ← atWord "await"
  if isAwait then
    if !(← get).permit.await then report .awaitOutsideAsync (← here)
    advance
  expect .leftParen
  if ← isAt .semicolon then return ← forLoop sub start isAwait .absent
  if let some kind ← forDeclarationKind then
    let declarationStart ← here
    advance
    let first ← permitting (fun c => { c with inOperator := false })
      (declarators sub declarationStart kind true)
    if (← atWord "in") || (← atWord "of") then return ← forEach sub start isAwait first
    return ← forLoop sub start isAwait first
  if ← isAt .rightParen then return ← forLoop sub start isAwait .absent
  let firstToken ← token
  let follower ← lookahead (do advanceName; token)
  let beforeOf := follower.isWord "of"
  let first ← permitting (fun c => { c with inOperator := false }) (sub .expression)
  if (← atWord "in") || (← atWord "of") then
    let target ← toTarget first
    if !isAwait && firstToken.isWord "async" && !firstToken.isEscaped && beforeOf then
      report .asyncAsLoopTarget firstToken.span.start
    if firstToken.isWord "let" && beforeOf then report .unexpectedToken firstToken.span.start
    forEach sub start isAwait target
  else forLoop sub start isAwait first

/-! ## Declarations -/

/-- A function declaration, whose first word is the current token and which begins at `start`. -/
def functionStatement (start : Nat) (isAsync : Bool) (position : StatementPlace) : Parse Node := do
  let n ← function sub start isAsync .declaration
  if position == .single then
    match n.label with
    | .function _ true _ => report .asyncFunctionInSingleStatement start
    | .function _ _ true => report .generatorInSingleStatement start
    | _ => pure ()
  return n

def classStatement (start : Nat) (decorations : List Node) (position : StatementPlace) :
    Parse Node := do
  let n ← classDefinition sub start true decorations
  if position == .single then report .classInSingleStatement start
  return n

/-- Whether the word `async` is followed by the word `function` on the same line. -/
def atAsyncFunction : Parse Bool := lookahead do
  if !(← eatWord "async") then return false
  return (← atWord "function") && !(← afterNewline)

end ModuleBundler.Syntax.Grammar
