import ModuleBundler.Syntax.Grammar.Pattern

/-!
# Functions, methods and arrow functions

A function's parameters and body are read with the permits of the function itself: `await` and
`yield` are operators in it exactly when it is asynchronous, respectively a generator.

Whether a parenthesis opens the parameters of an arrow function is guessed from the tokens behind
it (`arrowHint`); only where the guess is open are parameters tried and given up again.
-/

namespace ModuleBundler.Syntax.Grammar

open Parse

variable (sub : Goal → Parse Node)

/-! ## Parameters and bodies -/

def parameters : Parse Node := do
  let start ← here
  expect .leftParen
  let items ← commaListWithRest .rightParen (patternWithInitializer sub) (restElement sub)
    .restParameterNotLast
  expect .rightParen
  node .params start items

/-- The statements between braces, the leading strings among them read as directives. -/
def statementsWithDirectives (stop : Parse Bool) : Parse (List Node) := do
  let (items, _) ← iterate
    (fun (state : List Node × Bool) => do
      let (items, directives) := state
      if ← stop then return none
      let statement ← sub (.statement .list)
      match directives, statement with
      | true, .mk .expressionStatement span [.mk (.string value wellFormed raw) literal _] =>
        let text := Node.mk (.string value wellFormed raw) literal []
        return some (.mk .directive span [text] :: items, true)
      | _, _ => return some (statement :: items, false))
    ([], true)
  return items.reverse

def functionBody : Parse Node := do
  let start ← here
  expect .leftBrace
  let items ← permitting (fun c => { c with returning := true })
    (statementsWithDirectives sub (do return (← isAt .rightBrace) || (← atEnd)))
  expect .rightBrace
  node .body start items

/-- Parameters and body of a function whose name has been read. -/
def functionRest (start : Nat) (name : Node) (form : FunctionForm) (isAsync isGenerator : Bool) :
    Parse Node := do
  let (params, body) ← permitting
    (fun c => { c with inOperator := true, await := isAsync, yield := isGenerator })
    (do
      let params ← parameters sub
      if ← isAt .leftBrace then
        let body ← sub .functionBody
        return (params, body)
      else fail .functionBodyMissing start)
  node (.function form isAsync isGenerator) start [name, params, body]

/-! ## Functions -/

/-- The name of a function, absent where it is left out. -/
def functionName (form : FunctionForm) (isAsync isGenerator : Bool) : Parse Node := do
  let t ← token
  if ← atIdentifier then
    let permit := (← get).permit
    let permit :=
      if form == .expression then { permit with await := isAsync, yield := isGenerator }
      else permit
    checkIdentifier (← wordHere) t.span.start permit
    nameLeaf .binding
  else
    if form == .declaration then
      if t.isPunct .leftParen then report .functionNameMissing t.span.start
      else if isReservedWord (← wordHere) then expected "Identifier"
    return .absent

/-- A function whose word is the current token, and which begins at `start`. -/
def function (start : Nat) (isAsync : Bool) (form : FunctionForm) : Parse Node := do
  expectWord "function"
  let isGenerator ← eat .star
  let name ← functionName form isAsync isGenerator
  functionRest sub start name form isAsync isGenerator

def methodFunction (isAsync isGenerator : Bool) : Parse Node := do
  functionRest sub (← here) .absent .method isAsync isGenerator

/-- Notes an accessor with the wrong number of parameters. -/
def checkAccessor (kind : MemberKind) (method : Node) : Parse Unit := do
  let params := method.child 1
  match kind with
  | .getter => if !params.children.isEmpty then report .getterParameters params.span.start
  | .setter =>
    match params.children.getLast? with
    | some (.mk .rest span _) => report .setterRestParameter span.start
    | _ => if params.children.length != 1 then report .setterParameters params.span.start
  | _ => return ()

/-! ## Arrow functions -/

/-- Whether a parenthesis opens the parameters of an arrow function. -/
inductive Hint where
  | yes | no | maybe
deriving DecidableEq

/-- The hint of what follows a parenthesis, or the word `async`, that is the current token. -/
def arrowHint : Parse Hint := lookahead do
  if ← eatWord "async" then
    if (← afterNewline) || !(← isAt .leftParen) then return .no
  advanceName
  match (← token).kind with
  | .punct .rightParen =>
    advanceName
    let third ← token
    return if third.isPunct .arrow || third.isPunct .colon || third.isPunct .leftBrace then .yes
      else .no
  | .punct .leftBracket | .punct .leftBrace => return .maybe
  | .punct .dots => return .yes
  | .word text _ =>
    if !isIdentifierWord text && text != "this" then return .no
    advanceName
    let third ← token
    if third.isPunct .colon then return .yes
    else if third.isPunct .question then
      advanceName
      let fourth ← token
      return if fourth.isPunct .colon || fourth.isPunct .comma || fourth.isPunct .assign
        || fourth.isPunct .rightParen then .yes else .no
    else if third.isPunct .comma || third.isPunct .assign || third.isPunct .rightParen then
      return .maybe
    else return .no
  | _ => return .no

/-- The arrow behind parameters; a line may not end before it. -/
def arrowToken : Parse Unit := do
  if ← afterNewline then report .newlineBeforeArrow (← here)
  expect .arrow

/-- The word `async` if written, the parenthesized parameters, and the arrow. -/
def arrowHead : Parse (Bool × Node) := do
  let isAsync ← eatWord "async"
  let params ← permitting (fun c => { c with await := c.await || isAsync }) (parameters sub)
  arrowToken
  return (isAsync, params)

def arrowBody (start : Nat) (isAsync : Bool) (params : Node) : Parse Node := do
  let isExpression := !(← isAt .leftBrace)
  let body ← permitting (fun c => { c with await := isAsync, yield := false })
    (if isExpression then sub .assignment else sub .functionBody)
  node (.arrow isAsync isExpression) start [params, body]

/-- An arrow function with parenthesized parameters, if one stands here. -/
def parenthesizedArrow : Parse (Option Node) := do
  let start ← here
  if !(← isAt .leftParen) && !(← atWord "async") then return none
  match ← arrowHint with
  | .no => return none
  | .yes =>
    let (isAsync, params) ← arrowHead sub
    return some (← arrowBody sub start isAsync params)
  | .maybe =>
    if (← get).notArrow.contains start then return none
    match ← attempt (arrowHead sub) with
    | some (isAsync, params) => return some (← arrowBody sub start isAsync params)
    | none =>
      modify fun s => { s with notArrow := start :: s.notArrow }
      return none

/-- An arrow function whose only parameter is the given identifier. -/
def simpleArrow (start : Nat) (isAsync : Bool) (identifier : Node) : Parse Node := do
  let parameter := Node.mk (.binding (identifier.reference?.getD "")) identifier.span []
  let params := Node.mk .params identifier.span [parameter]
  arrowToken
  arrowBody sub start isAsync params

/-- Whether the word `async`, a parameter and an arrow stand here. -/
def atAsyncSimpleArrow : Parse Bool := lookahead do
  if !(← eatWord "async") then return false
  if (← afterNewline) || !(← atIdentifier) then return false
  advanceName
  return (← isAt .arrow) && !(← afterNewline)

end ModuleBundler.Syntax.Grammar
