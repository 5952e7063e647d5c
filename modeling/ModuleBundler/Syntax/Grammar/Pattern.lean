import ModuleBundler.Syntax.Grammar.Word

/-!
# Patterns

Binding patterns are read directly (`bindingPattern`).  Assignment patterns are read as
expressions first, because only the equals sign behind them tells; `toTarget` turns such an
expression into a pattern or halts at the part that cannot be assigned to.
-/

namespace ModuleBundler.Syntax.Grammar

open Parse

variable (sub : Goal → Parse Node)

/-! ## Property names -/

/-- The key of a property, and whether it is computed. -/
def propertyName : Parse (Node × Bool) := do
  match (← token).kind with
  | .string .. => return (← stringLiteral, false)
  | .number .. => return (← numberLiteral, false)
  | .punct .leftBracket =>
    advance
    let key ← allowingIn (sub .assignment)
    expect .rightBracket
    return (key, true)
  | _ => return (← identifierName, false)

/-! ## Binding patterns -/

/-- A default value behind a pattern, if one is written. -/
def withInitializer (pattern : Node) : Parse Node := do
  if ← eat .assign then
    let value ← allowingIn (sub .assignment)
    node .defaulted pattern.span.start [pattern, value]
  else return pattern

def patternWithInitializer : Parse Node := do
  withInitializer sub (← sub .pattern)

def restElement : Parse Node := do
  let start ← here
  advance
  let argument ← sub .pattern
  node .rest start [argument]

def bindingProperty : Parse Node := do
  let start ← here
  let short ← atIdentifier
  let (key, computed) ← propertyName sub
  if short && !(← isAt .colon) then
    match key.label with
    | .name text =>
      let value ← withInitializer sub (.mk (.binding text) key.span [])
      node (.patternProperty true false) start [key, value]
    | _ => unexpected
  else
    expect .colon
    let value ← patternWithInitializer sub
    node (.patternProperty false computed) start [key, value]

def objectPattern : Parse Node := do
  let start ← here
  expect .leftBrace
  let items ← commaListWithRest .rightBrace (bindingProperty sub) (restElement sub)
    .restBindingNotLast
  expect .rightBrace
  if let some (.mk .rest _ [argument]) := items.getLast? then
    if argument.binding?.isNone then report .invalidRestBinding argument.span.start
  node .objectPattern start items

/-- An element of an array pattern, or its absence. -/
def arrayPatternElement : Parse Node := do
  if ← isAt .comma then
    let place ← here
    return .mk .elision ⟨place, place⟩ []
  else patternWithInitializer sub

def arrayPattern : Parse Node := do
  let start ← here
  expect .leftBracket
  let items ← commaListWithRest .rightBracket (arrayPatternElement sub) (restElement sub)
    .restBindingNotLast
  expect .rightBracket
  node .arrayPattern start items

def bindingPattern : Parse Node := do
  match (← token).kind with
  | .punct .leftBrace => objectPattern sub
  | .punct .leftBracket => arrayPattern sub
  | _ => bindingIdentifier

/-! ## Assignment targets -/

/-- Whether a node can be assigned to as it stands; parentheses around it are dropped. -/
def simpleTarget : Node → Parse Node
  | .mk label span children =>
    match label, children with
    | .reference _, _ | .member _, _ | .index _, _ => return .mk label span children
    | .paren, [inner] =>
      match inner.label with
      | .object | .array => fail .invalidTarget span.start
      | _ => simpleTarget inner
    | _, _ => fail .invalidTarget span.start

/-- The offset of the comma that ends the literal at offset `start`. -/
def trailingCommaOf (start : Nat) : Parse (Option Nat) := do
  return ((← get).trailing.find? fun entry => entry.1 == start).map (·.2)

/-- Notes a comma behind the rest of the literal at offset `start`. -/
def checkRestComma (start : Nat) : Parse Unit := do
  if let some comma ← trailingCommaOf start then report .commaAfterRest comma

mutual

/-- The target that an expression stands for. -/
def toTarget : Node → Parse Node
  | .mk .array span children => do
    return .mk .arrayPattern span (← toElements span.start children)
  | .mk .object span children => do
    return .mk .objectPattern span (← toProperties span.start children)
  | n => simpleTarget n

-- Literals are taken apart here as in `toTarget`: passing them on whole would not be a recursion on
-- parts of a node.
/-- A target with an optional default value. -/
def toDefaulted : Node → Parse Node
  | .mk (.assign "=") span [target, value] => return .mk .defaulted span [target, value]
  | .mk .array span children => do
    return .mk .arrayPattern span (← toElements span.start children)
  | .mk .object span children => do
    return .mk .objectPattern span (← toProperties span.start children)
  | n => simpleTarget n

def toElements (start : Nat) : List Node → Parse (List Node)
  | [] => return []
  | .mk .spread span [argument] :: rest => do
    if !rest.isEmpty then fail .spreadNotLast span.start
    let target ← toTarget argument
    checkRestComma start
    return [.mk .rest span [target]]
  | .mk .elision span children :: rest => do
    return .mk .elision span children :: (← toElements start rest)
  | n :: rest => do
    let target ← toDefaulted n
    return target :: (← toElements start rest)

def toProperties (start : Nat) : List Node → Parse (List Node)
  | [] => return []
  | .mk .spread span [argument] :: rest => do
    if !rest.isEmpty then fail .spreadNotLast span.start
    let target ← toTarget argument
    checkRestComma start
    return [.mk .rest span [target]]
  | .mk (.property kind true computed) span [key, value] :: rest => do
    modify fun s => { s with initializers := s.initializers.filter (· != span.start) }
    let more ← toProperties start rest
    if kind == .plain then
      return .mk (.patternProperty true computed) span [key, value] :: more
    else fail .invalidTarget value.span.start
  | .mk (.property _ false computed) span [key, value] :: rest => do
    let target ← toDefaulted value
    return .mk (.patternProperty false computed) span [key, target]
      :: (← toProperties start rest)
  | n :: _ => fail .invalidTarget n.span.start

end

end ModuleBundler.Syntax.Grammar
