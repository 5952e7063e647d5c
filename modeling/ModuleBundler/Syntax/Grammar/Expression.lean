import ModuleBundler.Syntax.Grammar.Class

/-!
# Expressions

Binary operators are read by their binding strength (`strength?`): an operand is followed by
operators that bind more tightly than the operator before it.  Member accesses, calls and
templates behind a head are read by one loop (`accessStep`, `callStep`), which remembers whether
an optional access has been met, because a chain ends where the accesses end.
-/

namespace ModuleBundler.Syntax.Grammar

open Parse

variable (sub : Goal → Parse Node)

/-! ## Operators -/

/-- How tightly a token binds as a binary operator. -/
def strength? : Token.Kind → Option Nat
  | .punct p =>
    match p with
    | .question2 => some 1
    | .pipe2 => some 2
    | .amp2 => some 3
    | .pipe => some 4
    | .caret => some 5
    | .amp => some 6
    | .eq2 | .notEq | .eq3 | .notEq2 => some 7
    | .less | .greater | .lessEq | .greaterEq => some 8
    | .shiftLeft | .shiftRight | .shiftRightUnsigned => some 9
    | .plus | .minus => some 10
    | .star | .slash | .percent => some 11
    | .star2 => some 12
    | _ => none
  | .word text _ => if text == "in" || text == "instanceof" then some 8 else none
  | _ => none

def operatorText : Token.Kind → String
  | .punct p => p.text
  | .word text _ => text
  | _ => ""

/-- Whether an operator of the given strength short-circuits. -/
def isLogical (strength : Nat) : Bool := strength ≤ 3

def isUnaryOperator : Token.Kind → Bool
  | .punct .plus | .punct .minus | .punct .bang | .punct .tilde => true
  | .word text _ => text == "delete" || text == "void" || text == "typeof"
  | _ => false

/-- Whether a token increments or decrements. -/
def isUpdateOperator : Token.Kind → Bool
  | .punct .plus2 | .punct .minus2 => true
  | _ => false

/-- Whether a word stands before a name, keyword or literal of the same line. -/
def wordBeforeOperand : Parse Bool := lookahead do
  advanceName
  if ← afterNewline then return false
  match (← token).kind with
  | .word .. | .number .. | .string .. => return true
  | _ => return false

/-! ## Primary expressions -/

/-- A template, whose first part is the current token. -/
def template (isTagged : Bool) : Parse Node := do
  let start ← here
  let part : Parse (Option (String × TemplatePart)) := do
    let t ← token
    match t.kind with
    | .template form raw valid =>
      advance
      if !isTagged && !valid then report .templateEscape (t.span.start + 1)
      return some (raw, form)
    | _ => return none
  match ← part with
  | some (raw, .head) =>
    let first ← allowingIn (sub .expression)
    rereadTemplate
    let (parts, expressions, _) ← iterate
      (fun (state : List String × List Node × Bool) => do
        let (parts, expressions, done) := state
        if done then return none
        match (← token).kind with
        | .eof => expected Punct.rightBrace.text
        | .template .middle .. | .template .tail .. =>
          match ← part with
          | some (raw, form) => return some (raw :: parts, expressions, form == .tail)
          | none => return none
        | _ =>
          let more ← allowingIn (sub .expression)
          rereadTemplate
          return some (parts, more :: expressions, false))
      ([raw], [first], false)
    node (.template parts.reverse) start expressions.reverse
  | some (raw, _) => node (.template [raw]) start []
  | none => unexpected

def arrayElement : Parse Node := do
  let start ← here
  if ← isAt .comma then return .mk .elision ⟨start, start⟩ []
  if ← eat .dots then
    let value ← sub .assignment
    node .spread start [value]
  else sub .assignment

/-- Remembers the comma that ends the literal at offset `start`. -/
def noteTrailing (start : Nat) (comma : Option Nat) : Parse Unit := do
  if let some offset := comma then
    modify fun s => { s with trailing := (start, offset) :: s.trailing }

def arrayLiteral : Parse Node := do
  let start ← here
  expect .leftBracket
  let (items, comma) ← allowingIn (commaList .rightBracket (arrayElement sub))
  noteTrailing start comma
  expect .rightBracket
  node .array start items

/-- The words that may stand before a property of an object literal. -/
def propertyModifiers : List (String × Bool) := [("async", true)]

def objectMember : Parse Node := do
  let start ← here
  if ← eat .dots then
    let value ← sub .assignment
    return ← node .spread start [value]
  let found ← modifiers propertyModifiers
  if let some kind ← accessorKind then
    checkModifiers [] found
    let (key, computed) ← propertyName sub
    let function ← methodFunction sub false false
    checkAccessor kind function
    return ← node (.property kind false computed) start [key, function]
  let isGenerator ← eat .star
  let short ← atIdentifier
  let (key, computed) ← propertyName sub
  if isGenerator || (← isAt .leftParen) then
    let function ← methodFunction sub (!found.isEmpty) isGenerator
    return ← node (.property .method false computed) start [key, function]
  match key.label with
  | .name text =>
    if short && !(← isAt .colon) then
      checkIdentifier text key.span.start (← get).permit
      let reference := Node.mk (.reference text) key.span []
      if ← isAt .assign then
        let value ← withInitializer sub reference
        modify fun s => { s with initializers := start :: s.initializers }
        return ← node (.property .plain true false) start [key, value]
      return ← node (.property .plain true false) start [key, reference]
  | _ => pure ()
  expect .colon
  let value ← sub .assignment
  node (.property .plain false computed) start [key, value]

def objectLiteral : Parse Node := do
  let start ← here
  expect .leftBrace
  let (items, comma) ← allowingIn (commaList .rightBrace (objectMember sub))
  noteTrailing start comma
  expect .rightBrace
  node .object start items

def parenthesized : Parse Node := do
  let start ← here
  advance
  let inner ← here
  let (items, comma) ← permitting (fun c => { c with inOperator := true, decorator := false })
    (commaList .rightParen (sub .assignment))
  if let some offset := comma then fail (.trailingComma "Parenthesized expressions") offset
  match items with
  | [] =>
    expect .rightParen
    fail .emptyParentheses start
  | [item] =>
    expect .rightParen
    node .paren start [item]
  | items =>
    let sequence ← node .sequence inner items
    expect .rightParen
    node .paren start [sequence]

def argument : Parse Node := do
  let start ← here
  if ← eat .dots then
    let value ← sub .assignment
    node .spread start [value]
  else sub .assignment

def arguments : Parse (List Node) := do
  expect .leftParen
  let (items, _) ← permitting (fun c => { c with inOperator := true, decorator := false })
    (commaList .rightParen (argument sub))
  expect .rightParen
  return items

/-- What follows the word `import` in an expression. -/
def importExpression : Parse Node := do
  let start ← here
  let word ← nameLeaf .name
  let call (phase : String) : Parse Node := do
    expect .leftParen
    if ← eat .rightParen then fail .importCallEmpty start
    let source ← allowingIn (sub .assignment)
    let options ←
      if ← eat .comma then
        if ← isAt .rightParen then pure []
        else
          let value ← allowingIn (sub .assignment)
          pure [value]
      else pure []
    let _ ← eat .comma
    if !(← eat .rightParen) then fail .importCallArguments start
    node (.importCall phase) start (source :: options)
  if ← eat .dot then
    if ← atWord "meta" then
      let property ← nameLeaf .name
      node .metaProperty start [word, property]
    else if (← atWord "source") || (← atWord "defer") then
      let phase ← wordHere
      advanceName
      call phase
    else fail .importMetaProperty start
  else if ← isAt .leftParen then call ""
  else unexpected

/-- The word `super`, which only an access or a call may follow. -/
def superExpression : Parse Node := do
  let n ← leaf .superValue
  if !((← isAt .dot) || (← isAt .leftBracket) || (← isAt .leftParen)) then
    report .bareSuper n.span.start
  return n

/-! ## Accesses and calls -/

/-- A part of a member access behind its point: a name or a private name. -/
def memberName : Parse Node := do
  match (← token).kind with
  | .privateName _ => privateName
  | _ => identifierName

/-- A tagged template, whose tag has been read. -/
def taggedTemplate (tag : Node) (inChain : Bool) : Parse Node := do
  let quasi ← template sub true
  if inChain then report .taggedOptionalChain quasi.span.start
  node .tagged tag.span.start [tag, quasi]

def indexKey : Parse Node := do
  expect .leftBracket
  let key ← allowingIn (sub .expression)
  expect .rightBracket
  return key

/-- One access behind an expression, if one stands here; the flag tells whether an optional
access has been met. -/
def accessStep (start : Nat) (allowOptional : Bool) (state : Node × Bool) :
    Parse (Option (Node × Bool)) := do
  let (object, inChain) := state
  let decorator := (← get).permit.decorator
  match (← token).kind with
  | .punct .leftBracket =>
    if decorator then return none
    let key ← indexKey sub
    return some (← node (.index false) start [object, key], inChain)
  | .punct .dot =>
    advance
    let name ← memberName
    return some (← node (.member false) start [object, name], inChain)
  | .punct .questionDot =>
    if !allowOptional then return none
    let follower ← lookahead (do advance; token)
    match follower.kind with
    | .punct .leftBracket =>
      if decorator then return none
      advance
      let key ← indexKey sub
      return some (← node (.index true) start [object, key], true)
    | .word .. | .privateName _ =>
      advance
      let name ← memberName
      return some (← node (.member true) start [object, name], true)
    | .template .. =>
      advance
      return some (← taggedTemplate sub object true, true)
    | _ => return none
  | .template .whole .. | .template .head .. =>
    return some (← taggedTemplate sub object inChain, inChain)
  | _ => return none

/-- One access or call behind an expression, if one stands here. -/
def callStep (start : Nat) (state : Node × Bool) : Parse (Option (Node × Bool)) := do
  match ← accessStep sub start true state with
  | some next => return some next
  | none =>
    let (callee, inChain) := state
    if ← isAt .leftParen then
      let items ← arguments sub
      return some (← node (.call false) start (callee :: items), inChain)
    else if ← eat .questionDot then
      if ← isAt .leftParen then
        let items ← arguments sub
        return some (← node (.call true) start (callee :: items), true)
      else unexpected
    else return none

def newExpression (primary : Parse Node) : Parse Node := do
  let start ← here
  let word ← nameLeaf .name
  if ← eat .dot then
    if ← atWord "target" then
      let property ← nameLeaf .name
      return ← node .metaProperty start [word, property]
    fail .newMetaProperty start
  let calleeStart ← here
  let head ← primary
  let (callee, _) ← iterate (accessStep sub calleeStart false) (head, false)
  if let .importCall _ := callee.label then report .newImportCall calleeStart
  if ← isAt .questionDot then fail .newOptionalChain (← here)
  if ← isAt .leftParen then
    let items ← arguments sub
    node (.new true) start (callee :: items)
  else node (.new false) start [callee]

/-- An expression that no operator joins; `self` reads the head of a nested `new`. -/
def primaryWith (self : Parse Node) : Parse Node := do
  let t ← token
  let start := t.span.start
  match t.kind with
  | .word text _ =>
    match text with
    | "function" => function sub start false .expression
    | "class" => classDefinition sub start false []
    | "new" => newExpression sub self
    | "super" => superExpression
    | "import" => importExpression sub
    | "this" => leaf .thisValue
    | "null" => leaf .nullValue
    | "true" => leaf (.boolean true)
    | "false" => leaf (.boolean false)
    | "async" =>
      let isFunction ← lookahead do
        advanceName
        return (← atWord "function") && !(← afterNewline)
      if isFunction then
        advance
        function sub start true .expression
      else identifierReference
    | _ => identifierReference
  | .punct .leftBracket => arrayLiteral sub
  | .punct .leftBrace => objectLiteral sub
  | .punct .leftParen => parenthesized sub
  | .punct .slash | .punct .slashAssign => regexLiteral
  | .punct .at =>
    let decorations ← decorators sub
    if ← atWord "class" then classDefinition sub start false decorations else unexpected
  | .template .whole .. | .template .head .. => template sub false
  | .string .. => stringLiteral
  | .number .. => numberLiteral
  | _ => unexpected

/-- An expression that no operator joins, with at most `n` nested words `new`. -/
def primaryNested : Nat → Parse Node
  | 0 => unexpected
  | n + 1 => primaryWith sub (primaryNested n)

/-- An expression with its accesses and calls. -/
def leftHandSide : Parse Node := do
  let start ← here
  let head ← primaryNested sub (← get).budget
  let (n, inChain) ← iterate (callStep sub start) (head, false)
  if inChain then node .chain start [n] else return n

/-! ## Operators -/

/-- An expression with an increment or decrement before or behind it. -/
def updateExpression : Parse Node := do
  let t ← token
  let start := t.span.start
  if isUpdateOperator t.kind then
    advance
    let operand ← sub .unary
    let target ← simpleTarget operand
    node (.update (operatorText t.kind) true) start [target]
  else
    let operand ← sub .leftHandSide
    let after ← token
    if isUpdateOperator after.kind && !after.afterNewline then
      advance
      let target ← simpleTarget operand
      node (.update (operatorText after.kind) false) start [target]
    else return operand

/-- An operand with the operators before it. -/
def unaryExpression : Parse Node := do
  let t ← token
  let start := t.span.start
  if isUnaryOperator t.kind then
    advance
    let operand ← sub .unary
    return ← node (.unary (operatorText t.kind)) start [operand]
  if t.isWord "await" then
    let permitted := (← get).permit.await
    if permitted || (← wordBeforeOperand) then
      if !permitted then report .awaitOutsideAsync start
      advance
      let operand ← permitting (fun c => { c with await := true }) (sub .unary)
      return ← node .await start [operand]
  updateExpression sub

/-- Whether the operands of a coalescing operator mix it with another logical operator. -/
def mixesCoalesce (left right : Node) : Bool :=
  let isMixed : Label → Option Bool
    | .logical operator => some (operator != "??")
    | _ => none
  ((isMixed right.label) <|> (isMixed left.label)).getD false

/-- The operators behind an operand that bind more tightly than `above`. -/
def binaryStep (start : Nat) (above : Nat) (firstParenthesized : Bool) (left : Node) :
    Parse (Option Node) := do
  let t ← token
  match strength? t.kind with
  | none => return none
  | some strength =>
    if strength < above || (strength == above && strength != 12) then return none
    if t.isWord "in" && !(← get).permit.inOperator then return none
    advance
    let right ← sub (.binary strength)
    let operator := operatorText t.kind
    if isLogical strength then
      if operator == "??" && mixesCoalesce left right then report .mixedCoalesce start
      return some (← node (.logical operator) start [left, right])
    if operator == "**" && !firstParenthesized then
      match left.label with
      | .await | .unary _ => report .unparenthesizedPower left.span.start
      | _ => pure ()
    return some (← node (.binary operator) start [left, right])

/-- Operands joined by operators that bind more tightly than `above`. -/
def binaryExpression (above : Nat) : Parse Node := do
  let t ← token
  let start := t.span.start
  let isPrivate := match t.kind with
    | .privateName _ => true
    | _ => false
  let first ←
    if isPrivate && (← get).permit.inOperator then
      if above ≥ 8 then unexpected
      let name ← privateName
      expectWord "in"
      let right ← sub (.binary 8)
      node .privateIn start [name, right]
    else unaryExpression sub
  iterate (binaryStep sub start above (t.isPunct .leftParen)) first

/-- What follows the word `yield`. -/
def yieldExpression : Parse Node := do
  let start ← here
  if !(← get).permit.yield then report .yieldOutsideGenerator start
  advance
  if ← afterNewline then return ← node (.yield false) start [.absent]
  let delegate ← eat .star
  let t ← token
  let ends := t.kind == .eof || t.isPunct .rightBrace || t.isPunct .rightBracket
    || t.isPunct .rightParen || t.isPunct .colon || t.isPunct .comma || t.isPunct .semicolon
    || t.isWord "in"
  if ends && !delegate then return ← node (.yield false) start [.absent]
  let operand ← permitting (fun c => { c with yield := true }) (sub .assignment)
  node (.yield delegate) start [operand]

/-- An expression without a comma outside of brackets. -/
def assignmentExpression : Parse Node := do
  let start ← here
  if ← atWord "yield" then
    if (← get).permit.yield || (← wordBeforeOperand) then return ← yieldExpression sub
  if let some arrow ← parenthesizedArrow sub then return arrow
  if ← atAsyncSimpleArrow then
    advance
    let parameter ← permitting (fun c => { c with await := true }) identifierReference
    return ← simpleArrow sub start true parameter
  let left ← binaryExpression sub 0
  let t ← token
  if t.isPunct .arrow && left.reference?.isSome then
    return ← simpleArrow sub start false left
  match t.kind with
  | .punct p =>
    if p.isAssignment then
      let target ← if p == .assign then toTarget left else simpleTarget left
      advance
      let value ← sub .assignment
      return ← node (.assign p.text) start [target, value]
  | _ => pure ()
  if ← eat .question then
    let consequent ← allowingIn (sub .assignment)
    expect .colon
    let alternate ← sub .assignment
    node .conditional start [left, consequent, alternate]
  else return left

def expression : Parse Node := do
  let start ← here
  let first ← permitting (fun c => { c with decorator := false }) (sub .assignment)
  if ← isAt .comma then
    let items ← iterate (fun items => do
      if ← eat .comma then return some ((← sub .assignment) :: items) else return none) [first]
    node .sequence start items.reverse
  else return first

end ModuleBundler.Syntax.Grammar
