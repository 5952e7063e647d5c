import ModuleBundler.Syntax.Grammar.Function

/-!
# Classes

A class element is a static block, a method, an accessor or a field.  The words before an
element's name are modifiers only if a name follows them, so every one of them can also be a name.
-/

namespace ModuleBundler.Syntax.Grammar

open Parse

variable (sub : Goal → Parse Node)

/-! ## Modifiers -/

/-- Whether the current token can begin the name that a modifier stands before. -/
def atModifiedName : Parse Bool := do
  match (← token).kind with
  | .word .. | .string .. | .number .. | .privateName _ => return true
  | .punct .leftBracket | .punct .leftBrace | .punct .star | .punct .dots => return true
  | _ => return false

/-- Passes the word `text` if it stands here as a modifier. -/
def eatModifier (text : String) (sameLine : Bool) : Parse Bool := do
  if !(← atWord text) then return false
  let follows ← lookahead do
    advanceName
    if sameLine && (← afterNewline) then return false
    atModifiedName
  if follows then advance
  return follows

/-- Passes the modifiers that stand here, and answers them with their offsets. -/
def modifiers (words : List (String × Bool)) : Parse (List (String × Nat)) := do
  let found ← iterate
    (fun (found : List (String × Nat)) => do
      let start ← here
      let word ← wordHere
      match words.find? fun entry => entry.1 == word with
      | some (text, sameLine) =>
        if found.any fun entry => entry.1 == text then return none
        if ← eatModifier text sameLine then return some ((text, start) :: found)
        return none
      | none => return none)
    []
  return found.reverse

/-- Notes the first modifier that is not allowed. -/
def checkModifiers (allowed : List String) (found : List (String × Nat)) : Parse Unit := do
  if let some (text, start) := found.find? fun entry => !allowed.contains entry.1 then
    report (.modifierMisplaced text) start

/-- Passes `get` or `set` if it stands before a name. -/
def accessorKind : Parse (Option MemberKind) := do
  if ← eatModifier "get" false then return some .getter
  if ← eatModifier "set" false then return some .setter
  return none

/-! ## Elements -/

def classElementName : Parse (Node × Bool) := do
  match (← token).kind with
  | .privateName _ => return (← privateName, false)
  | _ => propertyName sub

def checkElementName (key : Node) (computed isStatic isField : Bool) : Parse Unit := do
  let start := key.span.start
  match key.label with
  | .privateName name => if name == "constructor" then report .privateConstructor start
  | _ =>
    if computed then return ()
    match key.nameText? with
    | none => return ()
    | some name =>
      if isField && name == "constructor" then report .constructorField start
      if isStatic && name == "prototype" then report .staticPrototype start

/-- Whether a class element is the constructor, by its name. -/
def isConstructorName (key : Node) (computed isStatic : Bool) : Bool :=
  !isStatic && !computed && key.nameText? == some "constructor"

def classMethod (start : Nat) (key : Node) (computed isStatic isAsync isGenerator : Bool) :
    Parse Node := do
  let function ← methodFunction sub isAsync isGenerator
  checkElementName key computed isStatic false
  if isConstructorName key computed isStatic then
    if isAsync then report .constructorAsync key.span.start
    if isGenerator then report .constructorGenerator key.span.start
    node (.method .constructor isStatic computed) start [key, function]
  else node (.method .plain isStatic computed) start [key, function]

def classField (start : Nat) (key : Node) (computed isStatic accessor : Bool) : Parse Node := do
  checkElementName key computed isStatic true
  let value ←
    if ← eat .assign then
      permitting (fun c => { c with inOperator := true, yield := false, await := false })
        (sub .assignment)
    else pure .absent
  semicolon
  node (.field isStatic computed accessor) start [key, value]

/-- The modifiers of class elements, and whether the name must stand on the same line. -/
def classModifiers : List (String × Bool) :=
  [("static", false), ("async", true), ("accessor", true)]

/-- Decorators, of which only the expressions matter. -/
def decorators : Parse (List Node) := do
  repeatUntil (do return !(← isAt .at)) do
    let start ← here
    advance
    let expression ← permitting (fun c => { c with decorator := true }) (sub .leftHandSide)
    node .decorator start [expression]

/-- A class element that begins at `start`, behind its decorators. -/
def undecoratedElement (start : Nat) : Parse Node := do
  let atStaticBlock ← lookahead do
    if ← eatWord "static" then isAt .leftBrace else return false
  if atStaticBlock then
    advance
    let block ← permitting (fun c => { c with await := true, yield := false, returning := false })
      (sub .block)
    return ← node .staticBlock start block.children
  let found ← modifiers classModifiers
  let has (text : String) : Bool := found.any fun entry => entry.1 == text
  match ← accessorKind with
  | some kind =>
    let (key, computed) ← classElementName sub
    let function ← methodFunction sub false false
    checkAccessor kind function
    checkElementName key computed (has "static") false
    if isConstructorName key computed (has "static") then
      report .constructorAccessor key.span.start
    node (.method kind (has "static") computed) start [key, function]
  | none =>
    let isGenerator ← eat .star
    let (key, computed) ← classElementName sub
    if isGenerator || (← isAt .leftParen) then
      classMethod sub start key computed (has "static") (has "async") isGenerator
    else classField sub start key computed (has "static") (has "accessor")

def classElement : Parse Node := do
  let start ← here
  let decorations ← decorators sub
  let element ← undecoratedElement sub start
  return .mk element.label element.span (element.children ++ decorations)

def classBody : Parse Node := do
  let start ← here
  expect .leftBrace
  let skipSemicolons := iterate (fun (_ : Unit) => do
    return if ← eat .semicolon then some () else none) ()
  skipSemicolons
  let items ← repeatUntil (do return (← isAt .rightBrace) || (← atEnd)) do
    let element ← classElement sub
    skipSemicolons
    return element
  expect .rightBrace
  node .classBody start items

/-- A class whose word is the current token, and which begins at `start`; its decorators have
been read and follow its other children. -/
def classDefinition (start : Nat) (isDeclaration : Bool) (decorations : List Node) :
    Parse Node := do
  advance
  let name ←
    if (← atIdentifier) && !(← atWord "implements") then bindingIdentifier else pure .absent
  let superclass ← if ← eatWord "extends" then sub .leftHandSide else pure .absent
  let body ← classBody sub
  node (.classDef isDeclaration) start ([name, superclass, body] ++ decorations)

end ModuleBundler.Syntax.Grammar
