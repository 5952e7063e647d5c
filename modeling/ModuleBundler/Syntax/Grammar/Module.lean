import ModuleBundler.Syntax.Grammar.Statement

/-!
# Module items

Imports and exports.  An export list without a source makes its local names references, so a
string or a reserved word is a fault there; with a source any name will do.

An import declaration has no phase: behind `import`, the words `defer` and `source` are names.
-/

namespace ModuleBundler.Syntax.Grammar

open Parse

variable (sub : Goal → Parse Node)

/-! ## Names and sources -/

/-- An imported or exported name: any word, or a string without lone surrogates. -/
def moduleName : Parse Node := do
  match (← token).kind with
  | .string _ wellFormed _ =>
    let n ← stringLiteral
    if !wellFormed then report .exportLoneSurrogate n.span.start
    return n
  | _ => identifierName

def importAttribute : Parse Node := do
  let start ← here
  let key ← match (← token).kind with
    | .string .. => stringLiteral
    | _ => identifierName
  expect .colon
  let value ← stringLiteral
  node .importAttribute start [key, value]

/-- Notes the first attribute whose key has been used before. -/
def checkAttributes (seen : List (String × Nat)) : List Node → Parse Unit
  | [] => return ()
  | n :: rest => do
    let key := n.child 0
    let name := key.nameText?.getD ""
    match seen.find? fun entry => entry.1 == name with
    | some (_, offset) => report (.redeclared name) offset
    | none => pure ()
    checkAttributes ((name, key.span.start) :: seen) rest

def importAttributes : Parse (List Node) := do
  let isClause := (← atWord "with") || ((← atWord "assert") && !(← afterNewline))
  if !isClause then return []
  advanceName
  expect .leftBrace
  let (items, _) ← commaList .rightBrace importAttribute
  expect .rightBrace
  checkAttributes [] items
  return items

/-- Runs a step where no word is an operator. -/
def plainly {α : Type} (p : Parse α) : Parse α :=
  permitting (fun _ => ⟨false, false, false, false, false⟩) p

/-! ## Imports -/

def importSpecifier : Parse Node := do
  let start ← here
  let first ← token
  let name ← moduleName
  let (imported, localToken, local_) ←
    if ← eatWord "as" then
      let second ← token
      let alias_ ← moduleName
      pure (name, second, alias_)
    else pure (name, first, name)
  let localStart := localToken.span.start
  match localToken.kind, local_.nameText? with
  | .word text _, some bound =>
    if !isIdentifierWord text then fail (.identifierReserved text) localStart
    node .importNamed start [imported, .mk (.binding bound) local_.span []]
  | _, _ => fail .identifierExpected localStart

def importNamespace : Parse Node := do
  let start ← here
  advance
  expectWord "as"
  let name ← bindingIdentifier
  node .importNamespace start [name]

def importNames : Parse (List Node) := do
  expect .leftBrace
  let (items, _) ← plainly (commaList .rightBrace importSpecifier)
  expect .rightBrace
  return items

def importClause : Parse (List Node) := do
  let start ← here
  if ← atIdentifier then
    let name ← bindingIdentifier
    let first ← node .importDefault start [name]
    if ← eat .comma then
      if ← isAt .star then return [first, ← importNamespace]
      if ← isAt .leftBrace then return first :: (← importNames)
      unexpected
    else return [first]
  if ← isAt .star then return [← importNamespace]
  if ← isAt .leftBrace then return ← importNames
  return []

/-- An import declaration; its word is the current token. -/
def importDeclaration : Parse Node := do
  let start ← here
  advance
  let isBare := match (← token).kind with
    | .string .. => true
    | _ => false
  let specifiers ←
    if isBare then pure []
    else
      let items ← importClause
      expectWord "from"
      pure items
  let source ← stringLiteral
  let attributes ← importAttributes
  semicolon
  node (.importDecl (!isBare)) start (specifiers ++ source :: attributes)

/-! ## Exports -/

def exportSpecifier : Parse Node := do
  let start ← here
  let name ← moduleName
  let alias_ ← if ← eatWord "as" then moduleName else pure name
  node .exportSpecifier start [name, alias_]

/-- The local name of a specifier, which becomes a reference. -/
def exportReference (name : Node) : Parse Node := do
  match name.label with
  | .string .. =>
    report .exportOfString name.span.start
    return name
  | .name text =>
    if isReservedWord text || isRestrictedWord text then
      report .exportOfReservedWord name.span.start
    return .mk (.reference text) name.span []
  | _ => return name

/-- Makes the local names of specifiers references. -/
def exportReferences : List Node → Parse (List Node)
  | [] => return []
  | n :: rest => do
    let name ← exportReference (n.child 0)
    let n := Node.mk n.label n.span [name, n.child 1]
    return n :: (← exportReferences rest)

/-- Whether a token is a literal of any kind. -/
def isLiteral : Token.Kind → Bool
  | .string .. | .number .. | .regex .. | .template .whole .. => true
  | .word text _ => text == "true" || text == "false" || text == "null"
  | _ => false

def exportNames (start : Nat) : Parse Node := do
  expect .leftBrace
  let (items, _) ← plainly (commaList .rightBrace exportSpecifier)
  expect .rightBrace
  if (← eatWord "from") && isLiteral (← token).kind then
    let source ← stringLiteral
    let attributes ← importAttributes
    semicolon
    node .exportNames start (items ++ source :: attributes)
  else
    let items ← exportReferences items
    semicolon
    node .exportNames start items

def exportAll (start : Nat) : Parse Node := do
  advance
  let alias_ ← if ← eatWord "as" then moduleName else pure .absent
  expectWord "from"
  let source ← stringLiteral
  let attributes ← importAttributes
  semicolon
  node .exportAll start (alias_ :: source :: attributes)

/-- What a default export exports: a class, a function, or any other value. -/
def defaultValue (decorations : List Node) : Parse Node := do
  let start ← here
  if ← atWord "class" then classDefinition sub start true decorations
  else if ← isAt .at then
    let more ← decorators sub
    if ← atWord "class" then classDefinition sub start true more else unexpected
  else if ← atWord "function" then function sub start false .defaultExport
  else if ← atAsyncFunction then
    advance
    function sub start true .defaultExport
  else
    let value ← sub .assignment
    semicolon
    return value

/-- A default export, whose word `default` is the current token. -/
def exportDefault (start : Nat) (decorations : List Node) : Parse Node := do
  let offset ← here
  advance
  let value ← defaultValue sub decorations
  node (.exportDefault offset) start [value]

/-- A declaration behind the word `export`. -/
def exportedDeclaration (decorations : List Node) : Parse Node := do
  let start ← here
  if ← atWord "var" then variableStatement sub .var .list
  else if ← atWord "const" then variableStatement sub .const .list
  else if ← atWord "let" then variableStatement sub .let .list
  else if ← atWord "function" then functionStatement sub start false .list
  else if ← atWord "class" then classStatement sub start decorations .list
  else if ← atAsyncFunction then
    advance
    functionStatement sub start true .list
  else if ← isAt .at then
    let more ← decorators sub
    if ← atWord "class" then classStatement sub start more .list else unexpected
  else unexpected

/-- An export declaration; its word is the current token. -/
def exportDeclaration (decorations : List Node) : Parse Node := do
  let start ← here
  advance
  if ← atWord "default" then exportDefault sub start decorations
  else if ← isAt .star then exportAll start
  else if ← isAt .leftBrace then exportNames start
  else
    let declaration ← exportedDeclaration sub decorations
    node .exportDecl start [declaration]

end ModuleBundler.Syntax.Grammar
