import ModuleBundler.Syntax.Grammar.Module

/-!
# Programs

`parse` reads a module: it ties the recursion of the grammar (`Grammar.goal`) and answers with the
tree, or with the first fault in the order characters, grammar, unfinished literals, exported
names.

The recursion is bounded by a number of steps above what any text of the given length can use:
every token opens at most a handful of nested goals.

Two parts of the language are left out, and programs with them are refused: declarations with
`using` and `await using`, and the phases of import declarations, `import defer` and `import source`.
The calls `import.defer(..)` and `import.source(..)` are read.
-/

namespace ModuleBundler.Syntax

namespace Grammar

open Parse

def statement (sub : Goal → Parse Node) (position : StatementPlace) : Parse Node := do
  let t ← token
  let start := t.span.start
  match t.kind with
  | .punct .leftBrace => block sub
  | .punct .semicolon => leaf .emptyStatement
  | .punct .at =>
    let decorations ← decorators sub
    if ← atWord "class" then classStatement sub start decorations position
    else if ← atWord "export" then exportDeclaration sub decorations
    else unexpected
  | .word text escaped =>
    match text with
    | "if" => ifStatement sub
    | "do" => doWhile sub
    | "while" => whileLoop sub
    | "for" => forStatement sub
    | "continue" => jump .continueStatement
    | "break" => jump .breakStatement
    | "with" => withStatement sub
    | "switch" => switchStatement sub
    | "throw" => throwStatement sub
    | "try" => tryStatement sub
    | "debugger" =>
      advance
      semicolon
      node .debuggerStatement start []
    | "class" => classStatement sub start [] position
    | "export" => exportDeclaration sub []
    | "return" => returnStatement sub
    | "var" => variableStatement sub .var position
    | "const" => variableStatement sub .const position
    | "function" => functionStatement sub start false position
    | "let" => if escaped then expressionOrLabeled sub else letStatement sub position
    | "async" =>
      if ← atAsyncFunction then
        advance
        functionStatement sub start true position
      else expressionOrLabeled sub
    | "import" =>
      let isExpression ← lookahead do
        advance
        return (← isAt .dot) || (← isAt .leftParen)
      if isExpression then expressionOrLabeled sub else importDeclaration
    | _ => expressionOrLabeled sub
  | _ => expressionOrLabeled sub

def step (sub : Goal → Parse Node) : Goal → Parse Node
  | .expression => expression sub
  | .assignment => assignmentExpression sub
  | .binary above => binaryExpression sub above
  | .unary => unaryExpression sub
  | .leftHandSide => leftHandSide sub
  | .statement position => statement sub position
  | .pattern => bindingPattern sub
  | .block => block sub
  | .functionBody => functionBody sub

/-- The grammar, nested at most `n` steps deep. -/
def goal : Nat → Goal → Parse Node
  | 0 => fun _ => unexpected
  | n + 1 => step (goal n)

def program (depth : Nat) : Parse Node := do
  let hashbang ←
    if (← token).kind == .hashbang then leaf .hashbang else pure .absent
  let items ← statementsWithDirectives (goal depth) atEnd
  let s ← get
  return .mk .program ⟨0, s.token.span.stop⟩ (hashbang :: items)

end Grammar

/-! ## Exported names -/

/-- A name that a module exports, and where it is written. -/
structure ExportedName where
  name : String
  offset : Nat
deriving DecidableEq

/-- The names that a top-level statement exports. -/
def Node.exportedNames (n : Node) : List ExportedName :=
  match n.label with
  | .exportDecl =>
    let declared (b : BoundName) : ExportedName := ⟨b.name, b.span.start⟩
    let declaration := n.child 0
    match declaration.label with
    | .variables _ => declaration.boundNames.map declared
    | .function .. | .classDef _ => (declaration.child 0).boundNames.map declared
    | _ => []
  | .exportDefault offset => [⟨"default", offset⟩]
  | .exportNames =>
    n.children.filterMap fun specifier =>
      match specifier.label with
      | .exportSpecifier =>
        (specifier.child 1).nameText?.map fun name => ⟨name, (specifier.child 1).span.start⟩
      | _ => none
  | .exportAll =>
    match (n.child 0).nameText? with
    | some name => [⟨name, (n.child 0).span.start⟩]
    | none => []
  | _ => []

/-- The offset of the nearest earlier export of the first name that is exported twice; `seen`
holds the exports so far, newest first. -/
def firstDuplicate (seen : List ExportedName) : List ExportedName → Option ExportedName
  | [] => none
  | e :: rest =>
    match seen.find? fun s => s.name == e.name with
    | some earlier => some earlier
    | none => firstDuplicate (e :: seen) rest

/-- The fault of a module that exports a name twice; the default export is examined last. -/
def duplicateExport (items : List Node) : Option Fault :=
  let names := items.flatMap Node.exportedNames
  match firstDuplicate [] (names.filter fun e => e.name != "default") with
  | some e => some ⟨.duplicateExport e.name, e.offset⟩
  | none =>
    (firstDuplicate [] (names.filter fun e => e.name == "default")).map fun e =>
      ⟨.duplicateDefaultExport, e.offset⟩

/-! ## Parsing -/

/-- Whether the first list occurs in the second. -/
def occursIn (needle : List Char) : List Char → Bool
  | [] => needle.isEmpty
  | c :: rest => needle.isPrefixOf (c :: rest) || occursIn needle rest

/-- The fault of a refused text whose first comment asks for another type checker. -/
def pragmaFault (text : List Char) (comment : Option Span) : Option Fault :=
  match comment with
  | some span =>
    if occursIn "@flow".toList (span.slice text) then some ⟨.flowPragma, span.start⟩ else none
  | none => none

def parse (text : List Char) : Except Fault Node :=
  let budget := text.length + 2
  let blank : Token := ⟨.eof, ⟨0, 0⟩, false⟩
  let initial : ParseState :=
    { token := blank, next := ⟨text, 0⟩, prevStop := 0, permit := .module, lexical := [],
      noted := [], initializers := [], trailing := [], notArrow := [], comment := none, budget }
  let run : Parse Node := do
    Parse.accept (Token.read budget ⟨text, 0⟩)
    Grammar.program (8 * budget)
  match run initial with
  | .error halt => .error ((pragmaFault text halt.state.comment).getD halt.first)
  | .ok (program, s) =>
    match s.lexical.reverse, s.noted.reverse with
    | f :: _, _ => .error ((pragmaFault text s.comment).getD f)
    | [], f :: _ => .error ((pragmaFault text s.comment).getD f)
    | [], [] =>
      match s.initializers.reverse with
      | offset :: _ => .error ((pragmaFault text s.comment).getD ⟨.coverInitializer, offset⟩)
      | [] =>
        match duplicateExport program.children with
        | some f => .error f
        | none => .ok program

end ModuleBundler.Syntax
