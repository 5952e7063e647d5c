import ModuleBundler.Syntax.Span

/-!
# Syntax trees

A program is a tree of `Node`s.  Every node carries a `Label`, which tells what it is, the `Span`
of its text, and its children.  The label fixes how many children there are and what each of them
is; a child that the program leaves out is a node labelled `absent`.  One uniform tree keeps the
walks over programs short: scopes, early errors, the loader form and printing each name the few labels
they care about and pass through the rest.

Binding patterns and assignment patterns share their labels; they differ in their leaves, which
are `binding` in the former and references or property accesses in the latter.
-/

namespace ModuleBundler.Syntax

/-! ## Labels -/

inductive VariableKind where
  | var | let | const
deriving DecidableEq

def VariableKind.text : VariableKind → String
  | .var => "var"
  | .let => "let"
  | .const => "const"

/-- What a property or method definition defines. -/
inductive MemberKind where
  /-- A plain property, or a method of a class that is not a constructor. -/
  | plain
  /-- A method of an object literal. -/
  | method
  | getter
  | setter
  | constructor
deriving DecidableEq

inductive FunctionForm where
  | declaration | expression | defaultExport | method
deriving DecidableEq

/-- What a node is; the comment at each label lists the node's children. -/
inductive Label where
  /-- A child that the program leaves out. -/
  | absent
  -- leaves
  /-- A name that refers to a binding. -/
  | reference (name : String)
  /-- A name that a declaration binds. -/
  | binding (name : String)
  /-- A statement label. -/
  | labelName (name : String)
  /-- A property name, or an imported or exported name, written as a word. -/
  | name (text : String)
  /-- A private name without its number sign. -/
  | privateName (name : String)
  | thisValue
  | superValue
  | nullValue
  | boolean (value : Bool)
  | number (octal : Bool) (raw : String)
  | bigint (raw : String)
  | string (value : String) (wellFormed : Bool) (raw : String)
  | regex (pattern flags : String)
  /-- A place in an array literal or pattern without an element. -/
  | elision
  -- expressions
  /-- The expressions between the parts. -/
  | template (parts : List String)
  /-- Tag, template. -/
  | tagged
  /-- Elements. -/
  | array
  /-- The value. -/
  | spread
  /-- Properties and spreads. -/
  | object
  /-- Key, value. -/
  | property (kind : MemberKind) (shorthand computed : Bool)
  /-- The expression. -/
  | paren
  /-- Expressions. -/
  | sequence
  /-- Target, value. -/
  | assign (operator : String)
  /-- Left, right. -/
  | binary (operator : String)
  /-- Left, right. -/
  | logical (operator : String)
  /-- Private name, right. -/
  | privateIn
  /-- Test, consequent, alternate. -/
  | conditional
  /-- Operand. -/
  | unary (operator : String)
  /-- Operand. -/
  | update (operator : String) (before : Bool)
  /-- Operand. -/
  | await
  /-- Operand, which may be absent. -/
  | yield (delegate : Bool)
  /-- Object, name or private name. -/
  | member (optional : Bool)
  /-- Object, key. -/
  | index (optional : Bool)
  /-- Callee, then arguments. -/
  | call (optional : Bool)
  /-- Callee, then arguments. -/
  | new (arguments : Bool)
  /-- Arguments. -/
  | importCall (phase : String)
  /-- Two names. -/
  | metaProperty
  /-- The chained expression. -/
  | chain
  /-- Name or absent, parameters, body. -/
  | function (form : FunctionForm) (isAsync isGenerator : Bool)
  /-- Parameters, body. -/
  | arrow (isAsync isExpression : Bool)
  /-- Patterns, the last of them possibly a rest. -/
  | params
  /-- Statements. -/
  | body
  /-- Name or absent, superclass or absent, class body. -/
  | classDef (isDeclaration : Bool)
  /-- Class elements. -/
  | classBody
  /-- Key, function. -/
  | method (kind : MemberKind) (isStatic computed : Bool)
  /-- Key, value or absent. -/
  | field (isStatic computed accessor : Bool)
  /-- Statements. -/
  | staticBlock
  /-- Expression. -/
  | decorator
  -- patterns
  /-- Pattern properties, the last of them possibly a rest. -/
  | objectPattern
  /-- Key, pattern. -/
  | patternProperty (shorthand computed : Bool)
  /-- Patterns and elisions, the last of them possibly a rest. -/
  | arrayPattern
  /-- Pattern, default value. -/
  | defaulted
  /-- Pattern. -/
  | rest
  -- statements
  /-- String literal. -/
  | directive
  /-- Expression. -/
  | expressionStatement
  /-- Statements. -/
  | block
  | emptyStatement
  /-- Declarators. -/
  | variables (kind : VariableKind)
  /-- Pattern, value or absent. -/
  | declarator (kind : VariableKind)
  /-- Test, consequent, alternate or absent. -/
  | ifStatement
  /-- Start, test and step, each possibly absent, then body. -/
  | forLoop
  /-- Left, right, body. -/
  | forIn
  /-- Left, right, body. -/
  | forOf (isAwait : Bool)
  /-- Test, body. -/
  | whileLoop
  /-- Body, test. -/
  | doWhile
  /-- Label or absent. -/
  | continueStatement
  /-- Label or absent. -/
  | breakStatement
  /-- Value or absent. -/
  | returnStatement
  /-- Object, body. -/
  | withStatement
  /-- Discriminant, then cases. -/
  | switchStatement
  /-- Test or absent, then statements. -/
  | switchCase
  /-- Label, body. -/
  | labeled
  /-- Value. -/
  | throwStatement
  /-- Block, catch clause or absent, final block or absent. -/
  | tryStatement
  /-- Pattern or absent, block. -/
  | catchClause
  | debuggerStatement
  -- module items
  /-- Specifiers, source, attributes; `clause` tells a specifier list, if empty, from none. -/
  | importDecl (clause : Bool)
  /-- Imported name, local binding. -/
  | importNamed
  /-- Local binding. -/
  | importDefault
  /-- Local binding. -/
  | importNamespace
  /-- Key, value. -/
  | importAttribute
  /-- Declaration. -/
  | exportDecl
  /-- Declaration or expression; `offset` is where the word `default` begins. -/
  | exportDefault (offset : Nat)
  /-- Specifiers, source or absent, attributes. -/
  | exportNames
  /-- Local name, exported name. -/
  | exportSpecifier
  /-- Alias or absent, source, attributes. -/
  | exportAll
  /-- Hashbang or absent, then directives and statements. -/
  | program
  | hashbang
deriving DecidableEq

/-! ## Nodes -/

/-- A labelled piece of program text. -/
inductive Node where
  | mk (label : Label) (span : Span) (children : List Node)

namespace Node

def label : Node → Label
  | mk l _ _ => l

def span : Node → Span
  | mk _ s _ => s

def children : Node → List Node
  | mk _ _ cs => cs

instance : Inhabited Node := ⟨mk .absent ⟨0, 0⟩ []⟩

/-- A child that the program leaves out. -/
def absent : Node := mk .absent ⟨0, 0⟩ []

/-- Whether the node stands for something in the program. -/
def isPresent (n : Node) : Bool := n.label != .absent

/-- The child at index `i`, absent when there is none. -/
def child (n : Node) (i : Nat) : Node := n.children.getD i absent

def reference? (n : Node) : Option String :=
  match n.label with
  | .reference name => some name
  | _ => none

def binding? (n : Node) : Option String :=
  match n.label with
  | .binding name => some name
  | _ => none

/-- The text of an imported or exported name, or of a literal property name. -/
def nameText? (n : Node) : Option String :=
  match n.label with
  | .name text => some text
  | .string value _ _ => some value
  | .reference name => some name
  | .binding name => some name
  | _ => none

/-- The node is a member or index access, private members included. -/
def isAccess (n : Node) : Bool :=
  match n.label with
  | .member _ | .index _ => true
  | _ => false

end Node

/-! ## Bound names -/

/-- A name that a pattern or declaration binds, and where. -/
structure BoundName where
  name : String
  span : Span
deriving DecidableEq

mutual

/-- The names bound by a pattern, a declarator or a list of parameters, left to right. -/
def Node.boundNames : Node → List BoundName
  | .mk label span children =>
    match label with
    | .binding name => [⟨name, span⟩]
    | .objectPattern | .arrayPattern | .params | .rest => boundNamesList children
    | .variables _ => boundNamesList children
    | .patternProperty _ _ => boundNamesLast children
    | .defaulted | .declarator _ => boundNamesFirst children
    | _ => []

/-- The names bound by each of a list of patterns. -/
def boundNamesList : List Node → List BoundName
  | [] => []
  | n :: rest => n.boundNames ++ boundNamesList rest

/-- The names bound by the first of a list of patterns. -/
def boundNamesFirst : List Node → List BoundName
  | [] => []
  | n :: _ => n.boundNames

/-- The names bound by the last of a list of patterns. -/
def boundNamesLast : List Node → List BoundName
  | [] => []
  | [n] => n.boundNames
  | _ :: rest => boundNamesLast rest

end

end ModuleBundler.Syntax
