import ModuleBundler.Adaptation.Replacement
import ModuleBundler.Target.Feature

/-!
# Adapting programs to a target

`adapt` replaces the features that a target lacks, from the outside to the inside: the variables
of an expression are named before those of its operands.  The variables are declared at the start
of the innermost list of statements around them, in a module behind its last import.

Five features are replaced (`Target.Feature`): the operator `**`, catch clauses without a parameter,
the operator `??`, optional chains, and logical assignments.  Whatever else a target may lack stays as
it is.  So what can be adapted faithfully is a module that

* has no other feature that the target lacks, such as classes, asynchronous functions, newer forms of
  regular expressions, or literals of large integers, for which nothing can stand;
* needs no functions at run time for what is replaced;
* has no comments, which the tree does not keep.

Adapting never fails.
-/

namespace ModuleBundler.Adaptation

open ModuleBundler.Syntax ModuleBundler.Target

/-! ## Parentheses -/

mutual

/-- A node without parentheses around expressions. -/
def bare : Node → Node
  | .mk label span children =>
    match label, bareAll children with
    | .paren, [inner] => inner
    | _, children => .mk label span children

def bareAll : List Node → List Node
  | [] => []
  | n :: rest => bare n :: bareAll rest

end

/-! ## Declarations -/

/-- Statements with the declaration of variables before them, behind the directives. -/
def withVariables (names : List String) (statements : List Node) : List Node :=
  match names with
  | [] => statements
  | _ =>
    let directives := statements.takeWhile fun n => n.label == .directive
    directives ++ declare names :: statements.drop directives.length

def isImport (n : Node) : Bool :=
  match n.label with
  | .importDecl _ => true
  | _ => false

/-- The items of a module up to the last import, or else up to the last directive. -/
def moduleHead : List Node → List Node
  | [] => []
  | n :: rest =>
    if rest.any isImport || isImport n || n.label == .directive || !n.isPresent
        || n.label == .hashbang then
      n :: moduleHead rest
    else []

/-- The items of a module with the declaration of variables behind its last import. -/
def withModuleVariables (names : List String) (items : List Node) : List Node :=
  match names with
  | [] => items
  | _ =>
    let head := moduleHead items
    head ++ declare names :: items.drop head.length

/-- An arrow function's body and whether it is an expression, once variables are declared. -/
def arrowBody (isExpression : Bool) (names : List String) (body : Node) : Bool × Node :=
  match isExpression, names with
  | true, _ :: _ => (false, new .body [declare names, new .returnStatement [body]])
  | _, _ => (isExpression, body)

/-! ## The features of a node -/

/-- What adapting depends on. -/
structure Context where
  target : Target
  known : Knowledge

def Context.lacks (c : Context) (f : Feature) : Bool := c.target.lacks f

/-- The replacement of a logical assignment by the operator; `access` is its target read first and
then assigned to. -/
def logicalAssignment (c : Context) (operator : String) (kept : Option String) (access : Access)
    (value : Node) : Node :=
  let assignment := assignTo access.again value
  if operator == "??" && c.lacks .coalesce then presentOr kept access.first assignment
  else new (.logical operator) [access.first, assignment]

/-- A variable for the value of the target of a logical assignment, if that value is compared. -/
def keepCompared (c : Context) (operator : String) (target : Node) : Naming (Option String) :=
  if operator == "??" && c.lacks .coalesce then c.known.keep target else return none

def logicalOperator? : String → Option String
  | "||=" => some "||"
  | "&&=" => some "&&"
  | "??=" => some "??"
  | _ => none

/-- What a node's label asks for, if the target lacks it. -/
inductive Task where
  | power | powerAssign | coalesce | logicalAssign (operator : String) | chain | deleteChain
  | catchParameter | statements | module | arrow (isAsync isExpression : Bool) | none

/-- What is to be done at a node. -/
def Context.task (c : Context) (label : Label) (first : Label) : Task :=
  match label with
  | .binary "**" => if c.lacks .power then .power else .none
  | .assign "**=" => if c.lacks .power then .powerAssign else .none
  | .assign operator =>
    match logicalOperator? operator with
    | some operator => if c.lacks .logicalAssignment then .logicalAssign operator else .none
    | none => .none
  | .logical "??" => if c.lacks .coalesce then .coalesce else .none
  | .chain => if c.lacks .optionalChain then .chain else .none
  | .unary "delete" => if c.lacks .optionalChain && first == .chain then .deleteChain else .none
  | .catchClause =>
    if c.lacks .catchWithoutParameter && first == .absent then .catchParameter else .none
  | .block | .body | .staticBlock | .switchCase => .statements
  | .program => .module
  | .arrow isAsync isExpression => .arrow isAsync isExpression
  | _ => .none

/-- A switch case or other list of statements with the declaration of its variables. -/
def declaredIn (label : Label) (names : List String) (items : List Node) : List Node :=
  match label, items with
  | .switchCase, test :: statements => test :: withVariables names statements
  | _, _ => withVariables names items

def firstLabel : List Node → Label
  | [] => .absent
  | n :: _ => n.label

/-! ## Adapting -/

mutual

/-- A node without the features that the target lacks. -/
def adapt (c : Context) : Node → Naming Node
  | .mk label span children => do
    match c.task label (firstLabel children) with
    | .power => adaptPower c children
    | .powerAssign => adaptPowerAssign c children
    | .coalesce => adaptCoalesce c children
    | .logicalAssign operator => adaptLogicalAssign c operator children
    | .chain => adaptChain c children
    | .deleteChain => adaptDeleteChain c children
    | .catchParameter =>
      let name ← freshName "unused"
      let children ← adaptAll c children
      return .mk label span (new (.binding name) [] :: children.drop 1)
    | .statements =>
      let (items, names) ← declaring (adaptAll c children)
      return .mk label span (declaredIn label names items)
    | .module =>
      let (items, names) ← declaring (adaptAll c children)
      return .mk label span (withModuleVariables names items)
    | .arrow isAsync isExpression => adaptArrow c isAsync isExpression span children
    | .none => return .mk label span (← adaptAll c children)

def adaptAll (c : Context) : List Node → Naming (List Node)
  | [] => return []
  | n :: rest => do
    let n ← adapt c n
    return n :: (← adaptAll c rest)

def adaptPower (c : Context) : List Node → Naming Node
  | [base, exponent] => do
    let base ← adapt c base
    return powerCall base (← adapt c exponent)
  | _ => return .absent

def adaptPowerAssign (c : Context) : List Node → Naming Node
  | [.mk (.member _) _ [object, name], value] => do
    let kept ← keepObject c.known object
    let object ← adapt c object
    let access := new (.index false) [later kept object, nameAsKey name]
    return powerAssignment (keeping [(kept, object)]) access access (← adapt c value)
  | [.mk (.index _) _ [object, key], value] => do
    let kept ← keepObject c.known object
    let keptKey ← keepKey c.known key
    let object ← adapt c object
    let key ← adapt c key
    let access := new (.index false) [later kept object, later keptKey key]
    return powerAssignment (keeping [(kept, object), (keptKey, key)]) access access
      (← adapt c value)
  | [target, value] => do
    let kept ← if c.known.isBound target then pure none else some <$> fresh target
    return powerAssignment (keeping [(kept, target)]) (later kept target) target
      (← adapt c value)
  | _ => return .absent

/-- A value or else another one. -/
def adaptCoalesce (c : Context) : List Node → Naming Node
  | [left, right] => do
    let kept ← c.known.keep left
    let left ← adapt c left
    return presentOr kept left (← adapt c right)
  | _ => return .absent

def adaptLogicalAssign (c : Context) (operator : String) : List Node → Naming Node
  | [.mk (.member optional) _ [object, name], value] => do
    let keptObject ← keepObject c.known object
    let kept ← keepCompared c operator
      (Access.named optional keptObject object name).first
    let object ← adapt c object
    return logicalAssignment c operator kept (.named optional keptObject object name)
      (← adapt c value)
  | [.mk (.index _) _ [object, key], value] => do
    let keptObject ← keepObject c.known object
    let keptKey ← keepKey c.known key
    let kept ← keepCompared c operator (Access.keyed keptObject keptKey object key).first
    let object ← adapt c object
    let key ← adapt c key
    return logicalAssignment c operator kept (.keyed keptObject keptKey object key)
      (← adapt c value)
  | [target, value] => do
    let kept ← keepCompared c operator target
    return logicalAssignment c operator kept ⟨target, target⟩ (← adapt c value)
  | _ => return .absent

def adaptChain (c : Context) : List Node → Naming Node
  | [inner] => do
    let l ← links c inner
    return l.close undefinedValue id
  | _ => return .absent

/-- The removal of the property that an optional chain leads to. -/
def adaptDeleteChain (c : Context) : List Node → Naming Node
  | [.mk .chain _ [inner]] => do
    let l ← links c inner
    return l.close (new (.boolean true) []) fun n => new (.unary "delete") [n]
  | _ => return .absent

/-- The links of a chain, from its first object on. -/
def links (c : Context) : Node → Naming Links
  | .mk (.member optional) _ [object, name] => do
    let l ← links c object
    let l ← if optional then l.guarded c.known else pure l
    return l.goOn (new (.member false) [l.reached, name])
  | .mk (.index optional) _ [object, key] => do
    let l ← links c object
    let l ← if optional then l.guarded c.known else pure l
    return l.goOn (new (.index false) [l.reached, ← adapt c key])
  | .mk (.call optional) _ (callee :: arguments) => do
    let l ← links c callee
    if !optional then return l.call (← adaptAll c arguments)
    if l.reached.isAccess then
      let (l, object) ← l.guardedMethod c.known
      return l.callOn object (← adaptAll c arguments)
    let l ← l.guarded c.known
    return l.call (← adaptAll c arguments)
  | n => return .start (← adapt c n)

def adaptArrow (c : Context) (isAsync isExpression : Bool) (span : Span) :
    List Node → Naming Node
  | [params, body] => do
    let params ← adapt c params
    let (body, names) ← declaring (adapt c body)
    let (isExpression, body) := arrowBody isExpression names body
    return .mk (.arrow isAsync isExpression) span [params, body]
  | _ => return .absent

end

/-- A program without the features that a target lacks. -/
def adaptProgram (target : Target) (program : Node) : Node :=
  let program := bare program
  let taken := (allNames program).filter fun name => name.toList.head? == some '_'
  ((adapt ⟨target, .of program⟩ program).run ⟨taken, []⟩).1

end ModuleBundler.Adaptation
