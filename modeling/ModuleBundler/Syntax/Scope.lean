import ModuleBundler.Syntax.Tree

/-!
# Scopes and open references

Which binding a name refers to follows from the names that the enclosing scopes declare, wherever
in the scope the declaration stands.

* `Node.lexicalNames` are the names that a statement declares in the list it stands in.
* `varNames` are the names that `var` declares anywhere below, functions and classes apart.
* `Node.openReferences` are the references that no scope inside the node binds: the names in
  `bound` are those of the scopes passed so far.  For a whole program these are exactly the
  references that mean a name of the module scope or of the world outside.

Every open reference carries its `Role`, because replacing it needs different text in the place
of a shorthand property and in the place of a callee.
-/

namespace ModuleBundler.Syntax

/-! ## Declared names -/

/-- The names bound by a pattern, without their places. -/
def Node.bound (n : Node) : List String := n.boundNames.map (·.name)

/-- The names that a statement declares in the list in which it stands. -/
def Node.lexicalNames (n : Node) : List String :=
  let declared (d : Node) : List String :=
    match d.label with
    | .variables .var => []
    | .variables _ => d.bound
    | .function .declaration .. | .function .defaultExport .. => (d.child 0).bound
    | .classDef true => (d.child 0).bound
    | _ => []
  match n.label with
  | .exportDecl | .exportDefault _ => declared (n.child 0)
  | _ => declared n

mutual

/-- The names that `var` declares in a node, outside of functions and classes. -/
def Node.varNames : Node → List String
  | .mk label span children =>
    match label with
    | .variables .var => (Node.mk label span children).bound
    | .function .. | .arrow .. | .classDef _ => []
    | _ => varNames children

def varNames : List Node → List String
  | [] => []
  | n :: rest => n.varNames ++ varNames rest

end

def lexicalNames (statements : List Node) : List String := statements.flatMap Node.lexicalNames

def functionNames (statements : List Node) : List String :=
  varNames statements ++ lexicalNames statements

/-! ## References -/

/-- The place that a reference stands in, as far as replacing it is concerned. -/
inductive Role where
  | plain
  /-- The value of a shorthand property of an object literal. -/
  | shorthand
  /-- The callee of a call, or the tag of a template, without parentheses. -/
  | callee
deriving DecidableEq

/-- A reference that no scope of its node binds. -/
structure OpenReference where
  name : String
  span : Span
  role : Role
deriving DecidableEq

/-- The names of a loop head that declares lexically. -/
def headNames (head : Node) : List String := head.lexicalNames

mutual

/-- The references in a node that neither `bound` nor a scope inside the node binds. -/
def Node.openReferences (role : Role) (bound : List String) : Node → List OpenReference
  | .mk label span children =>
    match label with
    | .reference name => if bound.contains name then [] else [⟨name, span, role⟩]
    | .property .plain true _ => lastOpen .shorthand bound children
    | .call _ | .tagged => firstOpen .callee bound children
    | .function form _ _ => functionOpen (form == .expression) bound children
    | .arrow _ _ => arrowOpen bound children
    | .classDef true => openReferences bound children
    | .classDef false => openReferences ((children.headD .absent).bound ++ bound) children
    | .block => openReferences (lexicalNames children ++ bound) children
    | .staticBlock => openReferences (functionNames children ++ bound) children
    | .switchStatement => switchOpen bound children
    | .forLoop | .forIn | .forOf _ =>
      openReferences (headNames (children.headD .absent) ++ bound) children
    | .catchClause => openReferences ((children.headD .absent).bound ++ bound) children
    | _ => openReferences bound children

/-- The open references of nodes in the same scope. -/
def openReferences (bound : List String) : List Node → List OpenReference
  | [] => []
  | n :: rest => n.openReferences .plain bound ++ openReferences bound rest

/-- The open references of nodes, the first of which has a role. -/
def firstOpen (role : Role) (bound : List String) : List Node → List OpenReference
  | [] => []
  | n :: rest => n.openReferences role bound ++ openReferences bound rest

/-- The open references of nodes, the last of which has a role. -/
def lastOpen (role : Role) (bound : List String) : List Node → List OpenReference
  | [] => []
  | [n] => n.openReferences role bound
  | n :: rest => n.openReferences .plain bound ++ lastOpen role bound rest

/-- The open references of a function from its name, parameters and body.  Default values of
parameters see the parameters; the body sees what it declares as well.  Only the name of a
function expression is visible inside through the function itself. -/
def functionOpen (ownName : Bool) (bound : List String) : List Node → List OpenReference
  | [] => []
  | name :: rest => arrowOpen (if ownName then name.bound ++ bound else bound) rest

/-- The open references of parameters and a body. -/
def arrowOpen (bound : List String) : List Node → List OpenReference
  | [] => []
  | [params] => params.openReferences .plain (params.bound ++ bound)
  | params :: body :: _ =>
    params.openReferences .plain (params.bound ++ bound)
      ++ body.openReferences .plain
        ((match body.label with
          | .body => functionNames body.children
          | _ => []) ++ params.bound ++ bound)

/-- The open references of a switch statement, whose cases share one scope. -/
def switchOpen (bound : List String) : List Node → List OpenReference
  | [] => []
  | discriminant :: cases =>
    discriminant.openReferences .plain bound
      ++ openReferences (lexicalNames (cases.flatMap fun c => c.children.drop 1) ++ bound) cases

end

end ModuleBundler.Syntax
