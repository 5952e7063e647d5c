import ModuleBundler.Syntax.Fault
import ModuleBundler.Syntax.Token
import ModuleBundler.Syntax.Tree

/-!
# Early errors

A parsed module can still be refused: for a name declared twice, a jump without a target, a
`super` in the wrong place, and so on.  `earlyFaults` walks the tree once.  A node declares its
names when the walk enters it and is checked when the walk leaves it, so faults come in this
order, and the first of them is the one to show.

A check sees the enclosing nodes through `Frame`s, nearest first, each with the index of the
child that the walk is in.

Redeclarations point at the first declaration of the name.  Imports share their names with
variables and classes without a fault, whichever comes first; a function declared behind an
imported name is one.
-/

namespace ModuleBundler.Syntax

/-! ## Declarations -/

/-- What declares a name. -/
inductive Declares where
  | var | lexical | class_ | function | parameter | catchName | catchPattern | imported
deriving DecidableEq

inductive ScopeKind where
  | module | function | block
deriving DecidableEq

/-- A declared name, everything that declares it, and the offset of its first declaration. -/
structure Declared where
  name : String
  by_ : List Declares
  first : Nat

/-- A scope with its names.  `hoisted` are names of `var` declarations inside it that belong to a
scope further out. -/
structure Scope where
  kind : ScopeKind
  names : List Declared
  hoisted : List Declared

/-- The scope that a part of the program declares into, and the scopes around it, innermost
first, with the faults so far, newest first. -/
structure Walk where
  scopes : List Scope
  faults : List Fault

def findName (name : String) (names : List Declared) : Option Declared :=
  names.find? fun d => d.name == name

def addName (d : Declared) : List Declared → List Declared
  | [] => [d]
  | e :: rest =>
    if e.name == d.name then { e with by_ := d.by_ ++ e.by_ } :: rest else e :: addName d rest

/-- Whether a new declaration in a scope of the given kind collides with earlier ones. -/
def collides (kind : ScopeKind) (earlier : List Declares) : Declares → Bool
  | .lexical | .class_ | .catchPattern => earlier.any (· != .imported)
  | .function =>
    match kind with
    | .function => earlier.any fun d => d == .lexical || d == .class_ || d == .catchPattern
    | _ => true
  | .parameter => earlier.contains .parameter
  | .imported => earlier.contains .imported
  | .catchName => false
  | .var =>
    earlier.any fun d =>
      d == .lexical || d == .class_ || d == .catchPattern || (kind == .block && d == .function)

def Walk.report (w : Walk) (cause : Cause) (offset : Nat) : Walk :=
  { w with faults := ⟨cause, offset⟩ :: w.faults }

def Walk.declare (w : Walk) (by_ : Declares) (b : BoundName) : Walk :=
  match w.scopes with
  | [] => w
  | scope :: rest =>
    let w :=
      match findName b.name scope.names <|> findName b.name scope.hoisted with
      | some earlier =>
        if collides scope.kind earlier.by_ by_ then w.report (.redeclared b.name) earlier.first
        else w
      | none => w
    { w with
      scopes := { scope with names := addName ⟨b.name, [by_], b.span.start⟩ scope.names } :: rest }

/-- Declares a `var` name from the innermost scope outwards to the nearest function or module:
the scopes passed remember it as hoisted.  At most one collision is noted. -/
def hoist (b : BoundName) (found : Bool) :
    List Scope → List Scope × Option Nat
  | [] => ([], none)
  | scope :: rest =>
    let entry : Declared := ⟨b.name, [.var], b.span.start⟩
    let earlier := findName b.name scope.names <|> findName b.name scope.hoisted
    let fault := match earlier with
      | some e => if !found && collides scope.kind e.by_ .var then some e.first else none
      | none => none
    match scope.kind with
    | .block =>
      let (rest, outer) := hoist b (found || earlier.isSome) rest
      ({ scope with hoisted := addName entry scope.hoisted } :: rest, fault <|> outer)
    | _ => ({ scope with names := addName entry scope.names } :: rest, fault)

def Walk.declareVar (w : Walk) (b : BoundName) : Walk :=
  let (scopes, fault) := hoist b false w.scopes
  let w := { w with scopes }
  match fault with
  | some offset => w.report (.redeclared b.name) offset
  | none => w

def Walk.declareAll (w : Walk) (by_ : Declares) (names : List BoundName) : Walk :=
  names.foldl (fun w b => w.declare by_ b) w

def Walk.openScope (w : Walk) (kind : ScopeKind) : Walk :=
  { w with scopes := ⟨kind, [], []⟩ :: w.scopes }

def Walk.closeScope (w : Walk) : Walk := { w with scopes := w.scopes.drop 1 }

/-! ## Enclosing nodes -/

/-- An enclosing node and the index of the child that the walk is in. -/
structure Frame where
  label : Label
  node : Node
  slot : Nat

/-- Whether the nearest enclosing node has a label that satisfies `p`. -/
def parentIs (up : List Frame) (p : Label → Bool) : Bool := (up.head?.map (·.label)).any p

def Label.isLoop : Label → Bool
  | .forLoop | .forIn | .forOf _ | .whileLoop | .doWhile => true
  | _ => false

/-- The label begins a function or a static block, which jumps do not leave. -/
def Label.stopsJumps : Label → Bool
  | .function .. | .arrow .. | .staticBlock => true
  | _ => false

/-- The name and place of a labelled statement's label. -/
def Node.labelOf (n : Node) : Option (String × Nat) :=
  match (n.child 0).label with
  | .labelName name => some (name, (n.child 0).span.start)
  | _ => none

/-- Whether a node opens a scope inside of the module's own, and of which kind. -/
def opensScope (up : List Frame) (label : Label) : Option ScopeKind :=
  match label with
  | .function .. | .arrow .. | .staticBlock => some .function
  | .classDef _ | .switchStatement | .forLoop | .forIn | .forOf _ | .catchClause => some .block
  | .block => if parentIs up (· == .catchClause) then none else some .block
  | _ => none

/-! ## Entering a node -/

/-- Declares what a node declares around itself, opens its scope, and declares what it declares
inside. -/
def Walk.enter (w : Walk) (up : List Frame) (n : Node) : Walk :=
  let w :=
    match n.label with
    | .function .declaration .. | .function .defaultExport .. =>
      w.declareAll .function (n.child 0).boundNames
    | .classDef true => w.declareAll .class_ (n.child 0).boundNames
    | .declarator kind =>
      match kind with
      | .var => n.boundNames.foldl Walk.declareVar w
      | _ => w.declareAll .lexical n.boundNames
    | .importNamed | .importDefault | .importNamespace =>
      w.declareAll .imported (n.children.getLastD .absent).boundNames
    | _ => w
  let w := match opensScope up n.label with
    | some kind => w.openScope kind
    | none => w
  match n.label with
  | .params => w.declareAll .parameter n.boundNames
  | .catchClause =>
    match (n.child 0).binding? with
    | some _ => w.declareAll .catchName (n.child 0).boundNames
    | none => w.declareAll .catchPattern (n.child 0).boundNames
  | _ => w

/-! ## Checks of single nodes -/

/-- Words that may not name anything. -/
def nameFault (name : String) (offset : Nat) : List Fault :=
  if name == "await" || name == "yield" || isRestrictedWord name then
    [⟨.reservedWord name, offset⟩]
  else []

/-- Whether a reference with these enclosing nodes is assigned to. -/
def isAssigned : List Frame → Bool
  | [] => false
  | f :: up =>
    match f.label with
    | .assign _ | .forIn | .forOf _ => f.slot == 0
    | .update .. => true
    | .defaulted => f.slot == 0 && isAssigned up
    | .patternProperty .. => f.slot == 1 && isAssigned up
    | .arrayPattern | .objectPattern | .rest => isAssigned up
    | _ => false

/-- The place in which the name `arguments` is forbidden, if these enclosing nodes are one. -/
def argumentsPlace : List Frame → Option String
  | [] => none
  | f :: up =>
    match f.label with
    | .function .. => none
    | .staticBlock => some "static initialization block"
    | .field .. => if f.slot == 1 then some "class field initializer" else argumentsPlace up
    | _ => argumentsPlace up

def referenceFaults (up : List Frame) (name : String) (offset : Nat) : List Fault :=
  nameFault name offset
    ++ (if (name == "eval" || name == "arguments") && isAssigned up then
        [⟨.strictAssignment name, offset⟩]
      else [])
    ++ (if name == "arguments" then
        match argumentsPlace up with
        | some place => [⟨.argumentsForbidden place, offset⟩]
        | none => []
      else [])

/-- Whether the text of a string literal has an escape that strict code forbids. -/
def stringFault : List Char → Option Cause
  | [] => none
  | [_] => none
  | '\\' :: c :: rest =>
    if c == '0' then
      match rest with
      | d :: _ => if '1' ≤ d && d ≤ '9' then some .legacyOctal else stringFault rest
      | [] => none
    else if '1' ≤ c && c ≤ '7' then some .legacyOctal
    else if c == '8' || c == '9' then some .invalidEscape
    else stringFault rest
  | _ :: c :: rest => stringFault (c :: rest)

/-- The fault of a number that begins with a zero and another digit. -/
def numberFault (octal : Bool) (raw : String) : Option Cause :=
  match raw.toList with
  | '0' :: d :: _ =>
    if '0' ≤ d && d ≤ '9' then some (if octal then .legacyOctal else .leadingZeroDecimal)
    else none
  | _ => none

def breakFault (target : Node) (start : Nat) : List Frame → Option Fault
  | [] => some (if target.isPresent then ⟨.undefinedLabel, target.span.start⟩
      else ⟨.illegalBreak, start⟩)
  | f :: up =>
    if f.label.stopsJumps then
      some (if target.isPresent then ⟨.labelAcrossFunction, target.span.start⟩
        else ⟨.illegalBreak, start⟩)
    else
      match f.label, target.label with
      | .labeled, .labelName name =>
        if (f.node.labelOf.map (·.1)) == some name then none else breakFault target start up
      | .switchStatement, .absent => none
      | label, .absent => if label.isLoop then none else breakFault target start up
      | _, _ => breakFault target start up

def continueFault (target : Node) (start : Nat) : List Frame → Option Fault
  | [] => some (if target.isPresent then ⟨.undefinedLabel, target.span.start⟩
      else ⟨.illegalContinue, start⟩)
  | f :: up =>
    if f.label.stopsJumps then
      some (if target.isPresent then ⟨.labelAcrossFunction, target.span.start⟩
        else ⟨.illegalContinue, start⟩)
    else
      match f.label, target.label with
      | .labeled, .labelName name =>
        match f.node.labelOf with
        | some (label, offset) =>
          if label == name then
            let inner := (f.node.child 1).label
            if inner == .labeled || inner.isLoop then none else some ⟨.continueToNonLoop, offset⟩
          else continueFault target start up
        | none => continueFault target start up
      | label, .absent => if label.isLoop then none else continueFault target start up
      | _, _ => continueFault target start up

/-- The fault of a label that an enclosing statement has already. -/
def labelFault (name : String) : List Frame → Option Fault
  | [] => none
  | f :: up =>
    if f.label.stopsJumps then none
    else
      match f.label, f.node.labelOf with
      | .labeled, some (label, offset) =>
        if label == name then some ⟨.labelRedeclared name, offset⟩ else labelFault name up
      | _, _ => labelFault name up

/-- The fault of a function that is the body of another statement. -/
def bodyFault (n : Node) : List Fault :=
  match n.label with
  | .function .declaration .. => [⟨.functionInStatementPosition, n.span.start⟩]
  | _ => []

/-- The fault of the word `super`; `isCall` tells that it is called, and `up` are the nodes
around it. -/
def superFault (isCall : Bool) (offset : Nat) : List Frame → Option Fault
  | [] => some ⟨if isCall then .superCallMisplaced else .superMisplaced, offset⟩
  | f :: up =>
    let inMember := if isCall then some ⟨.superCallMisplaced, offset⟩ else none
    match f.label with
    | .method kind isStatic _ =>
      if f.slot == 0 then superFault isCall offset up
      else if isCall && kind == .constructor && !isStatic then
        match up.find? fun g => match g.label with
          | .classDef _ => true
          | _ => false with
        | some g => if (g.node.child 1).isPresent then none
          else some ⟨.superCallInBaseClass, offset⟩
        | none => none
      else inMember
    | .field .. => if f.slot == 0 then superFault isCall offset up else inMember
    | .property kind _ _ =>
      if f.slot == 1 && kind != .plain then inMember else superFault isCall offset up
    | .staticBlock => inMember
    | .function form _ _ =>
      if form == .method then superFault isCall offset up
      else some ⟨if isCall then .superCallMisplaced else .superMisplaced, offset⟩
    | _ => superFault isCall offset up

/-- Whether these enclosing nodes give `new.target` a meaning. -/
def allowsNewTarget : List Frame → Bool
  | [] => false
  | f :: up =>
    match f.label with
    | .function .. | .staticBlock => true
    | .field .. => f.slot == 1 || allowsNewTarget up
    | _ => allowsNewTarget up

/-- Whether these enclosing nodes put an expression among the parameters of a function. -/
def inParameters : List Frame → Bool
  | [] => false
  | f :: up =>
    match f.label with
    | .params => true
    | .function .. | .arrow .. | .field .. | .staticBlock => false
    | _ => inParameters up

def deleteFault : Node → Option Fault
  | .mk label span children =>
    match label, children with
    | .paren, [inner] => deleteFault inner
    | .chain, [inner] => deleteFault inner
    | .reference _, _ => some ⟨.deleteOfName, span.start⟩
    | .member _, [_, name] =>
      match name.label with
      | .privateName _ => some ⟨.deleteOfPrivate, span.start⟩
      | _ => none
    | _, _ => none

/-- The faults of the head of a loop over members. -/
def headFaults (loop : String) (left : Node) : List Fault :=
  match left.label with
  | .variables _ =>
    (if left.children.length > 1 then [⟨.loopHeadDeclarations loop, left.span.start⟩] else [])
      ++ (left.children.filter fun d => (d.child 1).isPresent).map fun _ =>
        ⟨.loopHeadInitializer loop, left.span.start⟩
  | _ => []

/-- The faults of repeated keys, each at the occurrence before it. -/
def repeatedFaults (name : String) : List Nat → List Fault
  | a :: b :: rest => ⟨.redeclared name, a⟩ :: repeatedFaults name (b :: rest)
  | _ => []

/-- The offsets of the keys of an object literal that set the prototype. -/
def prototypeKeys (members : List Node) : List Nat :=
  members.filterMap fun m =>
    match m.label with
    | .property .plain false false =>
      if (m.child 0).nameText? == some "__proto__" then some (m.child 0).span.start else none
    | _ => none

def hasSimpleParameters (params : Node) : Bool :=
  params.children.all fun p => p.binding?.isSome

/-- The fault of a directive in these enclosing nodes. -/
def directiveFault (text : String) (offset : Nat) (up : List Frame) : Option Fault :=
  if text != "use strict" then none
  else
    match up with
    | body :: owner :: _ =>
      let params := match owner.label with
        | .function .. => some (owner.node.child 1)
        | .arrow .. => some (owner.node.child 0)
        | _ => none
      match body.label, params with
      | .body, some params =>
        if hasSimpleParameters params then none else some ⟨.useStrictWithParameters, offset⟩
      | _, _ => none
    | _ => none

/-! ## Classes -/

structure Element where
  name : String
  offset : Nat
  isPrivate : Bool
  isStatic : Bool
  /-- What the element is, when it is an accessor. -/
  accessor : Option MemberKind

def elementsOf (body : Node) : List Element :=
  let named (key : Node) (computed isStatic : Bool) (accessor : Option MemberKind) :
      Option Element :=
    match key.label with
    | .privateName name => some ⟨name, key.span.start, true, isStatic, accessor⟩
    | _ =>
      if computed then none
      else key.nameText?.map fun name => ⟨name, key.span.start, false, isStatic, accessor⟩
  body.children.filterMap fun e =>
    match e.label with
    | .method kind isStatic computed =>
      named (e.child 0) computed isStatic
        (if kind == .getter || kind == .setter then some kind else none)
    | .field isStatic computed _ => named (e.child 0) computed isStatic none
    | _ => none

/-- Whether two private elements of one name exclude each other; a getter and a setter form a
pair when both are static or neither is. -/
def Element.excludes (a b : Element) : Bool :=
  a.isPrivate && b.isPrivate
    && (if a.accessor.isSome && b.accessor.isSome then
        a.accessor == b.accessor || a.isStatic != b.isStatic
      else true)

/-- The faults of private elements that are declared twice. -/
def elementFaults (seen : List Element) : List Element → List Fault
  | [] => []
  | e :: rest =>
    let fault := match seen.find? fun s => s.name == e.name with
      | some earlier =>
        if earlier.excludes e then [⟨.redeclared e.name, earlier.offset⟩] else []
      | none => []
    fault ++ elementFaults (e :: seen) rest

mutual

/-- The private names that a node uses outside of the bodies of inner classes. -/
def Node.privateUses : Node → List (String × Nat)
  | .mk label span children =>
    match label with
    | .privateName name => [(name, span.start)]
    | .classBody => []
    | .method .. | .field .. => privateUsesOfElement children
    | _ => privateUses children

/-- The private names that some nodes use. -/
def privateUses : List Node → List (String × Nat)
  | [] => []
  | n :: rest => n.privateUses ++ privateUses rest

/-- The private names that a class element uses; its own key is no use. -/
def privateUsesOfElement : List Node → List (String × Nat)
  | [] => []
  | key :: rest =>
    (match key.label with
      | .privateName _ => []
      | _ => key.privateUses) ++ privateUses rest

end

def privateNames (body : Node) : List String :=
  ((elementsOf body).filter (·.isPrivate)).map (·.name)

/-- The private names that the enclosing class bodies declare. -/
def outerPrivateNames : List Frame → List String
  | [] => []
  | f :: up =>
    match f.label with
    | .classBody => privateNames f.node ++ outerPrivateNames up
    | _ => outerPrivateNames up

/-- The faults of private names that no enclosing class declares. -/
def privateFaults (up : List Frame) (body : Node) : List Fault :=
  let known := privateNames body ++ outerPrivateNames up
  ((privateUses body.children).filter fun use => !known.contains use.1).map fun use =>
    ⟨.privateUndeclared use.1, use.2⟩

def constructorFaults (body : Node) : List Fault :=
  let keys := body.children.filterMap fun e =>
    match e.label with
    | .method .constructor _ _ => some (e.child 0).span.start
    | _ => none
  match keys with
  | first :: _ :: _ => [⟨.duplicateConstructor, first⟩]
  | _ => []

def classFaults (up : List Frame) (isDeclaration : Bool) (n : Node) : List Fault :=
  let inDefault := parentIs up fun l => match l with
    | .exportDefault _ => true
    | _ => false
  privateFaults up (n.child 2)
    ++ (if isDeclaration && !(n.child 0).isPresent && !inDefault then
        [⟨.classNameMissing, n.span.start⟩]
      else [])
    ++ constructorFaults (n.child 2)

/-! ## Leaving a node -/

/-- The faults of a node that is left. -/
def nodeFaults (up : List Frame) (n : Node) : List Fault :=
  let start := n.span.start
  let nested (item : String) : List Fault :=
    if parentIs up (· == .program) then [] else [⟨.moduleItemNested item, start⟩]
  match n.label with
  | .reference name => referenceFaults up name start
  | .binding name =>
    nameFault name start
      ++ (if name == "eval" || name == "arguments" then [⟨.strictAssignment name, start⟩] else [])
  | .labelName name => nameFault name start
  | .privateName name =>
    if up.any fun f => f.label == .classBody then [] else [⟨.privateOutsideClass name, start⟩]
  | .string value _ raw =>
    if raw.utf8ByteSize == value.utf8ByteSize then []
    else ((stringFault raw.toList).map (⟨·, start⟩)).toList
  | .number octal raw => ((numberFault octal raw).map (⟨·, start⟩)).toList
  | .superValue =>
    let isCall := match up with
      | f :: _ => f.slot == 0 && (match f.label with
        | .call _ | .new _ => true
        | _ => false)
      | [] => false
    (superFault isCall start up).toList
  | .metaProperty =>
    if (n.child 0).nameText? == some "new" && !allowsNewTarget up then
      [⟨.newTargetMisplaced, start⟩]
    else []
  | .object => repeatedFaults "__proto__" (prototypeKeys n.children)
  | .unary "delete" => (deleteFault (n.child 0)).toList
  | .await => if inParameters up then [⟨.inParameters "await", start⟩] else []
  | .yield _ => if inParameters up then [⟨.inParameters "yield", start⟩] else []
  | .classBody => elementFaults [] (elementsOf n)
  | .classDef isDeclaration => classFaults up isDeclaration n
  | .directive =>
    match (n.child 0).label with
    | .string _ _ raw => (directiveFault raw start up).toList
    | _ => []
  | .ifStatement => bodyFault (n.child 1) ++ bodyFault (n.child 2)
  | .forLoop => bodyFault (n.child 3)
  | .forIn => headFaults "in" (n.child 0) ++ bodyFault (n.child 2)
  | .forOf _ => headFaults "of" (n.child 0) ++ bodyFault (n.child 2)
  | .whileLoop => bodyFault (n.child 1)
  | .doWhile => bodyFault (n.child 0)
  | .withStatement => ⟨.withStatement, start⟩ :: bodyFault (n.child 1)
  | .switchStatement =>
    let defaults := (n.children.drop 1).filter fun c => !(c.child 0).isPresent
    (repeatedFaults "default" (defaults.map (·.span.start))).take 1
  | .labeled =>
    (match n.labelOf with
      | some (name, _) => (labelFault name up).toList
      | none => []) ++ bodyFault (n.child 1)
  | .breakStatement => (breakFault (n.child 0) start up).toList
  | .continueStatement => (continueFault (n.child 0) start up).toList
  | .importDecl _ => nested "import statement"
  | .exportDecl | .exportDefault _ | .exportNames | .exportAll => nested "export statement"
  | _ => []

/-- Notes the faults of a node and closes its scope. -/
def Walk.leave (w : Walk) (up : List Frame) (n : Node) : Walk :=
  let w := { w with faults := (nodeFaults up n).reverse ++ w.faults }
  match opensScope up n.label with
  | some _ => w.closeScope
  | none => w

/-! ## The walk -/

mutual

/-- Walks a node with the given enclosing nodes. -/
def Node.walk (up : List Frame) : Node → Walk → Walk
  | .mk label span children, w =>
    let n := Node.mk label span children
    (walkAll label n up 0 children (w.enter up n)).leave up n

def walkAll (label : Label) (parent : Node) (up : List Frame) (slot : Nat) :
    List Node → Walk → Walk
  | [], w => w
  | n :: rest, w =>
    walkAll label parent up (slot + 1) rest (n.walk (⟨label, parent, slot⟩ :: up) w)

end

/-- The faults of export lists whose names the module does not declare. -/
def undefinedExports (declared : List Declared) (items : List Node) : List Fault :=
  items.flatMap fun item =>
    match item.label with
    | .exportNames =>
      item.children.filterMap fun specifier =>
        match specifier.label, (specifier.child 0).label with
        | .exportSpecifier, .reference name =>
          if (findName name declared).isSome then none
          else some ⟨.undefinedExport name, (specifier.child 0).span.start⟩
        | _, _ => none
    | _ => []

/-- The early errors of a program, in the order of the walk, which starts in the scope of the module. -/
def earlyFaults (program : Node) : List Fault :=
  let w := program.walk [] ⟨[⟨.module, [], []⟩], []⟩
  let declared := (w.scopes.head?.map (·.names)).getD []
  w.faults.reverse ++ undefinedExports declared program.children

end ModuleBundler.Syntax
