import ModuleBundler.Adaptation.Construct
import ModuleBundler.Syntax.Scope
import ModuleBundler.Text.CharClass

/-!
# Temporary variables

A value that is needed twice is kept in a variable named after the expression it comes from, such
as `_a$b` for `a.b`.  `fresh` gives a name that the program does not have, and notes that the
statements around must declare it.

A reference can be read twice without a variable if it means a binding of the program that is
never assigned to (`Knowledge.isStable`).
-/

namespace ModuleBundler.Adaptation

open ModuleBundler.Syntax ModuleBundler.Text

/-! ## Names after expressions -/

mutual

/-- The words of an expression that a variable is named after. -/
def nameParts : Node → List String
  | .mk label _ children =>
    match label with
    | .reference name | .binding name | .name name | .privateName name => [name]
    | .thisValue => ["this"]
    | .superValue => ["super"]
    | .string value _ _ => [value]
    | .number _ raw => [raw]
    | .boolean value => [if value then "true" else "false"]
    | .member _ | .index _ | .metaProperty | .object => namePartsOfAll children
    | .call _ | .new _ | .assign _ | .property .. | .function .. | .classDef _ =>
      namePartsOfFirst children
    | .await => "await" :: namePartsOfFirst children
    | .yield _ => "yield" :: namePartsOfFirst children
    | .importCall _ => ["import"]
    | .chain | .paren | .spread | .unary _ | .update .. => namePartsOfFirst children
    | _ => []

def namePartsOfAll : List Node → List String
  | [] => []
  | n :: rest => nameParts n ++ namePartsOfAll rest

def namePartsOfFirst : List Node → List String
  | [] => []
  | n :: _ => nameParts n

end

/-- The characters of a name, each run of others left out and the character behind it raised. -/
def identifierChars (raise : Bool) : List Char → List Char
  | [] => []
  | c :: rest =>
    if isAlphanumeric c || c == '_' || c == '$' then
      (if raise then c.toUpper else c) :: identifierChars false rest
    else identifierChars true rest

/-- The name of an expression, without the underscore before it. -/
def baseName (n : Node) : String :=
  match nameParts n with
  | [] => "ref"
  | parts =>
    let chars := (identifierChars false ("$".intercalate parts).toList).take 20
    let trimmed := ((chars.dropWhile (· == '_')).reverse.dropWhile isDigit).reverse
    if trimmed.isEmpty then "ref" else String.ofList trimmed

/-! ## Fresh names -/

/-- The names of the program and of the variables so far, and the variables that the statements
around must declare, newest first. -/
structure Temporaries where
  taken : List String
  pending : List String

/-- An action that can introduce variables. -/
abbrev Naming := StateM Temporaries

/-- The `n`th name for a variable with a base name; the first has no number. -/
def numberedName (base : String) (n : Nat) : String :=
  if n = 1 then s!"_{base}" else s!"_{base}{n}"

/-- The first numbered name from `n` on that is not taken, the `count` names before the last of
them examined. -/
def firstFree (taken : List String) (base : String) (n : Nat) : Nat → String
  | 0 => numberedName base n
  | count + 1 =>
    if taken.contains (numberedName base n) then firstFree taken base (n + 1) count
    else numberedName base n

/-- A name that is not taken, from now on taken. -/
def freshName (base : String) : Naming String := do
  let s ← get
  let name := firstFree s.taken base 1 s.taken.length
  set { s with taken := name :: s.taken }
  return name

/-- A new variable for the value of an expression. -/
def fresh (n : Node) : Naming String := do
  let name ← freshName (baseName n)
  modify fun s => { s with pending := name :: s.pending }
  return name

/-- Runs an action on a list of statements, and answers also the variables to declare there. -/
def declaring {α : Type} (action : Naming α) : Naming (α × List String) := do
  let outer := (← get).pending
  modify fun s => { s with pending := [] }
  let result ← action
  let names := (← get).pending.reverse
  modify fun s => { s with pending := outer }
  return (result, names)

/-! ## Bindings -/

mutual

/-- The names of all references and bindings in a node. -/
def allNames : Node → List String
  | .mk label _ children =>
    match label with
    | .reference name | .binding name => name :: allNamesOf children
    | _ => allNamesOf children

def allNamesOf : List Node → List String
  | [] => []
  | n :: rest => allNames n ++ allNamesOf rest

end

mutual

/-- The names that an assignment target assigns to. -/
def targetNames : Node → List String
  | .mk label _ children =>
    match label with
    | .reference name => [name]
    | .objectPattern | .arrayPattern | .rest => targetNamesOfAll children
    | .patternProperty _ _ => targetNamesOfLast children
    | .defaulted => targetNamesOfFirst children
    | _ => []

def targetNamesOfAll : List Node → List String
  | [] => []
  | n :: rest => targetNames n ++ targetNamesOfAll rest

def targetNamesOfFirst : List Node → List String
  | [] => []
  | n :: _ => targetNames n

def targetNamesOfLast : List Node → List String
  | [] => []
  | [n] => targetNames n
  | _ :: rest => targetNamesOfLast rest

end

mutual

/-- The names that are assigned to anywhere in a node. -/
def assignedNames : Node → List String
  | .mk label _ children =>
    match label with
    | .assign _ | .update _ _ | .forIn | .forOf _ =>
      targetNamesOfFirst children ++ assignedNamesOf children
    | _ => assignedNamesOf children

def assignedNamesOf : List Node → List String
  | [] => []
  | n :: rest => assignedNames n ++ assignedNamesOf rest

end

/-- What is known about the references of a program. -/
structure Knowledge where
  /-- The references to names that the program does not bind. -/
  unbound : List Span
  /-- The names that are assigned to. -/
  assigned : List String

/-- The names that a program binds at its top. -/
def moduleNames (program : Node) : List String :=
  let imported (n : Node) : List String :=
    match n.label with
    | .importDecl _ => n.children.flatMap fun specifier =>
        match specifier.label with
        | .importNamed => (specifier.child 1).bound
        | .importDefault | .importNamespace => (specifier.child 0).bound
        | _ => []
    | _ => []
  functionNames program.children ++ program.children.flatMap imported

def Knowledge.of (program : Node) : Knowledge :=
  let names := moduleNames program
  { unbound := ((program.openReferences .plain []).filter fun r => !names.contains r.name).map
      (·.span)
    assigned := assignedNames program }

/-- Whether a node refers to a binding of the program. -/
def Knowledge.isBound (k : Knowledge) (n : Node) : Bool :=
  n.reference?.isSome && !k.unbound.contains n.span

/-- Whether an expression has the same value when it is read again. -/
def Knowledge.isStable (k : Knowledge) (n : Node) : Bool :=
  n.label == .thisValue
    || (k.isBound n && !(n.reference?.any fun name => k.assigned.contains name))

/-- A variable for the value of an expression that is needed twice, unless it is stable. -/
def Knowledge.keep (k : Knowledge) (n : Node) : Naming (Option String) := do
  if k.isStable n then return none
  return some (← fresh n)

end ModuleBundler.Adaptation
