import ModuleBundler.Written.Expression

/-!
# The text of functions and classes

The parameters of an arrow function always stand in parentheses.  A function or class that would
be read as a declaration is written in parentheses.
-/

namespace ModuleBundler.Written

open ModuleBundler.Syntax

/-! ## Functions -/

def bracedText (lines : List Piece) (line : Place → Piece → String) (p : Place) : String :=
  match lines with
  | [] => "\x7b\x7d"
  | _ =>
    let inner := Place.statement (p.indent + 1)
    indentedBetween p "\x7b" "\x7d" (lines.map (line inner))

/-- Whether an expression that begins with a word of a declaration stands in parentheses. -/
def Place.needsParens (p : Place) : Bool := p.front == .statement || p.front == .defaultExport

def functionWords (isAsync isGenerator : Bool) : String :=
  (if isAsync then "async " else "") ++ "function" ++ (if isGenerator then "*" else "")

def functionText (isAsync isGenerator : Bool) (name params body : Piece) (p : Place) : String :=
  functionWords isAsync isGenerator
    ++ (if name.isPresent then " " ++ name.text p else if isGenerator then " " else "")
    ++ params.text p ++ " " ++ body.text p

/-- An arrow function; an expression stands for its body where the program has one. -/
def arrowText (isAsync isExpression : Bool) (params body : Piece) (p : Place) : String :=
  wrapIf (Level.assign ≤ p.level) p fun p =>
    (if isAsync then "async " else "") ++ params.text p ++ " => "
      ++ (if isExpression then body.text { p.operand Level.comma with front := .arrowBody }
        else body.text p)

/-! ## Classes -/

def elementWords (isStatic accessor isAsync isGenerator : Bool) (kind : MemberKind) : String :=
  (if isStatic then "static " else "") ++ (if accessor then "accessor " else "")
    ++ (match kind with
      | .getter => "get "
      | .setter => "set "
      | _ => "")
    ++ (if isAsync then "async " else "") ++ (if isGenerator then "*" else "")

/-- Whether the function of a method is asynchronous, and whether it is a generator. -/
def methodFlags (function : Piece) : Bool × Bool :=
  match function.label with
  | .function _ isAsync isGenerator => (isAsync, isGenerator)
  | _ => (false, false)

def methodText (kind : MemberKind) (isStatic computed : Bool) (key function : Piece) (p : Place) :
    String :=
  let (isAsync, isGenerator) := methodFlags function
  elementWords isStatic false isAsync isGenerator kind ++ keyText computed key p
    ++ function.text p

def classText (name superclass body : Piece) (p : Place) : String :=
  "class" ++ (if name.isPresent then " " ++ name.text p else "")
    ++ (if superclass.isPresent then " extends " ++ superclass.text (p.bracketed Level.call)
      else "")
    ++ " " ++ body.text p

/-! ## All functions and classes -/

/-- The text of a function, a class or one of their parts, but for bodies. -/
def functionOrClassText : Label → List Piece → Option (Place → String)
  | .params, items => some (argumentsText items)
  | .function .method _ _, [_, params, body] => some fun p => params.text p ++ " " ++ body.text p
  | .function .expression isAsync isGenerator, [name, params, body] => some fun p =>
      wrapIf p.needsParens p (functionText isAsync isGenerator name params body)
  | .function _ isAsync isGenerator, [name, params, body] =>
      some (functionText isAsync isGenerator name params body)
  | .arrow isAsync isExpression, [params, body] => some (arrowText isAsync isExpression params body)
  | .property kind _ computed, [key, function] => some (methodText kind false computed key function)
  | .classDef isDeclaration, name :: superclass :: body :: _ => some fun p =>
      wrapIf (!isDeclaration && p.needsParens) p (classText name superclass body)
  | .classBody, elements => some (bracedText elements fun p x => x.text p)
  | .method kind isStatic computed, key :: function :: _ =>
      some (methodText kind isStatic computed key function)
  | .field isStatic computed accessor, key :: value :: _ => some fun p =>
      elementWords isStatic accessor false false .plain ++ keyText computed key p
        ++ (if value.isPresent then " = " ++ value.text (p.bracketed Level.comma) else "") ++ ";"
  | _, _ => none

end ModuleBundler.Written
