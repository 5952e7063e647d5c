import ModuleBundler.Syntax.Tree

/-!
# New parts of a program

Constructors for the expressions and statements that stand for newer ones.  Their spans are empty,
since no text of the program belongs to them.
-/

namespace ModuleBundler.Adaptation

open ModuleBundler.Syntax

def new (label : Label) (children : List Node) : Node := .mk label ⟨0, 0⟩ children

def refer (name : String) : Node := new (.reference name) []

def undefinedValue : Node := new (.unary "void") [new (.number false "0") []]

def assignTo (target value : Node) : Node := new (.assign "=") [target, value]

/-- A strict comparison of a value with `null` and of the same value, read again, with the
undefined value. -/
def compareAbsent (comparison connective : String) (value again : Node) : Node :=
  new (.logical connective)
    [new (.binary comparison) [value, new .nullValue []],
      new (.binary comparison) [again, undefinedValue]]

def choose (test yes no : Node) : Node := new .conditional [test, yes, no]

def property (object : Node) (name : String) : Node :=
  new (.member false) [object, new (.name name) []]

def powerCall (base exponent : Node) : Node :=
  new (.call false) [property (refer "Math") "pow", base, exponent]

/-- One expression after another. -/
def sequenceOf (first : List Node) (last : Node) : Node :=
  match first with
  | [] => last
  | _ => new .sequence (first ++ [last])

/-- The declaration of variables without values. -/
def declare (names : List String) : Node :=
  new (.variables .var)
    (names.map fun name => new (.declarator .var) [new (.binding name) [], .absent])

end ModuleBundler.Adaptation
