import ModuleBundler.Text.CharClass

/-!
# String literals in generated code

`quote` writes a text between double quotes so that it reads back as that text.  Backslash and
double quote are escaped, the five control characters with a short escape use it, every other
control character below `U+0020` becomes a four digit escape, and so do the two line separators,
which older readers of program text refuse inside a literal.  All else is copied.

`readProperty` reads a property of an object: after a point when `isIdentifier` allows it, in
brackets with a quoted key otherwise.
-/

namespace ModuleBundler.Text

/-- The written form of one character inside a literal. -/
def quoteChar (c : Char) : List Char :=
  if c = '"' then ['\\', '"']
  else if c = '\\' then ['\\', '\\']
  else if c = '\n' then ['\\', 'n']
  else if c = '\r' then ['\\', 'r']
  else if c = '\t' then ['\\', 't']
  else if c.toNat = 8 then ['\\', 'b']
  else if c.toNat = 12 then ['\\', 'f']
  else if c.toNat < 0x20 || c.toNat = 0x2028 || c.toNat = 0x2029 then
    '\\' :: 'u' :: hexDigits 4 c.toNat
  else [c]

def quoteChars : List Char → List Char
  | [] => []
  | c :: rest => quoteChar c ++ quoteChars rest

/-- A text as a double-quoted string literal. -/
def quote (text : String) : String :=
  String.ofList ('"' :: (quoteChars text.toList ++ ['"']))

/-! ## Property access -/

/-- Whether a name may follow the point of a property access. -/
def isIdentifier (name : String) : Bool :=
  match name.toList with
  | [] => false
  | c :: rest =>
    (c == '$' || c == '_' || isAlphabetic c)
      && rest.all fun d =>
        d == '$' || d == '_' || d.toNat == 0x200c || d.toNat == 0x200d || isAlphanumeric d

def readProperty (object name : String) : String :=
  if isIdentifier name then object ++ "." ++ name
  else object ++ "[" ++ quote name ++ "]"

end ModuleBundler.Text
