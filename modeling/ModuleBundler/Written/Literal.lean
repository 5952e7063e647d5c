import ModuleBundler.Decimal.Literal
import ModuleBundler.Syntax.Tree
import ModuleBundler.Text.CharClass

/-!
# The text of literals and names

Strings are written between double quotes, whatever quotes they had, and control characters in
them as escapes; only a tab stays as it is.  A directive keeps its characters, because an escape
would change what it means.
-/

namespace ModuleBundler.Written

open ModuleBundler.Syntax ModuleBundler.Text

/-! ## Strings -/

/-- The text of a character of a string before the characters `rest`. -/
def charText (c : Char) (rest : List Char) : String :=
  match c.toNat with
  | 0 => if rest.head?.any isDigit then "\\x00" else "\\0"
  | 0x07 => "\\x07"
  | 0x08 => "\\b"
  | 0x0A => "\\n"
  | 0x0B => "\\v"
  | 0x0C => "\\f"
  | 0x0D => "\\r"
  | 0x1B => "\\x1B"
  | 0x22 => "\\\""
  | 0x5C => "\\\\"
  | 0xA0 => "\\xA0"
  | 0x2028 => "\\u2028"
  | 0x2029 => "\\u2029"
  | _ => String.singleton c

def charsText : List Char → String
  | [] => ""
  | c :: rest => charText c rest ++ charsText rest

def stringText (value : String) : String := "\"" ++ charsText value.toList ++ "\""

/-- A directive with the characters between its quotes. -/
def directiveText (raw : String) : String :=
  let quote := if raw.toList.find? (fun c => c == '"' || c == '\'') == some '"' then "'" else "\""
  quote ++ raw ++ quote

/-! ## Templates -/

/-- A template from its parts and the texts between them. -/
def templateText : List String → List String → String
  | part :: parts, value :: values =>
    part ++ "$\x7b" ++ value ++ "\x7d" ++ templateText parts values
  | parts, _ => String.join parts

/-! ## Leaves -/

def leafText? : Label → Option String
  | .reference name | .binding name | .labelName name | .name name => some name
  | .privateName name => some ("#" ++ name)
  | .thisValue => some "this"
  | .superValue => some "super"
  | .nullValue => some "null"
  | .boolean value => some (if value then "true" else "false")
  | .number _ raw => some (Decimal.literalText raw)
  | .bigint raw => some (String.ofList (raw.toList.filter (· != '_')))
  | .string value wellFormed raw =>
    some (if wellFormed then stringText value else "\"" ++ raw ++ "\"")
  | .regex pattern flags => some ("/" ++ pattern ++ "/" ++ flags)
  | _ => none

end ModuleBundler.Written
