import ModuleBundler.Text.CharClass

/-!
# Texts shown in messages

`shown` writes a text between double quotes for a message.  Quotes and backslashes get a backslash
before them, and a character that leaves no mark is written as an escape, so that the message shows
every character.
-/

namespace ModuleBundler.Text

/-- The lower case hexadecimal digits of a number, as few as it has, but at least one. -/
def fewestHexDigits (n : Nat) : List Char :=
  match (hexDigits 8 n).dropWhile (· == '0') with
  | [] => ['0']
  | digits => digits

/-- How one character is shown. -/
def shownChar (c : Char) : List Char :=
  if c = '"' then ['\\', '"']
  else if c = '\\' then ['\\', '\\']
  else if c = '\n' then ['\\', 'n']
  else if c = '\r' then ['\\', 'r']
  else if c = '\t' then ['\\', 't']
  else if c.toNat = 0 then ['\\', '0']
  else if isUnprintable c then ['\\', 'u', '\x7b'] ++ fewestHexDigits c.toNat ++ ['\x7d']
  else [c]

def shown (text : String) : String :=
  String.ofList ('"' :: (text.toList.flatMap shownChar ++ ['"']))

end ModuleBundler.Text
