/-!
# Positions in a text

A `Position` counts lines and columns from one.  Only a line feed ends a line, and columns count
characters.

* `Position.ofChars` is the position just after the given characters.
* `positionAt` is the position of a byte offset.  An offset past the end of the text, or inside a
  character, stands for the end of the text (`charsBefore` is `none` there).
-/

namespace ModuleBundler.Text

/-- A line and a column, both counted from one. -/
structure Position where
  line : Nat
  column : Nat
deriving DecidableEq

def Position.step (p : Position) (c : Char) : Position :=
  if c = '\n' then ⟨p.line + 1, 1⟩ else ⟨p.line, p.column + 1⟩

/-- The position just after a list of characters. -/
def Position.ofChars (before : List Char) : Position :=
  before.foldl Position.step ⟨1, 1⟩

/-- The characters that fill exactly the first `n` bytes of a text. -/
def charsBefore : List Char → Nat → Option (List Char)
  | _, 0 => some []
  | [], _ + 1 => none
  | c :: rest, n + 1 =>
    if c.utf8Size ≤ n + 1 then (charsBefore rest (n + 1 - c.utf8Size)).map (c :: ·) else none

/-- The position of a byte offset. -/
def positionAt (source : String) (offset : Nat) : Position :=
  Position.ofChars ((charsBefore source.toList offset).getD source.toList)

end ModuleBundler.Text
