import ModuleBundler.Syntax.Fault
import ModuleBundler.Text.Position

/-!
# Faults as they are shown

A `Diagnostic` is a fault in words, at a line and a column of the text in which it was found.
-/

namespace ModuleBundler.Syntax

open ModuleBundler.Text

/-- A refusal in words, and the place it points at. -/
structure Diagnostic where
  message : String
  position : Position
deriving DecidableEq

def Fault.locate (text : List Char) (f : Fault) : Diagnostic :=
  ⟨f.cause.message, Position.ofChars (text.take f.offset)⟩

/-- A diagnostic on one line, its place in parentheses. -/
def Diagnostic.display (d : Diagnostic) : String :=
  s!"{d.message} ({d.position.line}:{d.position.column})"

end ModuleBundler.Syntax
