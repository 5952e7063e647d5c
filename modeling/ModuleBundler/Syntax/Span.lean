/-!
# Stretches of program text

A `Span` is a half-open interval of character offsets into a program text.  Parsing, early errors
and the loader form all speak about places in this unit; byte offsets appear only in
`ModuleBundler.Text.positionAt`.
-/

namespace ModuleBundler.Syntax

/-- The characters from offset `start` up to and not including offset `stop`. -/
structure Span where
  start : Nat
  stop : Nat
deriving DecidableEq, Inhabited

def Span.slice (s : Span) (text : List Char) : List Char :=
  (text.drop s.start).take (s.stop - s.start)

end ModuleBundler.Syntax
