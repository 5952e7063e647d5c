/-!
# Line ends

Texts are read with three conventions for the end of a line: a line feed, a carriage return, or
both.  `unifyLineEnds` brings them to the line feed: first every pair becomes one line feed,
then every carriage return that is left.  A text without carriage returns is not gone through at
all.  `endLines` writes lines with that end.
-/

namespace ModuleBundler.Text

/-- Writes a line feed for each carriage return with a line feed behind it. -/
def joinPairs : List Char → List Char
  | '\r' :: '\n' :: rest => '\n' :: joinPairs rest
  | c :: rest => c :: joinPairs rest
  | [] => []

/-- Writes a line feed for each carriage return. -/
def replaceReturns (text : List Char) : List Char :=
  text.map fun c => if c = '\r' then '\n' else c

/-- A text whose only line ends are line feeds. -/
def unifyLineEnds (text : List Char) : List Char :=
  if text.contains '\r' then replaceReturns (joinPairs text) else text

/-- Lines as one text, each with its end. -/
def endLines (lines : List String) : String := String.join (lines.map (· ++ "\n"))

end ModuleBundler.Text
