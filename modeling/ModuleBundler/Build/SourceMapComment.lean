import ModuleBundler.Text.CharClass

/-!
# Source map comments

A program text may end in a comment that names its source map, as in `//# sourceMappingURL=a.map`.
A bundle has no source map, so the comment would mislead.  `dropSourceMapComment` writes a line
feed in its place: for the comment, the blanks and the line end before it, and the white space
behind it.
-/

namespace ModuleBundler

open ModuleBundler.Text

def isLineBlank (c : Char) : Bool := c == ' ' || c == '\t'

def isAddressChar (c : Char) : Bool := !isBlank c && c != '\'' && c != '"' && c != '\x60'

/-- The words that name a source map. -/
def sourceMapWords : List Char := "sourceMappingURL=".toList

/-- What follows the text `beginning`, if `text` begins with it. -/
def afterText (beginning text : List Char) : Option (List Char) :=
  if beginning.isPrefixOf text then some (text.drop beginning.length) else none

def dropLineEnd : List Char → List Char
  | '\r' :: '\n' :: rest => rest
  | '\n' :: rest => rest
  | text => text

/-- Whether a text is the comment that names a source map, with at most one line end and blanks
before it and nothing but white space behind it. -/
def isSourceMapTail (text : List Char) : Bool :=
  match (dropLineEnd text).dropWhile isLineBlank with
  | '/' :: '/' :: mark :: rest =>
    (mark == '#' || mark == '@') &&
      match afterText sourceMapWords (rest.dropWhile isLineBlank) with
      | some address => ((address.dropWhile isAddressChar).dropWhile isBlank).isEmpty
      | none => false
  | _ => false

/-- A text with a line feed for the comment that names its source map. -/
def dropSourceMapComment : List Char → List Char
  | [] => []
  | c :: rest => if isSourceMapTail (c :: rest) then ['\n'] else c :: dropSourceMapComment rest

end ModuleBundler
