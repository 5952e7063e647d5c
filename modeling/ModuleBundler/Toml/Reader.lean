import ModuleBundler.Text.CharClass

/-!
# Reading configuration texts

A `Reader` reads the beginning of a text: it answers with a result and the rest, or fails.  Of two
alternatives the second begins where the first did.

Here are the characters that the grammar knows, and what stands between values: blanks, line ends
and comments.
-/

namespace ModuleBundler.Toml

open ModuleBundler.Text

/-- Reads the beginning of a text. -/
abbrev Reader := StateT (List Char) Option

namespace Reader

/-- The characters not read yet. -/
def rest : Reader (List Char) := get

def peek : Reader (Option Char) := do return (← rest).head?

def any : Reader Char := do
  match ← rest with
  | [] => failure
  | c :: more =>
    set more
    return c

def satisfying (test : Char → Bool) : Reader Char := do
  let c ← any
  if test c then return c else failure

def char (c : Char) : Reader Unit := do
  let _ ← satisfying (· == c)

def word (text : String) : Reader Unit := do
  let r ← rest
  if text.toList.isPrefixOf r then set (r.drop text.length) else failure

/-- Whether a given text comes next; if so it is read. -/
def eat (text : String) : Reader Bool := do
  let r ← rest
  if text.toList.isPrefixOf r then
    set (r.drop text.length)
    return true
  else return false

def takeWhile (test : Char → Bool) : Reader (List Char) := do
  let r ← rest
  set (r.dropWhile test)
  return r.takeWhile test

def takeSome (test : Char → Bool) : Reader (List Char) := do
  match ← takeWhile test with
  | [] => failure
  | cs => return cs

def maybe {α : Type} (p : Reader α) : Reader (Option α) :=
  (some <$> p) <|> pure none

/-- The characters that a reader reads. -/
def written {α : Type} (p : Reader α) : Reader (List Char) := do
  let before ← rest
  let _ ← p
  return before.take (before.length - (← rest).length)

/-- Repeats a step until it answers `none`, at most as often as there are characters. -/
def rounds {α : Type} (step : α → Reader (Option α)) : Nat → α → Reader α
  | 0, _ => failure
  | n + 1, a => do
    match ← step a with
    | none => return a
    | some b => rounds step n b

/-- Repeats a step until it answers `none`. -/
def iterate {α : Type} (step : α → Reader (Option α)) (a : α) : Reader α := do
  rounds step ((← rest).length + 2) a

/-! ## Characters -/

/-- A blank inside of a line. -/
def isSpace (c : Char) : Bool := c == ' ' || c == '\t'

/-- A character that a comment or a text on one line can have, delimiters apart. -/
def isVisible (c : Char) : Bool := c == '\t' || (0x20 ≤ c.toNat && c.toNat != 0x7f)

/-! ## Between values -/

def spaces : Reader Unit := do
  let _ ← takeWhile isSpace

def newline : Reader Unit := do
  if !(← eat "\n") then word "\r\n"

/-- Reads a comment, up to the end of its line. -/
def comment : Reader Unit := do
  char '#'
  let _ ← takeWhile isVisible

def anyComment : Reader Unit := do
  if (← peek) == some '#' then comment

/-- Reads what may stand behind the last value of a line, and the line end or the end of the
text. -/
def endOfLine : Reader Unit := do
  spaces
  anyComment
  if !(← rest).isEmpty then newline

def emptyLines : Reader Unit :=
  iterate (fun _ => do
    spaces
    if (← peek) == some '#' then
      comment
      newline
      return some ()
    if (← eat "\n") || (← eat "\r\n") then return some ()
    return none) ()

end Reader

end ModuleBundler.Toml
