import ModuleBundler.Text.CharTable.Alphabetic
import ModuleBundler.Text.CharTable.GraphemeExtend
import ModuleBundler.Text.CharTable.IdContinueOnly
import ModuleBundler.Text.CharTable.IdStart
import ModuleBundler.Text.CharTable.Invisible
import ModuleBundler.Text.CharTable.Numeric

/-!
# Classes of characters

Two readers look at characters and they use different classes.

* **Names of properties** (`isAlphabetic`, `isAlphanumeric`) follow the Unicode properties
  `Alphabetic` and `Nd`/`Nl`/`No`.
* **Program text** (`startsIdentifier`, `continuesIdentifier`, `isProgramBlank`,
  `isLineTerminator`) follows `ID_Start` and `ID_Continue` and the white space of the grammar.

`isBlank` is the Unicode property `White_Space`.  Each class decides ASCII directly and looks the
rest up in a table of ascending ranges (`inRanges`).
-/

namespace ModuleBundler.Text

/-- Membership in a list of ascending ranges; the search stops at the first range above `n`. -/
def inRanges (n : Nat) : List (Nat × Nat) → Bool
  | [] => false
  | (lo, hi) :: rest => if n < lo then false else if n ≤ hi then true else inRanges n rest

/-! ## Unicode properties -/

def isLatinLetter (c : Char) : Bool :=
  ('a' ≤ c && c ≤ 'z') || ('A' ≤ c && c ≤ 'Z')

def isDigit (c : Char) : Bool := '0' ≤ c && c ≤ '9'

/-- The Unicode property `Alphabetic`. -/
def isAlphabetic (c : Char) : Bool :=
  if c.toNat < 0x80 then isLatinLetter c else inRanges c.toNat CharTable.alphabetic

/-- The general categories `Nd`, `Nl` and `No`. -/
def isNumeric (c : Char) : Bool :=
  if c.toNat < 0x80 then isDigit c else inRanges c.toNat CharTable.numeric

/-- A letter or a number of any script. -/
def isAlphanumeric (c : Char) : Bool := isAlphabetic c || isNumeric c

/-- The Unicode property `White_Space`. -/
def isBlank (c : Char) : Bool :=
  let n := c.toNat
  (9 ≤ n && n ≤ 13) || n == 0x20 || n == 0x85 || n == 0xa0 || n == 0x1680
    || (0x2000 ≤ n && n ≤ 0x200a) || n == 0x2028 || n == 0x2029 || n == 0x202f
    || n == 0x205f || n == 0x3000

/-- A character that a quoted display of text cannot show as itself. -/
def isUnprintable (c : Char) : Bool :=
  let n := c.toNat
  if n < 0x80 then n < 0x20 || n == 0x7f
  else inRanges n CharTable.invisible || inRanges n CharTable.graphemeExtend

/-! ## Program text -/

/-- A character that begins an identifier. -/
def startsIdentifier (c : Char) : Bool :=
  if c.toNat < 0x80 then isLatinLetter c || c == '$' || c == '_'
  else inRanges c.toNat CharTable.idStart

/-- A character that continues an identifier; the two joiners are among them. -/
def continuesIdentifier (c : Char) : Bool :=
  if c.toNat < 0x80 then isLatinLetter c || isDigit c || c == '$' || c == '_'
  else c.toNat == 0x200c || c.toNat == 0x200d || inRanges c.toNat CharTable.idStart
    || inRanges c.toNat CharTable.idContinueOnly

/-- A line feed, a carriage return, or one of the two Unicode separators. -/
def isLineTerminator (c : Char) : Bool :=
  c == '\n' || c == '\r' || c.toNat == 0x2028 || c.toNat == 0x2029

/-- White space between tokens that does not end a line. -/
def isProgramBlank (c : Char) : Bool :=
  let n := c.toNat
  n == 0x20 || n == 9 || n == 11 || n == 12 || n == 0x85 || n == 0xa0 || n == 0xfeff || n == 0x1680
    || (0x2000 ≤ n && n ≤ 0x200b) || n == 0x202f || n == 0x205f || n == 0x3000

def hexValue? (c : Char) : Option Nat :=
  if isDigit c then some (c.toNat - 48)
  else if 'a' ≤ c && c ≤ 'f' then some (c.toNat - 87)
  else if 'A' ≤ c && c ≤ 'F' then some (c.toNat - 55)
  else none

/-- The lower case hexadecimal digit of `d < 16`. -/
def hexDigit (d : Nat) : Char := if d < 10 then Char.ofNat (48 + d) else Char.ofNat (87 + d)

/-- The last `k` hexadecimal digits of `n`, the most significant first. -/
def hexDigits : Nat → Nat → List Char
  | 0, _ => []
  | k + 1, n => hexDigits k (n / 16) ++ [hexDigit (n % 16)]

end ModuleBundler.Text
