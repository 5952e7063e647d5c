import ModuleBundler.Decimal.Double
import ModuleBundler.Text.CharClass
import ModuleBundler.Text.Split

/-!
# Numeric literals

`readLiteral` gives the fraction that a numeric literal of the language writes, and
`Decimal.text` writes a number as briefly as the language allows: as its usual decimal text
without a zero before the point, in hexadecimal, or as digits with an exponent, whichever is
shortest; of texts of one length the earlier one in this list is taken.
-/

namespace ModuleBundler.Decimal

open ModuleBundler.Text

/-! ## Reading -/

def digitValue (c : Char) : Nat :=
  if isDigit c then c.toNat - 48 else c.toLower.toNat - 87

def digitsValue (base : Nat) (digits : List Char) : Nat :=
  digits.foldl (fun n d => n * base + digitValue d) 0

def exponentValue : List Char → Int
  | '-' :: digits => -(digitsValue 10 digits : Int)
  | '+' :: digits => digitsValue 10 digits
  | digits => digitsValue 10 digits

def readDecimal (text : List Char) : Nat × Nat :=
  let isMark (c : Char) : Bool := c == 'e' || c == 'E'
  let digits := text.takeWhile fun c => !isMark c
  let whole := digits.takeWhile (· != '.')
  let places := (digits.dropWhile (· != '.')).drop 1
  let exponent := exponentValue ((text.dropWhile fun c => !isMark c).drop 1) - places.length
  (digitsValue 10 (whole ++ places) * upper 10 exponent, lower 10 exponent)

/-- The numerator and denominator of a numeric literal. -/
def readLiteral (text : List Char) : Nat × Nat :=
  match text.filter (· != '_') with
  | '0' :: 'x' :: digits | '0' :: 'X' :: digits => (digitsValue 16 digits, 1)
  | '0' :: 'o' :: digits | '0' :: 'O' :: digits => (digitsValue 8 digits, 1)
  | '0' :: 'b' :: digits | '0' :: 'B' :: digits => (digitsValue 2 digits, 1)
  | digits => readDecimal digits

/-! ## Writing -/

/-- The usual decimal text of a number, without a zero before the point. -/
def usualText (d : Decimal) : String :=
  let digits := toString d.significand
  let point : Int := digits.length + d.exponent
  let zeros (n : Int) : String := String.ofList (List.replicate n.toNat '0')
  let before (n : Int) : String := String.ofList (digits.toList.take n.toNat)
  let behind (n : Int) : String := String.ofList (digits.toList.drop n.toNat)
  if 0 ≤ d.exponent ∧ point ≤ 21 then digits ++ zeros d.exponent
  else if 0 < point ∧ point ≤ 21 then before point ++ "." ++ behind point
  else if -6 < point ∧ point ≤ 0 then "." ++ zeros (-point) ++ digits
  else
    (if digits.length = 1 then digits else before 1 ++ "." ++ behind 1) ++ "e"
      ++ toString (point - 1)

/-- The value of a decimal that is a whole number. -/
def whole? (d : Decimal) : Option Nat :=
  if 0 ≤ d.exponent then some (d.significand * upper 10 d.exponent) else none

/-- The earliest of the shortest texts of a list. -/
def shortestText (first : String) (others : List String) : String :=
  others.foldl (fun best s => if s.length < best.length then s else best) first

def exponentText (d : Decimal) : String :=
  toString d.significand ++ "e" ++ toString d.exponent

/-- The briefest text of a number. -/
def text (d : Decimal) : String :=
  match d.whole? with
  | some n =>
    if n < 1000 then toString n
    else
      shortestText d.usualText ["0x" ++ String.ofList (Nat.toDigits 16 n), d.exponentText]
  | none => shortestText d.usualText [d.exponentText]

/-- The briefest text of the number that a numeric literal writes. -/
def literalText (raw : String) : String :=
  match readLiteral raw.toList with
  | (0, _) => "0"
  | (num, den) =>
    match Double.nearest num den with
    | some ⟨0, _⟩ => "0"
    | some d => d.shortest.text
    | none => "Infinity"

end ModuleBundler.Decimal
