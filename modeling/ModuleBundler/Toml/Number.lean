import ModuleBundler.Toml.Document
import ModuleBundler.Toml.Reader

/-!
# Numbers

Whole numbers are decimal, with a sign if need be, or hexadecimal, octal or binary without one, and
fit into 64 bits with a sign.  A decimal has a fraction or an exponent; one that is greater than
every finite double is refused.  An underscore can stand between two digits.
-/

namespace ModuleBundler.Toml

open ModuleBundler.Text Reader

def digits (test : Char → Bool) : Reader (List Char) := do
  let first ← satisfying test
  iterate (fun (cs : List Char) => do
    match ← rest with
    | '_' :: d :: _ => if test d then (do let _ ← any; return some (cs ++ [← any])) else return none
    | d :: _ => if test d then return some (cs ++ [← any]) else return none
    | [] => return none) [first]

/-- Reads a sign, if one stands here; the answer is whether it is a minus. -/
def sign : Reader Bool := do
  if ← eat "-" then return true
  let _ ← eat "+"
  return false

/-- Reads the digits of a whole number, without a superfluous zero in front. -/
def wholeDigits : Reader (List Char) := do
  if ← eat "0" then return ['0']
  digits isDigit

def inBase (base : Nat) (ds : List Char) : Nat :=
  ds.foldl (fun n d => n * base + (hexValue? d).getD 0) 0

/-- Reads digits in a base behind the text that announces it. -/
def based (announcement : String) (base : Nat) : Reader Document := do
  word announcement
  let ds ← digits fun c => (hexValue? c).any (· < base)
  let n := inBase base ds
  if n < Nat.pow 2 63 then return .integer n else failure

def integer : Reader Document :=
  based "0x" 16 <|> based "0o" 8 <|> based "0b" 2 <|> do
    let negative ← sign
    let n := inBase 10 (← wholeDigits)
    if negative then
      if n ≤ Nat.pow 2 63 then return .integer (-n) else failure
    else if n < Nat.pow 2 63 then return .integer n else failure

def exponent : Reader Int := do
  let _ ← satisfying fun c => c == 'e' || c == 'E'
  let negative ← sign
  let n : Int := inBase 10 (← digits isDigit)
  return if negative then -n else n

/-- Whether `mantissa * 10 ^ power` rounds to infinity as a double. -/
def overflows (mantissa : Nat) (power : Int) : Bool :=
  let magnitude : Int := (Nat.toDigits 10 mantissa).length + power
  if mantissa = 0 || magnitude < 300 then false
  else if 320 < magnitude then true
  else
    let limit := Nat.pow 2 1024 - Nat.pow 2 970
    if 0 ≤ power then limit ≤ mantissa * Nat.pow 10 power.toNat
    else limit * Nat.pow 10 (-power).toNat ≤ mantissa

/-- Reads a number with a fraction, an exponent, or both. -/
def finiteDecimal : Reader Unit := do
  let negative ← sign
  let whole ← wholeDigits
  let fraction ← if ← eat "." then digits isDigit else pure []
  let power ← if fraction.isEmpty then exponent else (·.getD 0) <$> maybe exponent
  if !negative && overflows (inBase 10 (whole ++ fraction)) (power - fraction.length) then failure

/-- Reads an infinity, or what is no number. -/
def specialDecimal : Reader Unit := do
  let _ ← sign
  if !(← eat "inf") then word "nan"

def decimal : Reader Document := do
  return .decimal (String.ofList (← written (finiteDecimal <|> specialDecimal)))

end ModuleBundler.Toml
