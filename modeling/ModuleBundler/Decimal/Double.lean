/-!
# Doubles and their shortest decimals

A `Double` is a positive number with 53 binary digits at most, and an exponent of at least `-1074`.

* `Double.nearest` rounds a fraction to the nearest double, a tie to the even mantissa.
* `Double.shortest` is the decimal with the fewest digits among those that round to the double;
  of two such decimals it is the one nearer to the double.
-/

namespace ModuleBundler

/-- A number `significand * 10 ^ exponent`. -/
structure Decimal where
  significand : Nat
  exponent : Int
deriving DecidableEq

namespace Decimal

/-- A positive number `mantissa * 2 ^ exponent`. -/
structure Double where
  mantissa : Nat
  exponent : Int
deriving DecidableEq

def upper (base : Nat) (exponent : Int) : Nat := Nat.pow base exponent.toNat

def lower (base : Nat) (exponent : Int) : Nat := Nat.pow base (-exponent).toNat

/-! ## Rounding -/

/-- The quotient rounded to the nearest number, a tie to the even one. -/
def roundDiv (num den : Nat) : Nat :=
  let q := num / den
  let r := num % den
  if 2 * r < den then q else if den < 2 * r then q + 1 else q + q % 2

/-- The binary exponent at which a positive fraction has 53 digits before the point. -/
def binaryExponent (num den : Nat) : Int :=
  let q : Int := (num.log2 : Int) - den.log2 - 53
  if num * lower 2 q / (den * upper 2 q) < Nat.pow 2 53 then q else q + 1

/-- The double nearest to a positive fraction, if it is not too large for a double. -/
def Double.nearest (num den : Nat) : Option Double :=
  let q := max (binaryExponent num den) (-1074)
  let m := roundDiv (num * lower 2 q) (den * upper 2 q)
  let d : Double := if m < Nat.pow 2 53 then ⟨m, q⟩ else ⟨m / 2, q + 1⟩
  if d.exponent ≤ 971 then some d else none

/-! ## Shortest decimals -/

/-- Whether `c * 10 ^ k` rounds to a double. -/
def Double.covers (d : Double) (c : Nat) (k : Int) : Bool :=
  let scaled := c * upper 10 k * lower 2 (d.exponent - 2)
  let unit := lower 10 k * upper 2 (d.exponent - 2)
  let below := if d.mantissa = Nat.pow 2 52 ∧ -1074 < d.exponent then 1 else 2
  let low := (4 * d.mantissa - below) * unit
  let high := (4 * d.mantissa + 2) * unit
  if d.mantissa % 2 = 0 then low ≤ scaled && scaled ≤ high else low < scaled && scaled < high

/-- The multiple of `10 ^ k` that rounds to a double, the nearer one if there are two. -/
def Double.onGrid (d : Double) (k : Int) : Option Nat :=
  let num := d.mantissa * upper 2 d.exponent * lower 10 k
  let den := lower 2 d.exponent * upper 10 k
  let c := num / den
  let r := num % den
  match d.covers c k, d.covers (c + 1) k with
  | true, true => some (if 2 * r < den then c else if den < 2 * r then c + 1 else c + c % 2)
  | true, false => some c
  | false, true => some (c + 1)
  | false, false => none

/-- The first of `count` grids, from `10 ^ k` to finer ones, with a decimal for a double. -/
def Double.search (d : Double) (k : Int) : Nat → Decimal
  | 0 => ⟨d.mantissa, 0⟩
  | count + 1 =>
    match d.onGrid k with
    | some c => ⟨c, k⟩
    | none => d.search (k - 1) count

/-- The decimal with the fewest digits that rounds to a double. -/
def Double.shortest (d : Double) : Decimal :=
  d.search (((d.mantissa.log2 : Int) + d.exponent) * 30103 / 100000 + 2) 24

end Decimal

end ModuleBundler
