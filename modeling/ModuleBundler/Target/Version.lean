import ModuleBundler.Text.CharClass
import ModuleBundler.Text.Split

/-!
# Version numbers

A version has three numbers; the second and the third are zero when they are not written.  What
stands behind a hyphen, or behind the third number, is not part of it.
-/

namespace ModuleBundler.Target

open ModuleBundler.Text

structure Version where
  major : Nat
  minor : Nat
  patch : Nat
deriving DecidableEq

/-- Whether a version comes before another. -/
def Version.before (a b : Version) : Bool :=
  a.major < b.major
    || (a.major == b.major
      && (a.minor < b.minor || (a.minor == b.minor && a.patch < b.patch)))

def decimal (digits : List Char) : Nat :=
  digits.foldl (fun n d => n * 10 + (d.toNat - 48)) 0

/-- Reads a number below `2^32`, possibly with a plus sign. -/
def readNumber (text : List Char) : Option Nat :=
  let digits := match text with
    | '+' :: rest => rest
    | _ => text
  if digits.isEmpty || !digits.all isDigit then none
  else if decimal digits < 4294967296 then some (decimal digits) else none

def Version.read (text : List Char) : Option Version := do
  let numbers := splitAtChar '.' (text.takeWhile (· != '-'))
  let number (i : Nat) : Option Nat :=
    match numbers[i]? with
    | some piece => readNumber piece
    | none => some 0
  return ⟨← number 0, ← number 1, ← number 2⟩

end ModuleBundler.Target
