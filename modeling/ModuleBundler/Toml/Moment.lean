import ModuleBundler.Toml.Document
import ModuleBundler.Toml.Reader

/-!
# Moments

A moment is a date of the calendar, a time of the day, or a date with a time and possibly its
distance from universal time.  Days that a month does not have are refused.
-/

namespace ModuleBundler.Toml

open ModuleBundler.Text Reader

/-- Reads a number of so many digits within bounds. -/
def fixedNumber (width low high : Nat) : Reader Nat := do
  let r ← rest
  let ds := r.take width
  if ds.length != width || !ds.all isDigit then failure
  let n := ds.foldl (fun n d => n * 10 + (d.toNat - 48)) 0
  if n < low || high < n then failure
  set (r.drop width)
  return n

def daysIn (year month : Nat) : Nat :=
  if month = 2 then
    if year % 4 = 0 && (year % 100 != 0 || year % 400 = 0) then 29 else 28
  else if month = 4 || month = 6 || month = 9 || month = 11 then 30
  else 31

def date : Reader Unit := do
  let year ← fixedNumber 4 0 9999
  char '-'
  let month ← fixedNumber 2 1 12
  char '-'
  let _ ← fixedNumber 2 1 (daysIn year month)

def time : Reader Unit := do
  let _ ← fixedNumber 2 0 23
  char ':'
  let _ ← fixedNumber 2 0 59
  char ':'
  let _ ← fixedNumber 2 0 60
  if ← eat "." then
    let _ ← takeSome isDigit

def offset : Reader Unit := do
  match ← any with
  | 'Z' | 'z' => return ()
  | '+' | '-' =>
    let _ ← fixedNumber 2 0 23
    char ':'
    let _ ← fixedNumber 2 0 59
  | _ => failure

def timeOfDate : Reader Unit := do
  let _ ← satisfying fun c => c == 'T' || c == 't' || c == ' '
  time
  let _ ← maybe offset

def moment : Reader Document := do
  let cs ← written ((do date; let _ ← maybe timeOfDate) <|> time)
  return .moment (String.ofList cs)

end ModuleBundler.Toml
