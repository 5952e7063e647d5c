import ModuleBundler.Toml.Reader

/-!
# Quoted texts

Texts stand between double quotes, where a backslash begins an escape, or between single quotes,
where it does not.  With three quotes on each side they can have more than one line; then a line
end behind the opening quotes does not count, every line end reads as a line feed, and one or two
quotes can stand before the closing ones.
-/

namespace ModuleBundler.Toml

open ModuleBundler.Text Reader

/-- The character of a code point, which a surrogate does not have. -/
def scalar (n : Nat) : Option Char :=
  if n < 0xd800 || (0xdfff < n && n < 0x110000) then some (Char.ofNat n) else none

def codePoint (digits : Nat) : Reader Char := do
  let r ← rest
  let values := (r.take digits).filterMap hexValue?
  if values.length != digits then failure
  match scalar (values.foldl (fun n d => n * 16 + d) 0) with
  | some c =>
    set (r.drop digits)
    return c
  | none => failure

/-- Reads an escape behind its backslash. -/
def escape : Reader Char := do
  match ← any with
  | 'b' => return Char.ofNat 8
  | 't' => return '\t'
  | 'n' => return '\n'
  | 'f' => return Char.ofNat 12
  | 'r' => return '\r'
  | '"' => return '"'
  | '\\' => return '\\'
  | 'u' => codePoint 4
  | 'U' => codePoint 8
  | _ => failure

def basicText : Reader String := do
  char '"'
  let cs ← iterate (fun (cs : List Char) => do
    match ← peek with
    | some '"' => return none
    | some '\\' =>
      char '\\'
      return some ((← escape) :: cs)
    | _ => return some ((← satisfying isVisible) :: cs)) []
  char '"'
  return String.ofList cs.reverse

/-- Reads a text between single quotes. -/
def literalText : Reader String := do
  char '\''
  let cs ← takeWhile fun c => isVisible c && c != '\''
  char '\''
  return String.ofList cs

/-- Reads the quotes that come next, when there are enough to close a text; of these the first,
two at most, belong to the text. -/
def closing (quote : Char) : Reader (Option (List Char)) := do
  let run := ((← rest).takeWhile (· == quote)).length
  if run < 3 then return none
  let kept := min (run - 3) 2
  set ((← rest).drop (kept + 3))
  return some (List.replicate kept quote)

/-- Reads a line end that a backslash takes away, with the blanks and line ends behind it. -/
def foldedLines : Reader Unit := do
  spaces
  newline
  iterate (fun _ => do
    if (← peek).any isSpace then
      spaces
      return some ()
    if (← eat "\n") || (← eat "\r\n") then return some ()
    return none) ()

/-- Reads the inside and the closing quotes of a text of several lines. -/
def linesInside (quote : Char) (escapes : Bool) : Reader String := do
  let _ ← maybe newline
  let (cs, _) ← iterate (fun (state : List Char × Bool) => do
    let (cs, done) := state
    if done then return none
    match ← closing quote with
    | some kept => return some (kept ++ cs, true)
    | none =>
      match ← peek with
      | some '\n' =>
        newline
        return some ('\n' :: cs, false)
      | some '\r' =>
        newline
        return some ('\n' :: cs, false)
      | some '\\' =>
        if !escapes then
          char '\\'
          return some ('\\' :: cs, false)
        char '\\'
        match ← peek with
        | some c =>
          if isSpace c || c == '\n' || c == '\r' then
            foldedLines
            return some (cs, false)
          else return some ((← escape) :: cs, false)
        | none => failure
      | _ => return some ((← satisfying isVisible) :: cs, false)) ([], false)
  return String.ofList cs.reverse

/-- Reads a text in any quotes. -/
def quotedText : Reader String := do
  if ← eat "\"\"\"" then linesInside '"' true
  else if ← eat "'''" then linesInside '\'' false
  else if (← peek) == some '"' then basicText
  else literalText

end ModuleBundler.Toml
