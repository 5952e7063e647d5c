import ModuleBundler.Toml.Moment
import ModuleBundler.Toml.Number
import ModuleBundler.Toml.Quoted
import ModuleBundler.Toml.Table

/-!
# Keys and values

A key is a word or a quoted text, and keys with points between them lead into tables.  A value is a
text, a number, a truth value, a moment, a list, or a table on one line.  Lists and tables nest
less than eighty deep, and a key leads less than eighty tables deep.
-/

namespace ModuleBundler.Toml

open ModuleBundler.Text Reader

/-- The depth that values and keys do not reach. -/
def depthLimit : Nat := 80

/-- A character of a key that is not quoted. -/
def isKeyChar (c : Char) : Bool := isLatinLetter c || isDigit c || c == '_' || c == '-'

def simpleKey : Reader String := do
  match ← peek with
  | some '"' => basicText
  | some '\'' => literalText
  | _ => return String.ofList (← takeSome isKeyChar)

def keyPath : Reader (List String) := do
  spaces
  let first ← simpleKey
  spaces
  let keys ← iterate (fun (keys : List String) => do
    if ← eat "." then
      spaces
      let k ← simpleKey
      spaces
      return some (keys ++ [k])
    else return none) [first]
  if keys.length < depthLimit then return keys else failure

def boolean : Reader Document := do
  if ← eat "true" then return .boolean true
  word "false"
  return .boolean false

def listOf (value : Reader Document) : Reader Document := do
  char '['
  let (items, _) ← iterate (fun (state : List Document × Bool) => do
    let (items, done) := state
    if done then return none
    emptyLines
    if ← eat "]" then return some (items, true)
    let d ← value
    emptyLines
    if ← eat "," then return some (items ++ [d], false)
    char ']'
    return some (items ++ [d], true)) ([], false)
  return .list items

def inlineTable (value : Reader Document) : Reader Document := do
  char '\x7b'
  spaces
  if ← eat "\x7d" then return .table []
  let (entries, _) ← iterate (fun (state : Entries × Bool) => do
    let (entries, done) := state
    if done then return none
    let path ← keyPath
    char '='
    spaces
    let d ← value
    spaces
    match addValue path d entries with
    | none => failure
    | some entries =>
      if ← eat "," then return some (entries, false)
      char '\x7d'
      return some (entries, true)) ([], false)
  return .table (documentsOf entries)

/-- Reads a value that nests less than `n` deep. -/
def valueWithin : Nat → Reader Document
  | 0 => failure
  | n + 1 => do
    match ← peek with
    | some '"' | some '\'' => return .text (← quotedText)
    | some '[' => if n = 0 then failure else listOf (valueWithin n)
    | some '\x7b' => if n = 0 then failure else inlineTable (valueWithin n)
    | some 't' | some 'f' => boolean
    | _ => moment <|> decimal <|> integer

def value : Reader Document := valueWithin depthLimit

end ModuleBundler.Toml
