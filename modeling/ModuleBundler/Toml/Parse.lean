import ModuleBundler.Toml.Value

/-!
# Configuration texts

A configuration text is a list of lines: keys with values, headers that open a table, headers that
open the next table of a list, and comments.  `Document.parse` reads all of it, or fails.
-/

namespace ModuleBundler.Toml

open Reader

/-- The tables so far, and the header that was opened last. -/
structure Build where
  entries : Entries
  header : List String

/-- Goes on with changed tables, unless the change was refused. -/
def goOn (header : List String) (entries : Option Entries) : Reader Build :=
  match entries with
  | some entries => return ⟨entries, header⟩
  | none => failure

def header (b : Build) : Reader Build := do
  if ← eat "[[" then
    let path ← keyPath
    word "]]"
    endOfLine
    goOn path (openElement path b.entries)
  else
    char '['
    let path ← keyPath
    char ']'
    endOfLine
    goOn path (openTable path b.entries)

def keyValue (b : Build) : Reader Build := do
  let path ← keyPath
  char '='
  spaces
  let d ← value
  endOfLine
  goOn b.header (addValueUnder b.header path d b.entries)

def line (b : Build) : Reader (Option Build) := do
  spaces
  match ← peek with
  | none => return none
  | some '[' => return some (← header b)
  | some '#' | some '\n' | some '\r' =>
    endOfLine
    return some b
  | _ => return some (← keyValue b)

def Document.parse (text : String) : Option Document :=
  let run : Reader Build := do
    let _ ← eat "\ufeff"
    iterate line ⟨[], []⟩
  match run.run text.toList with
  | some (b, []) => some (.table (documentsOf b.entries))
  | _ => none

end ModuleBundler.Toml
