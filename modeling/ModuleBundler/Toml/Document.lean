/-!
# Documents

What a structured text says: texts, numbers, truth values, moments, lists, and tables from keys to
documents.  A moment is a date, a time, or both, and is kept as it is written.
-/

namespace ModuleBundler.Toml

/-- The contents of a structured text. -/
inductive Document where
  /-- No value. -/
  | null
  | text (value : String)
  | boolean (value : Bool)
  | integer (value : Int)
  | decimal (written : String)
  | moment (written : String)
  | list (items : List Document)
  | table (entries : List (String × Document))

instance : Inhabited Document := ⟨.null⟩

def Document.get? (d : Document) (key : String) : Option Document :=
  match d with
  | .table entries => (entries.find? fun e => e.1 == key).map (·.2)
  | _ => none

end ModuleBundler.Toml
