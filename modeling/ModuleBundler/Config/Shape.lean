import ModuleBundler.Config.Basic
import ModuleBundler.Toml.Document

/-!
# The shape of a configuration

`Config.ofDocument` reads a configuration from a document.  A field that is missing has its
default, keys that mean nothing are passed over, and a field of the wrong kind is refused.  Instead
of a table there can be a list of the fields in order; whether it may be longer than that depends
on where the document comes from.
-/

namespace ModuleBundler

open ModuleBundler.Toml

/-- The documents of fields with the given names, if `d` can hold fields. -/
def fieldsOf (longLists : Bool) (names : List String) (d : Document) :
    Option (List (Option Document)) :=
  match d with
  | .table _ => some (names.map d.get?)
  | .list items =>
    if !longLists && names.length < items.length then none
    else some ((List.range names.length).map fun i => items[i]?)
  | _ => none

def optionalText : Option Document → Option (Option String)
  | none => some none
  | some .null => some none
  | some (.text s) => some (some s)
  | some _ => none

def textOr (default : String) : Option Document → Option String
  | none => some default
  | some (.text s) => some s
  | some _ => none

/-- The text of a document that is one. -/
def textOf : Document → Option String
  | .text s => some s
  | _ => none

def textsOr (default : List String) : Option Document → Option (List String)
  | none => some default
  | some (.list items) => items.mapM textOf
  | some _ => none

def Output.ofDocument (longLists : Bool) (d : Document) : Option Output := do
  match ← fieldsOf longLists ["path", "filename"] d with
  | [path, filename] =>
    return ⟨← textOr Output.default.path path, ← textOr Output.default.filename filename⟩
  | _ => none

def Config.ofDocument (longLists : Bool) (d : Document) : Option Config := do
  match ← fieldsOf longLists ["entry", "root", "output", "extensions", "target"] d with
  | [entry, root, output, extensions, target] =>
    return {
      entry := ← optionalText entry
      root := ← optionalText root
      output := ← match output with
        | none => some .default
        | some o => Output.ofDocument longLists o
      extensions := ← textsOr defaultExtensions extensions
      target := ← optionalText target }
  | _ => none

end ModuleBundler
