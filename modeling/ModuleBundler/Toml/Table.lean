import ModuleBundler.Toml.Document

/-!
# Building tables

A text names tables in three ways: with a header, with a header of a list of tables, and with
points in keys.  Each key can get a value once, and each table can be opened once.  An `Item` keeps
how a table came about, because that decides what may still be added to it: a table that only lies
on the way to another (`implicit`) can be opened by a header later, and one that points made
(`dotted`) takes more keys by points.
-/

namespace ModuleBundler.Toml

/-- What stands at a key while tables are being built. -/
inductive Item where
  | value (d : Document)
  | table (implicit dotted : Bool) (entries : List (String × Item))
  /-- A list of tables, each opened by a header of its own. -/
  | tables (elements : List (List (String × Item)))

abbrev Entries := List (String × Item)

/-- Changes what stands at a key, if anything does; `none` refuses the change. -/
def changeAt (key : String) (change : Option Item → Option Item) : Entries → Option Entries
  | [] => (change none).map fun i => [(key, i)]
  | (k, i) :: rest =>
    if k = key then (change (some i)).map fun j => (k, j) :: rest
    else (changeAt key change rest).map ((k, i) :: ·)

/-- A change of a table, which also sees whether points made it. -/
abbrev TableChange := Bool → Entries → Option Entries

/-- Changes the table that a path leads to; tables on the way are made when they are missing.
`byPoints` tells that the path is one of points in a key, which does not lead into tables that a
header opened. -/
def changeUnder (byPoints : Bool) : List String → TableChange → TableChange
  | [], change => change
  | key :: path, change => fun _ entries =>
    changeAt key (fun
      | none => (changeUnder byPoints path change byPoints []).map (.table true byPoints ·)
      | some (.value _) => none
      | some (.tables elements) =>
        match elements.getLast? with
        | none => none
        | some last =>
          (changeUnder byPoints path change false last).map fun t =>
            .tables (elements.dropLast ++ [t])
      | some (.table implicit dotted inner) =>
        if byPoints && !implicit then none
        else (changeUnder byPoints path change dotted inner).map (.table implicit dotted ·))
      entries

/-- Gives a key of a table its value.  A table that points made takes keys by points only, and
every other table takes none of them directly by points. -/
def setValue (byPoints : Bool) (key : String) (d : Document) : TableChange := fun dotted entries =>
  if dotted != byPoints then none
  else changeAt key (fun
    | none => some (.value d)
    | some _ => none) entries

/-- Gives the key at the end of a path its value. -/
def addValueChange (path : List String) (d : Document) : TableChange :=
  match path.getLast? with
  | none => fun _ _ => none
  | some key => changeUnder true path.dropLast (setValue (!path.dropLast.isEmpty) key d)

def addValue (path : List String) (d : Document) (entries : Entries) : Option Entries :=
  addValueChange path d false entries

/-- Gives a key below an opened table its value. -/
def addValueUnder (header path : List String) (d : Document) (entries : Entries) :
    Option Entries :=
  changeUnder false header (addValueChange path d) false entries

def openTable (header : List String) (entries : Entries) : Option Entries :=
  match header.getLast? with
  | none => none
  | some key =>
    changeUnder false header.dropLast (fun _ => changeAt key (fun
      | none => some (.table false false [])
      | some (.table true false inner) => some (.table false false inner)
      | some _ => none)) false entries

def openElement (header : List String) (entries : Entries) : Option Entries :=
  match header.getLast? with
  | none => none
  | some key =>
    changeUnder false header.dropLast (fun _ => changeAt key (fun
      | none => some (.tables [[]])
      | some (.tables elements) => some (.tables (elements ++ [[]]))
      | some _ => none)) false entries

/-! ## The finished document -/

mutual

def Item.document : Item → Document
  | .value d => d
  | .table _ _ entries => .table (documentsOf entries)
  | .tables elements => .list (elementDocuments elements)

def documentsOf : List (String × Item) → List (String × Document)
  | [] => []
  | (key, item) :: rest => (key, item.document) :: documentsOf rest

def elementDocuments : List (List (String × Item)) → List Document
  | [] => []
  | entries :: rest => .table (documentsOf entries) :: elementDocuments rest

end

end ModuleBundler.Toml
