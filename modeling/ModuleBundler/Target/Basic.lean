import ModuleBundler.Target.Version
import ModuleBundler.Text.Shown

/-!
# Syntax targets

A target says for which readers the code of a bundle is written: for an edition of the language,
for versions of engines, or for both.  `Target.read` reads the written form, items between commas
such as `es2015` or `chrome80`, in any case.  An edition can be given once, and each engine once.
-/

namespace ModuleBundler

open ModuleBundler.Text

namespace Target

/-! ## Editions and engines -/

inductive Edition where
  | fifth
  | year (n : Nat)
  /-- All that is known of the next one. -/
  | next
deriving DecidableEq

def editionYears : List Nat := [2015, 2016, 2017, 2018, 2019, 2020, 2021, 2022, 2023, 2024, 2025]

def Edition.text : Edition → String
  | .fifth => "es5"
  | .year n => s!"es{n}"
  | .next => "esnext"

/-- The edition with a name, given in lower case. -/
def Edition.ofName (name : String) : Option Edition :=
  if name = "es6" then some (.year 2015)
  else (.fifth :: .next :: editionYears.map .year).find? fun e => e.text == name

/-- An engine that runs programs. -/
inductive Engine where
  | chrome | deno | edge | firefox | hermes | ie | ios | node | opera | rhino | safari | samsung
  | electron | android
deriving DecidableEq

def engineNames : List (String × Engine) :=
  [("chrome", .chrome), ("deno", .deno), ("edge", .edge), ("firefox", .firefox),
    ("hermes", .hermes), ("ie", .ie), ("ios", .ios), ("node", .node), ("opera", .opera),
    ("rhino", .rhino), ("safari", .safari), ("samsung", .samsung), ("electron", .electron),
    ("android", .android)]

structure EngineVersion where
  engine : Engine
  version : Version
deriving DecidableEq

end Target

/-! ## Targets -/

/-- The readers that code is written for. -/
structure Target where
  edition : Option Target.Edition
  engines : List Target.EngineVersion
deriving DecidableEq

namespace Target

/-- Why a target cannot be read. -/
inductive Flaw where
  | unknownItem (item : String)
  | badVersion
  | repeated (item : String)
deriving DecidableEq

def Flaw.message : Flaw → String
  | .unknownItem item => s!"Invalid target '{item}'."
  | .badVersion =>
    "All version numbers must be in the format \"X\", \"X.Y\", or \"X.Y.Z\" where X, Y, and Z are "
      ++ "non-negative integers."
  | .repeated item => s!"'{item}' is already specified."

/-- A text in lower case, as far as its letters are ASCII. -/
def lowerCase (text : String) : String := text.map Char.toLower

/-- Reads the name and the version of an engine, given in lower case. -/
def readEngine (item : String) : Except Flaw EngineVersion :=
  match engineNames.find? fun e => e.1.toList.isPrefixOf item.toList with
  | none => .error (.unknownItem item)
  | some (name, engine) =>
    match Version.read (item.toList.drop name.length) with
    | some version => .ok ⟨engine, version⟩
    | none => .error .badVersion

def add (t : Target) (item : String) : Except Flaw Target := do
  match Edition.ofName (lowerCase item) with
  | some edition =>
    match t.edition with
    | some earlier => throw (.repeated earlier.text)
    | none => return { t with edition := some edition }
  | none =>
    let e ← readEngine (lowerCase item)
    if t.engines.any fun other => other.engine == e.engine then throw (.repeated item)
    return { t with engines := t.engines ++ [e] }

/-- Reads a target. -/
def read (text : String) : Except Flaw Target :=
  ((splitAtChar ',' text.toList).map String.ofList).foldlM add ⟨none, []⟩

def unsupportedMessage (text : String) (flaw : Flaw) : String :=
  s!"unsupported target {shown text}: {flaw.message}"

end Target

end ModuleBundler

-- The full spellings, for programs that open `ModuleBundler` only.
namespace ModuleBundler.Target
set_option linter.all false in
export ModuleBundler (Target)
namespace Target
set_option linter.all false in
export ModuleBundler.Target (read)
end Target
end ModuleBundler.Target
