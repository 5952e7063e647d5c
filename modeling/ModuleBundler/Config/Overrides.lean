import ModuleBundler.Config.Basic
import ModuleBundler.Text.Split
import ModuleBundler.Text.Trim

/-!
# Single settings

`Overrides` are settings given one by one, in environment variables or in the arguments of the
command line.  Each of them replaces a field of a configuration, whatever its value.
-/

namespace ModuleBundler

open ModuleBundler.Text

/-- Settings given one by one. -/
structure Overrides where
  entry : Option String
  root : Option String
  outputPath : Option String
  outputFilename : Option String
  extensions : Option (List String)
  target : Option String
deriving DecidableEq

def Overrides.none : Overrides := ⟨.none, .none, .none, .none, .none, .none⟩

/-- A configuration with settings replaced. -/
def Overrides.applyTo (o : Overrides) (c : Config) : Config where
  entry := o.entry.or c.entry
  root := o.root.or c.root
  output := ⟨o.outputPath.getD c.output.path, o.outputFilename.getD c.output.filename⟩
  extensions := o.extensions.getD c.extensions
  target := o.target.or c.target

/-! ## Environment variables -/

/-- The variables of the environment with their values. -/
abbrev Environment := List (String × String)

def Environment.get? (e : Environment) (name : String) : Option String :=
  (e.find? fun v => v.1 == name).map (·.2)

/-- The value of a variable without white space around it; a value of nothing else does not
count. -/
def Environment.setting (e : Environment) (name : String) : Option String :=
  ((e.get? name).map trimBlank).filter (· != "")

/-- The texts between commas, without white space around them and without empty ones. -/
def commaSeparated (text : String) : List String :=
  ((splitAtChar ',' text.toList).map fun piece => trimBlank (String.ofList piece)).filter (· != "")

def Environment.overrides (e : Environment) : Overrides where
  entry := e.setting "PACKLET_ENTRY"
  root := e.setting "PACKLET_ROOT"
  outputPath := e.setting "PACKLET_OUTPUT_PATH"
  outputFilename := e.setting "PACKLET_OUTPUT_FILENAME"
  extensions :=
    ((e.setting "PACKLET_EXTENSIONS").map commaSeparated).filter fun list => !list.isEmpty
  target := e.setting "PACKLET_TARGET"

end ModuleBundler
