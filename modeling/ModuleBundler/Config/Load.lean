import ModuleBundler.Config.Failure
import ModuleBundler.Config.Overrides
import ModuleBundler.Config.Shape
import ModuleBundler.Files.Tree
import ModuleBundler.Toml.Parse

/-!
# Loading a configuration

A configuration is put together from layers, from the lowest to the highest: the defaults, the
configuration files of the system, of the user and of the project, the environment, and a file that
the user names.  Of the places where the file of a layer can be, the first that has one counts.

A `Host` is what a program finds when it starts: files, a current directory and an environment.
-/

namespace ModuleBundler

open ModuleBundler.Files ModuleBundler.Text ModuleBundler.Toml

/-- What a program finds when it starts. -/
structure Host where
  files : FileTree
  cwd : Place
  environment : Environment

/-! ## Places of configuration files -/

def configFileName : String := "packlet.toml"

/-- The configuration file below a directory of configurations. -/
def configFileIn (directory : String) : String :=
  joinPath (joinPath directory "packlet") configFileName

def systemDirectories (e : Environment) : List String :=
  let listed := ((e.get? "XDG_CONFIG_DIRS").filter (· != "")).getD "/etc/xdg"
  ((splitAtChar ':' listed.toList).map String.ofList).filter (· != "") ++ ["/etc"]

def userDirectory (e : Environment) : String :=
  match (e.get? "XDG_CONFIG_HOME").filter isAbsolute with
  | some directory => directory
  | none => joinPath ((e.get? "HOME").getD "/root") ".config/"

/-- Where the file of a layer can be, the preferred place first. -/
def Layer.candidates (e : Environment) : Layer → List String
  | .system => (systemDirectories e).map configFileIn
  | .user => [configFileIn (userDirectory e)]
  | .project => [configFileName]

/-- Where the file of a layer is. -/
def Layer.locate (h : Host) (l : Layer) : Option String :=
  (l.candidates h.environment).find? (h.files.isFile h.cwd)

/-! ## Loading -/

/-- Refuses a configuration with a flaw. -/
def Config.checked (c : Config) : Except Failure Config :=
  match c.check with
  | some flaw => .error ⟨[], .config flaw⟩
  | none => .ok c

def Config.ofFile (h : Host) (path : String) : Except Failure Config :=
  match h.files.readText h.cwd path with
  | .error fault => .error ⟨[.readConfig path], .file fault⟩
  | .ok text =>
    match (Document.parse text).bind (Config.ofDocument true) with
    | none => .error ⟨[.parseConfig path], .document⟩
    | some c => duringActivity (.checkConfig path) c.checked

/-- Puts the file of a layer on top of a configuration. -/
def Config.addLayer (h : Host) (c : Config) (l : Layer) : Except Failure Config :=
  match l.locate h with
  | none => .ok c
  | some path => do
    let upper ← duringActivity (.loadLayer l) (Config.ofFile h path)
    return upper.over c

/-- The configuration of a host, with a file that the user names on top. -/
def Config.load (h : Host) (givenFile : Option String) : Except Failure Config := do
  let files ← [Layer.system, .user, .project].foldlM (Config.addLayer h) Config.default
  let settings := h.environment.overrides.applyTo files
  let config ←
    match givenFile with
    | none => pure settings
    | some path => do
      let upper ← duringActivity .loadGivenConfig (Config.ofFile h path)
      pure (upper.over settings)
  duringActivity .checkFinalConfig config.checked

end ModuleBundler
