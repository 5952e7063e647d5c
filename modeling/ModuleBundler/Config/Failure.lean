import ModuleBundler.Build.Failure
import ModuleBundler.Config.Basic

/-!
# Failures of the program

A `Failure` is what went wrong, together with what was being done, the outermost first.  Its
`chain` words all of it, and `report` is the text shown to the user.
-/

namespace ModuleBundler

/-- Where configuration files are looked for, from the lowest layer to the highest. -/
inductive Layer where
  | system | user | project
deriving DecidableEq

def Layer.label : Layer → String
  | .system => "system"
  | .user => "user"
  | .project => "project"

/-- What was being done. -/
inductive Activity where
  | readConfig (path : String)
  | parseConfig (path : String)
  | checkConfig (path : String)
  | loadLayer (layer : Layer)
  | loadGivenConfig
  | checkFinalConfig
  | openRoot (path : String)
  | buildGraph (entry : String)
  | emit
  | makeOutputDirectory (path : String)
  | writeBundle (path : String)
deriving DecidableEq

def Activity.message : Activity → String
  | .readConfig path => s!"Failed to read config file: {path}"
  | .parseConfig path => s!"Failed to parse config file: {path}"
  | .checkConfig path => s!"Invalid config file: {path}"
  | .loadLayer layer => s!"Failed to load {layer.label} config"
  | .loadGivenConfig => "Failed to load CLI config"
  | .checkFinalConfig => "Invalid final configuration"
  | .openRoot path => s!"Invalid project root {path}"
  | .buildGraph entry => s!"Failed to build module graph from {entry}"
  | .emit => "Failed to emit bundle"
  | .makeOutputDirectory path => s!"Failed to create output directory {path}"
  | .writeBundle path => s!"Failed to write bundle to {path}"

inductive FailureCause where
  | file (fault : FileFault)
  /-- The text of a configuration cannot be read. -/
  | document
  | config (flaw : ConfigFlaw)
  | build (failure : BuildFailure)
  | noEntry
  | entryOutside (entry root : String)
deriving DecidableEq

/-- The wording of a cause, the outer level first. -/
def FailureCause.messages : FailureCause → List String
  | .file fault => [fault.message]
  | .document => ["<toml error>"]
  | .config flaw => [flaw.message]
  | .build (.file path fault) => [(BuildFailure.file path fault).message, fault.message]
  | .build failure => [failure.message]
  | .noEntry => ["No entry module configured; pass --entry or set `entry` in packlet.toml"]
  | .entryOutside entry root => [s!"Entry {entry} lies outside the project root {root}"]

structure Failure where
  activities : List Activity
  cause : FailureCause
deriving DecidableEq

namespace Failure

/-- A failure of an activity that is part of another. -/
def during (f : Failure) (a : Activity) : Failure := { f with activities := a :: f.activities }

/-- All levels of a failure in words, the outermost first. -/
def chain (f : Failure) : List String := f.activities.map Activity.message ++ f.cause.messages

/-- The numbered levels of a report. -/
def numbered (n : Nat) : List String → List String
  | [] => []
  | level :: rest => s!"    {n}: {level}\n" :: numbered (n + 1) rest

/-- A failure as it is shown to the user. -/
def report (f : Failure) : String :=
  match f.chain with
  | [] => ""
  | [message] => s!"Error: {message}\n"
  | [message, level] => s!"Error: {message}\n\nCaused by:\n    {level}\n"
  | message :: levels => s!"Error: {message}\n\nCaused by:\n" ++ String.join (numbered 0 levels)

end Failure

/-- Names the activity that a failure belongs to. -/
def duringActivity {α : Type} (a : Activity) (r : Except Failure α) : Except Failure α :=
  r.mapError (·.during a)

end ModuleBundler
