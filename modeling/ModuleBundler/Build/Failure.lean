import ModuleBundler.Files.Fault
import ModuleBundler.Module.Graph
import ModuleBundler.Syntax.Diagnostic

/-!
# Failures of a build

A build ends with the first failure: a module that is no valid program, a specifier that leads
nowhere, or a file that cannot be read.
-/

namespace ModuleBundler

open ModuleBundler.Syntax

/-- Who asks for a module. -/
inductive Importer where
  | entry
  | bundle
  | module (id : ModuleId)
deriving DecidableEq

/-- How an importer is named in a message. -/
def Importer.text : Importer → String
  | .entry => "<entry>"
  | .bundle => "<bundle>"
  | .module id => id.text

/-- Why a specifier leads to no module. -/
inductive Unresolved where
  | emptySpecifier
  | bareSpecifier
  | emptyEntry
  | notFound (base : ModuleId)
  | missingEntry
  | missingTarget (target : ModuleId)
  | unknownEntry
deriving DecidableEq

def Unresolved.message : Unresolved → String
  | .emptySpecifier => "empty module specifier"
  | .bareSpecifier =>
    "bare module specifiers are not supported; use a relative or absolute path"
  | .emptyEntry => "empty entry specifier"
  | .notFound base => s!"no module found at {base.text}"
  | .missingEntry => "entry module is not part of the graph"
  | .missingTarget target => s!"resolved module {target.text} is missing from the graph"
  | .unknownEntry => "entry module is not part of the module graph"

/-- Why a build ended. -/
inductive BuildFailure where
  /-- A module is no valid program. -/
  | parse (module : ModuleId) (diagnostic : Diagnostic)
  /-- A specifier leads to no module. -/
  | resolution (importer : Importer) (specifier : String) (reason : Unresolved)
  /-- A file cannot be read. -/
  | file (path : String) (fault : FileFault)
deriving DecidableEq

def BuildFailure.message : BuildFailure → String
  | .parse module d =>
    s!"failed to parse {module.text} at {d.position.line}:{d.position.column}: {d.message}"
  | .resolution importer specifier reason =>
    s!"cannot resolve '{specifier}' from {importer.text}: {reason.message}"
  | .file path _ => s!"failed to read {path}"

def GraphFlaw.failure : GraphFlaw → BuildFailure
  | .missingEntry entry => .resolution .entry entry.text .missingEntry
  | .missingTarget importer link =>
    .resolution (.module importer) link.specifier (.missingTarget link.target)

end ModuleBundler
