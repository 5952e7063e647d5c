import ModuleBundler.Build.Discovery
import ModuleBundler.Files.Tree

/-!
# Project directories

A `ProjectDirectory` is a directory whose files are modules: the id of a module is the path of its
file below the directory.  `pathOf` and `idOf` go from ids to paths and back, and `sources` makes
the files available to a build.
-/

namespace ModuleBundler

open ModuleBundler.Files

/-- A directory whose files are modules. -/
structure ProjectDirectory where
  files : FileTree
  /-- The current directory, from which relative paths are seen. -/
  cwd : Place
  /-- The path of the directory, absolute and without symbolic links. -/
  root : String

namespace ProjectDirectory

def find (files : FileTree) (cwd : Place) (path : String) :
    Except BuildFailure ProjectDirectory :=
  match files.canonicalPath cwd path with
  | .ok root => .ok ⟨files, cwd, root⟩
  | .error fault => .error (.file path fault)

def pathOf (d : ProjectDirectory) (id : ModuleId) : String := id.segments.foldl joinPath d.root

/-- The names of steps that all lead downwards. -/
def stepNames : List Component → Option (List String)
  | [] => some []
  | .name text :: rest => (stepNames rest).map (text :: ·)
  | .here :: rest => stepNames rest
  | _ => none

/-- The id that steps below a project directory lead to. -/
def idOfSteps (steps : List Component) : Option ModuleId :=
  (stepNames steps).map fun names => ModuleId.ofPath ("/".intercalate names)

/-- The id of the module at a path; a path that does not begin like the directory's own is
followed first, because it may lead there through symbolic links. -/
def idOf (d : ProjectDirectory) (path : String) : Option ModuleId :=
  match belowPath d.root path with
  | some steps => idOfSteps steps
  | none =>
    match d.files.canonicalPath d.cwd path with
    | .ok canonical => (belowPath d.root canonical).bind idOfSteps
    | .error _ => none

/-- The id of the module that an absolute path names, possibly without its extension, so only
the directory that holds it has to be there. -/
def entryId (d : ProjectDirectory) (path : String) : Option ModuleId :=
  match d.idOf path with
  | some id => some id
  | none => do
    let parent ← (d.files.canonicalPath d.cwd (← parentPath path)).toOption
    d.idOf (joinPath parent (← fileName path))

def load (d : ProjectDirectory) (id : ModuleId) : Except BuildFailure String :=
  (d.files.readText d.cwd (d.pathOf id)).mapError (.file (d.pathOf id))

/-- The files of a project directory as modules.  A path has less than 4096 parts and every part
of it is the name of an entry, which bounds the number of ids, symbolic links or not. -/
def sources (d : ProjectDirectory) : Sources where
  has id := d.files.isFile d.cwd (d.pathOf id)
  load := d.load
  capacity := Nat.pow (d.files.entries.length + 1) 4096

end ProjectDirectory

end ModuleBundler
