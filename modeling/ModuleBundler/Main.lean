import ModuleBundler.CommandLine.Run

/-!
# The program

The program reads the files that a run can see, runs on them (`CommandLine.run`), and then writes
the files that the run has changed, shows its texts and ends with its exit code.  What a run can
see are the configuration files, everything below the current directory and below the root of the
project, and the directory of the output.
-/

namespace ModuleBundler

open ModuleBundler.Files ModuleBundler.Text

/-! ## Reading -/

def placeOf (path : String) : Place := (slashParts path).filter (· != "")

/-- Adds what stands at a path, and everything below it, to the files read so far.  What cannot be
read is left out. -/
partial def readBelow (path : String) (t : FileTree) : IO FileTree := do
  try
    let real ← IO.FS.realPath path
    let place := placeOf real.toString
    if (t.entry? place).isSome then return t
    if ← real.isDir then
      (← real.readDir).foldlM (fun t entry => readEntry entry.path.toString t)
        (t.place place .directory)
    else return t.place place (.file (String.fromUTF8? (← IO.FS.readBinFile real)))
  catch _ => return t
where
  /-- Adds an entry of a directory; a symbolic link is added together with what it leads to. -/
  readEntry (path : String) (t : FileTree) : IO FileTree := do
    try
      let real := (← IO.FS.realPath path).toString
      if real == path then readBelow path t
      else readBelow real (t.place (placeOf path) (.symlink real))
    catch _ => return t

/-- The paths that lead to a path, and the path itself. -/
def pathsAbove (path : String) : List String :=
  (List.range ((slashParts path).length + 1)).filterMap fun n =>
    if n = 0 then none else some ("/".intercalate ((slashParts path).take n))

/-- Adds the directories that lead to a path. -/
def readAbove (path : String) (t : FileTree) : IO FileTree :=
  (pathsAbove path).foldlM (fun t (p : String) => do
    try
      let place := placeOf (← IO.FS.realPath p).toString
      return if (t.entry? place).isSome then t else t.place place .directory
    catch _ => return t) t

/-- The variables that a run looks at. -/
def variableNames : List String :=
  ["HOME", "XDG_CONFIG_HOME", "XDG_CONFIG_DIRS", "PACKLET_ENTRY", "PACKLET_ROOT",
    "PACKLET_OUTPUT_PATH", "PACKLET_OUTPUT_FILENAME", "PACKLET_EXTENSIONS", "PACKLET_TARGET"]

def readEnvironment : IO Environment :=
  variableNames.filterMapM fun name => do return (← IO.getEnv name).map fun value => (name, value)

def readHost (arguments : List String) : IO Host := do
  let environment ← readEnvironment
  let cwd := (← IO.currentDir).toString
  let options := match CommandLine.Request.ofArguments arguments with
    | .ok (.bundle o) => o
    | _ => .none
  let configFiles := [Layer.system, .user, .project].flatMap (Layer.candidates environment)
    ++ (options.get? .config).toList
  let files ← configFiles.foldlM (fun t path => readBelow path t) ⟨[]⟩
  let files ← readBelow cwd files
  let host : Host := ⟨files, placeOf cwd, environment⟩
  match options.config host with
  | .error _ => return host
  | .ok c =>
    let files ← readBelow (c.rootPath host) files
    return { host with files := ← readAbove (c.bundlePath host) files }

/-! ## Writing -/

/-- Writes what has changed from `before`. -/
def writeChanges (before after : FileTree) : IO Unit :=
  after.entries.forM fun (place, entry) => do
    if before.entry? place != some entry then
      match entry with
      | .directory => IO.FS.createDirAll (FileTree.placeText place)
      | .file (some text) => IO.FS.writeFile (FileTree.placeText place) text
      | _ => return ()

end ModuleBundler

open ModuleBundler in
def main (arguments : List String) : IO UInt32 := do
  let host ← readHost arguments
  let ending := CommandLine.run host arguments
  writeChanges host.files ending.files
  ending.warnings.forM fun warning => IO.eprintln s!"warning: {warning}"
  IO.eprint ending.stderr
  IO.print ending.stdout
  return ending.exitCode.toUInt32
