import ModuleBundler.Build.Bundle
import ModuleBundler.Config.Load
import ModuleBundler.Module.Cycle
import ModuleBundler.Project.Directory

/-!
# Bundling a project

What a configuration asks for on a host: the graph of its entry, the bundle of the graph, and the
file with the bundle.  `Reported` is a result together with the warnings on the way to it, which
remain when a later step fails.
-/

namespace ModuleBundler

open ModuleBundler.Files ModuleBundler.Text

/-! ## Results with warnings -/

/-- A result, and what was warned of on the way. -/
structure Reported (α : Type) where
  warnings : List String
  result : Except Failure α

namespace Reported

variable {α β : Type}

def plain (result : Except Failure α) : Reported α := ⟨[], result⟩

/-- Goes on with a value; the warnings stay. -/
def andThen (r : Reported α) (next : α → Except Failure β) : Reported β :=
  ⟨r.warnings, r.result.bind next⟩

end Reported

/-! ## Graphs -/

/-- The root of a project as its configuration names it. -/
def Config.rootPath (h : Host) (c : Config) : String :=
  c.root.getD (FileTree.placeText h.cwd)

def Config.directory (h : Host) (c : Config) : Except Failure ProjectDirectory :=
  match ProjectDirectory.find h.files h.cwd (c.rootPath h) with
  | .ok d => .ok d
  | .error e => .error ⟨[.openRoot (c.rootPath h)], .build e⟩

/-- The entry as a specifier seen from the root of its project. -/
def Config.entrySpecifier (d : ProjectDirectory) (c : Config) : Except Failure String :=
  match c.entry with
  | none => .error ⟨[], .noEntry⟩
  | some entry =>
    if isAbsolute entry then
      match d.entryId entry with
      | some id => .ok id.text
      | none => .error ⟨[], .entryOutside entry d.root⟩
    else .ok (pathSpecifier entry)

def Config.transformer (c : Config) : Except Failure Transformer :=
  match c.target with
  | none => .ok (transformerFor none)
  | some text =>
    match Target.read text with
    | .ok target => .ok (transformerFor (some target))
    | .error flaw => .error ⟨[], .config (.target text flaw)⟩

/-- The module graph of a configuration's entry. -/
def Config.buildGraph (h : Host) (c : Config) : Except Failure ModuleGraph := do
  let d ← c.directory h
  let entry ← c.entrySpecifier d
  let transformer ← c.transformer
  match (build d.sources transformer c.extensions entry).1 with
  | .ok g => return g
  | .error e => throw ⟨[.buildGraph entry], .build e⟩

def ModuleGraph.warnings (g : ModuleGraph) : List String :=
  g.importCycles.map fun group => s!"Circular dependency detected: {cycleText group}"

/-- The module graph of a configuration's entry, with warnings about it. -/
def Config.graph (h : Host) (c : Config) : Reported ModuleGraph :=
  match c.buildGraph h with
  | .ok g => ⟨g.warnings, .ok g⟩
  | .error e => .plain (.error e)

/-! ## Bundles -/

def Config.bundle (h : Host) (c : Config) : Reported Bundle :=
  (c.graph h).andThen fun g =>
    match g.emit g.entry with
    | .ok b => .ok b
    | .error e => .error ⟨[.emit], .build e⟩

/-- A bundle in its file. -/
structure WrittenBundle where
  path : String
  bundle : Bundle
  /-- All files afterwards. -/
  files : FileTree

/-- The path of the file for the bundle; a relative one is seen from the root. -/
def Config.bundlePath (h : Host) (c : Config) : String := joinPath (c.rootPath h) c.outputFile

/-- Writes a bundle to its file, and makes the directories above it first. -/
def Config.write (h : Host) (c : Config) (b : Bundle) : Except Failure WrittenBundle := do
  let path := c.bundlePath h
  let files ←
    match parentPath path with
    | none => pure h.files
    | some directory =>
      (h.files.makeDirectories h.cwd directory).mapError fun fault =>
        ⟨[.makeOutputDirectory directory], .file fault⟩
  let files ← (files.writeText h.cwd path b.code).mapError fun fault =>
    ⟨[.writeBundle path], .file fault⟩
  return ⟨path, b, files⟩

/-- Bundles a project and writes the bundle to its file. -/
def Config.bundleToFile (h : Host) (c : Config) : Reported WrittenBundle :=
  (c.bundle h).andThen (c.write h)

end ModuleBundler
