import ModuleBundler.Files.Fault
import ModuleBundler.Files.Path

/-!
# File trees

A `FileTree` is what the file system holds: an entry for each place, which is a directory, a file
or a symbolic link.  A place is the list of names that leads to it from the root; the root itself
has no entry and is a directory.

`FileTree.locate` follows a path from a directory to the place it means, through symbolic links, of
which it follows at most forty.  Reading, writing and making directories go through it.
-/

namespace ModuleBundler

open ModuleBundler.Text ModuleBundler.Files

/-! ## Trees -/

/-- What stands at a place. -/
inductive FileEntry where
  | directory
  /-- A file; its text is absent when its bytes are no text. -/
  | file (text : Option String)
  | symlink (target : String)
deriving DecidableEq

/-- The names that lead to an entry from the root. -/
abbrev Place := List String

/-- The entries of a file system. -/
structure FileTree where
  entries : List (Place × FileEntry)

namespace FileTree

def entry? (t : FileTree) (p : Place) : Option FileEntry :=
  if p.isEmpty then some .directory else (t.entries.find? fun e => e.1 == p).map (·.2)

def put (t : FileTree) (p : Place) (e : FileEntry) : FileTree :=
  ⟨t.entries.filter (fun other => other.1 != p) ++ [(p, e)]⟩

/-- Makes the directories above a place, those that are missing. -/
def withParents (t : FileTree) (p : Place) : FileTree :=
  ((List.range p.length).drop 1).foldl (fun t n =>
    if (t.entry? (p.take n)).isSome then t else t.put (p.take n) .directory) t

/-- Puts an entry at a place, and the directories above it. -/
def place (t : FileTree) (p : Place) (e : FileEntry) : FileTree := (t.withParents p).put p e

/-! ## Following paths -/

/-- A place as an absolute path. -/
def placeText (p : Place) : String := "/" ++ "/".intercalate p

/-- What to do at the last name of a path when nothing stands there. -/
abbrev Missing := Place → Except FileFault Place

/-- Follows the parts of a path from a place up to the first symbolic link, where `jump` takes
over with the directory to go on from and the parts to go on with. -/
def walk (t : FileTree) (missing : Missing) (jump : Place → List String → Except FileFault Place)
    (at_ : Place) : List String → Except FileFault Place
  | [] => .ok at_
  | part :: rest =>
    match t.entry? at_ with
    | some .directory =>
      if part = "" || part = "." then walk t missing jump at_ rest
      else if part = ".." then walk t missing jump at_.dropLast rest
      else if 255 < part.utf8ByteSize then .error .nameTooLong
      else
        let next := at_ ++ [part]
        match t.entry? next with
        | none => if rest.isEmpty then missing next else .error .notFound
        | some (.symlink target) =>
          jump (if isAbsolute target then [] else at_) (slashParts target ++ rest)
        | some _ => walk t missing jump next rest
    | some _ => .error .notDirectory
    | none => .error .notFound

/-- Follows parts through at most `n` symbolic links. -/
def follow (t : FileTree) (missing : Missing) : Nat → Place → List String → Except FileFault Place
  | 0, at_, parts => t.walk missing (fun _ _ => .error .tooManyLinks) at_ parts
  | n + 1, at_, parts => t.walk missing (t.follow missing n) at_ parts

/-- The place that a path means, seen from the directory `cwd`. -/
def locateWith (t : FileTree) (missing : Missing) (cwd : Place) (path : String) :
    Except FileFault Place :=
  if path = "" then .error .notFound
  else if 4096 ≤ path.utf8ByteSize then .error .nameTooLong
  else t.follow missing 40 (if isAbsolute path then [] else cwd) (slashParts path)

/-- The place of what a path leads to. -/
def locate (t : FileTree) (cwd : Place) (path : String) : Except FileFault Place :=
  t.locateWith (fun _ => .error .notFound) cwd path

/-! ## Using files -/

def canonicalPath (t : FileTree) (cwd : Place) (path : String) : Except FileFault String :=
  (t.locate cwd path).map placeText

def isFile (t : FileTree) (cwd : Place) (path : String) : Bool :=
  match (t.locate cwd path).toOption.bind t.entry? with
  | some (.file _) => true
  | _ => false

def isDirectory (t : FileTree) (cwd : Place) (path : String) : Bool :=
  match (t.locate cwd path).toOption.bind t.entry? with
  | some .directory => true
  | _ => false

def readText (t : FileTree) (cwd : Place) (path : String) : Except FileFault String := do
  match t.entry? (← t.locate cwd path) with
  | some (.file (some text)) => return text
  | some (.file none) => throw .invalidText
  | some .directory => throw .isDirectory
  | _ => throw .notFound

/-- Whether a path can only mean a directory because of how it ends. -/
def endsInDirectory (path : String) : Bool :=
  match (slashParts path).getLast? with
  | some last => last = "" || last = "." || last = ".."
  | none => false

/-- Writes a file, a new one or over an old one. -/
def writeText (t : FileTree) (cwd : Place) (path text : String) : Except FileFault FileTree := do
  if path != "" && endsInDirectory path then throw .isDirectory
  let p ← t.locateWith .ok cwd path
  match t.entry? p with
  | some .directory => throw .isDirectory
  | _ => return t.put p (.file (some text))

def partsOf (path : String) : List String :=
  ((slashParts path).reverse.dropWhile (· == "")).reverse

/-- Makes a directory where nothing stands yet, not even a symbolic link. -/
def makeDirectory (t : FileTree) (cwd : Place) (path : String) : Except FileFault FileTree := do
  if endsInDirectory path && (partsOf path).getLast?.any (fun part => part == "." || part == "..")
      || (partsOf path).isEmpty then
    let _ ← t.locate cwd path
    throw .alreadyExists
  let start := if isAbsolute path then [] else cwd
  let above ← t.follow (fun _ => .error .notFound) 40 start (partsOf path).dropLast
  let p := above ++ (partsOf path).drop ((partsOf path).length - 1)
  match t.entry? above, t.entry? p with
  | some .directory, none => return t.put p .directory
  | some .directory, some _ => throw .alreadyExists
  | _, _ => throw .notDirectory

/-- Makes a directory and those above it, trying at most `n` of them. -/
def makeDirectoriesWithin (cwd : Place) : Nat → FileTree → String → Except FileFault FileTree
  | 0, t, _ => .ok t
  | n + 1, t, path =>
    if (pathComponents path).isEmpty then .ok t
    else
      let retry (t : FileTree) : Except FileFault FileTree :=
        match t.makeDirectory cwd path with
        | .ok t => .ok t
        | .error e => if t.isDirectory cwd path then .ok t else .error e
      match t.makeDirectory cwd path with
      | .ok t => .ok t
      | .error .notFound =>
        match parentPath path with
        | some parent => (makeDirectoriesWithin cwd n t parent).bind retry
        | none => .error .notFound
      | .error e => if t.isDirectory cwd path then .ok t else .error e

/-- Makes a directory and those above it, as far as they are missing. -/
def makeDirectories (t : FileTree) (cwd : Place) (path : String) : Except FileFault FileTree :=
  makeDirectoriesWithin cwd ((pathComponents path).length + 1) t path

/-- The paths of everything below a place that is no directory. -/
def pathsBelow (t : FileTree) (p : Place) : List String :=
  t.entries.filterMap fun (q, e) =>
    if p.isPrefixOf q && e != .directory then some (placeText q) else none

end FileTree

end ModuleBundler
