import ModuleBundler.Text.Slashed

/-!
# File paths

A path is a text.  Its meaning is in its components (`pathComponents`): repeated slashes, a slash
at the end, and single points behind the first part add nothing to them.

`joinPath` puts a path behind another, `parentPath` and `fileName` take the last component away and
give it, and `belowPath` is what is left of a path behind another one.
-/

namespace ModuleBundler.Files

open ModuleBundler.Text

/-- A step of a path. -/
inductive Component where
  | root
  /-- A single point in front of a relative path. -/
  | here
  | up
  | name (text : String)
deriving DecidableEq

def isAbsolute (path : String) : Bool := path.toList.head? == some '/'

/-- The component that a part behind the first stands for. -/
def partComponent (part : String) : Option Component :=
  if part = "" || part = "." then none else if part = ".." then some .up else some (.name part)

/-- What a path begins with, if it adds a component of its own. -/
def firstComponent (path : String) : List Component :=
  if isAbsolute path then [.root]
  else if (slashParts path).head? == some "." then [.here]
  else []

/-- The steps of a path. -/
def pathComponents (path : String) : List Component :=
  firstComponent path ++ (slashParts path).filterMap partComponent

def samePath (a b : String) : Bool := pathComponents a == pathComponents b

/-- A path behind another; an absolute path stands for itself. -/
def joinPath (base path : String) : String :=
  if isAbsolute path then path
  else if base = "" || base.toList.getLast? == some '/' then base ++ path
  else base ++ "/" ++ path

/-- Parts without those at the end that stand for no component. -/
def trimParts (parts : List String) : List String :=
  (parts.reverse.dropWhile fun part => (partComponent part).isNone).reverse

/-- The text that leads a path, and the parts behind it. -/
def leadAndParts (path : String) : String × List String :=
  if isAbsolute path then ("/", (slashParts path).drop 1)
  else if (slashParts path).head? == some "." then
    (".", match (slashParts path).drop 1 with
      | [] => []
      | parts => "" :: parts)
  else ("", slashParts path)

/-- The path without its last component, if that is a step. -/
def parentPath (path : String) : Option String :=
  let (lead, parts) := leadAndParts path
  match trimParts parts with
  | [] => if lead = "." then some "" else none
  | kept => some (lead ++ "/".intercalate (trimParts kept.dropLast))

def fileName (path : String) : Option String :=
  match (pathComponents path).getLast? with
  | some (.name text) => some text
  | _ => none

/-- The steps of a path that follow those of another. -/
def belowPath (base path : String) : Option (List Component) :=
  let steps := pathComponents path
  let start := pathComponents base
  if start.isPrefixOf steps then some (steps.drop start.length) else none

end ModuleBundler.Files
