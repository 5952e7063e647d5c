import ModuleBundler.Build.Failure
import ModuleBundler.Text.CharClass

/-!
# Resolving specifiers

A specifier is joined to the directory of its importer when it is relative, and read from the root
when it begins with a slash; other specifiers are refused.  The base that this gives names a
module by itself, with one of the extensions behind it, or with one of the extensions behind
`/index`: the first of these that exists is the answer (`candidates`).

A `Resolver` remembers what every base led to, so each base is looked up once.  Every answer comes
with the ids whose existence was asked.
-/

namespace ModuleBundler

open ModuleBundler.Text

/-- The extensions that are tried when none are given. -/
def defaultExtensions : List String := [".js", ".mjs", ".cjs"]

/-- The extensions to try, and what each base looked up so far led to. -/
structure Resolver where
  extensions : List String
  known : List (ModuleId × Option ModuleId)

def Resolver.fresh (extensions : List String) : Resolver := ⟨extensions, []⟩

/-- The ids that a base can mean, the preferred first. -/
def candidates (extensions : List String) (base : ModuleId) : List ModuleId :=
  base :: extensions.map base.withSuffix
    ++ extensions.map (ModuleId.ofPath (base.text ++ "/index")).withSuffix

/-- The first id that exists, and the ids asked until then. -/
def probe (has : ModuleId → Bool) : List ModuleId → Option ModuleId × List ModuleId
  | [] => (none, [])
  | id :: rest =>
    if has id then (some id, [id])
    else
      let later := probe has rest
      (later.1, id :: later.2)

/-- The result of a look-up, the ids whose existence it asked, and the resolver afterwards. -/
structure Answer (α : Type) where
  result : α
  probes : List ModuleId
  resolver : Resolver

/-- The module that a base means. -/
def Resolver.find (r : Resolver) (has : ModuleId → Bool) (base : ModuleId) :
    Answer (Option ModuleId) :=
  match r.known.find? fun entry => entry.1 == base with
  | some (_, found) => ⟨found, [], r⟩
  | none =>
    let (found, probes) := probe has (candidates r.extensions base)
    ⟨found, probes, { r with known := (base, found) :: r.known }⟩

/-- The module that a base means, or the failure to find one. -/
def Resolver.findFor (r : Resolver) (has : ModuleId → Bool) (importer : Importer)
    (specifier : String) (base : ModuleId) : Answer (Except BuildFailure ModuleId) :=
  let a := r.find has base
  match a.result with
  | some id => ⟨.ok id, a.probes, a.resolver⟩
  | none => ⟨.error (.resolution importer specifier (.notFound base)), a.probes, a.resolver⟩

def beginsWith (text beginning : String) : Bool := beginning.toList.isPrefixOf text.toList

/-- Whether a specifier is relative to its importer. -/
def isRelative (specifier : String) : Bool :=
  specifier == "." || specifier == ".." || beginsWith specifier "./" || beginsWith specifier "../"

/-- The base of an imported specifier, or why it has none. -/
def baseOf (importer : ModuleId) (specifier : String) : Except Unresolved ModuleId :=
  if isRelative specifier then .ok (importer.relative specifier)
  else if beginsWith specifier "/" then .ok (ModuleId.ofPath specifier)
  else if specifier = "" then .error .emptySpecifier
  else .error .bareSpecifier

/-- The module that a specifier means in `importer`. -/
def Resolver.resolve (r : Resolver) (has : ModuleId → Bool) (importer : ModuleId)
    (specifier : String) : Answer (Except BuildFailure ModuleId) :=
  match baseOf importer specifier with
  | .ok base => r.findFor has (.module importer) specifier base
  | .error reason => ⟨.error (.resolution (.module importer) specifier reason), [], r⟩

/-- The module that an entry specifier means; it is read from the root, with or without a slash. -/
def Resolver.resolveFromRoot (r : Resolver) (has : ModuleId → Bool) (specifier : String) :
    Answer (Except BuildFailure ModuleId) :=
  if specifier.toList.all isBlank then
    ⟨.error (.resolution .entry specifier .emptyEntry), [], r⟩
  else r.findFor has .entry specifier (ModuleId.ofPath specifier)

end ModuleBundler
