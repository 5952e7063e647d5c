import ModuleBundler.Build.Resolver
import ModuleBundler.Files.Path
import ModuleBundler.Target.Basic

/-!
# Configurations

A `Config` says what to bundle and where to write the bundle.  Layers of configuration are put on
top of each other with `Config.over`: what a layer sets wins over what is below it.  A field that
always has a value counts as set when it differs from its default.

`Config.check` finds the first thing in a configuration that cannot be used.
-/

namespace ModuleBundler

open ModuleBundler.Files ModuleBundler.Text

/-! ## Configurations -/

/-- Where the bundle is written. -/
structure Output where
  /-- The directory. -/
  path : String
  /-- The name of the bundle in it. -/
  filename : String
deriving DecidableEq

/-- What to bundle, and where to write it. -/
structure Config where
  /-- The module to start from; a relative path is seen from the root. -/
  entry : Option String
  /-- The directory that module ids are relative to; the current directory when absent. -/
  root : Option String
  output : Output
  /-- The extensions to try, in order. -/
  extensions : List String
  /-- The syntax to write; syntax stays as it is when absent. -/
  target : Option String
deriving DecidableEq

def Output.default : Output := ⟨"dist", "main.js"⟩

def Config.default : Config := ⟨none, none, .default, defaultExtensions, none⟩

def Config.over (upper lower : Config) : Config where
  entry := upper.entry.or lower.entry
  root := upper.root.or lower.root
  output :=
    { path :=
        if samePath upper.output.path Output.default.path then lower.output.path
        else upper.output.path
      filename :=
        if upper.output.filename = Output.default.filename then lower.output.filename
        else upper.output.filename }
  extensions := if upper.extensions = defaultExtensions then lower.extensions else upper.extensions
  target := upper.target.or lower.target

def Config.outputFile (c : Config) : String := joinPath c.output.path c.output.filename

/-! ## Checks -/

/-- Why a configuration cannot be used. -/
inductive ConfigFlaw where
  | filename (name : String)
  | noExtensions
  | extension (text : String)
  | target (text : String) (flaw : Target.Flaw)
deriving DecidableEq

def ConfigFlaw.message : ConfigFlaw → String
  | .filename name => s!"output.filename must be a plain file name, got {shown name}"
  | .noExtensions => "extensions must not be empty"
  | .extension text => s!"invalid extension {shown text}: extensions must look like \".js\""
  | .target text flaw => Target.unsupportedMessage text flaw

/-- Whether a text can be the name of a file. -/
def isPlainName (name : String) : Bool :=
  name != "" && name != "." && name != ".." && !name.toList.any fun c => c == '/' || c == '\\'

/-- Whether a text can be an extension. -/
def isExtension (text : String) : Bool :=
  match text.toList with
  | '.' :: rest => !rest.isEmpty && !rest.contains '/'
  | _ => false

/-- The first flaw of a configuration. -/
def Config.check (c : Config) : Option ConfigFlaw :=
  if !isPlainName c.output.filename then some (.filename c.output.filename)
  else if c.extensions.isEmpty then some .noExtensions
  else
    match c.extensions.find? fun e => !isExtension e with
    | some e => some (.extension e)
    | none =>
      match c.target with
      | none => none
      | some text =>
        match Target.read text with
        | .ok _ => none
        | .error flaw => some (.target text flaw)

end ModuleBundler
