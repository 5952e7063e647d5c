import ModuleBundler.Config.Overrides
import ModuleBundler.Text.Split

/-!
# Options of the command line

`Request.ofArguments` reads the arguments: what to bundle and how, or else a question about the
program itself.  An option can stand as a letter behind one hyphen, together with others, or as a
word behind two; its value is the next argument, or stands behind an equals sign, or directly
behind the letter.  Each setting can be given once.
-/

namespace ModuleBundler.CommandLine

open ModuleBundler.Text

/-! ## Options -/

/-- An option with a value. -/
inductive Setting where
  | entry | root | outputPath | filename | target | config
deriving DecidableEq

inductive Switch where
  | stdout | verbose | help | version
deriving DecidableEq

inductive Opt where
  | setting (s : Setting)
  | switch (s : Switch)
deriving DecidableEq

def optionWords : List (String × Opt) :=
  [("entry", .setting .entry), ("root", .setting .root), ("output-path", .setting .outputPath),
    ("filename", .setting .filename), ("target", .setting .target), ("config", .setting .config),
    ("stdout", .switch .stdout), ("verbose", .switch .verbose), ("help", .switch .help),
    ("version", .switch .version)]

/-- The letters of the options that have one. -/
def optionLetters : List (Char × Opt) :=
  [('e', .setting .entry), ('c', .setting .config), ('v', .switch .verbose), ('h', .switch .help),
    ('V', .switch .version)]

def optionOfWord (word : String) : Option Opt :=
  (optionWords.find? fun entry => entry.1 == word).map (·.2)

def optionOfLetter (letter : Char) : Option Opt :=
  (optionLetters.find? fun entry => entry.1 == letter).map (·.2)

/-- Whether the value of a setting is a path, which cannot be empty. -/
def Setting.isPath : Setting → Bool
  | .filename | .target => false
  | _ => true

def Setting.word : Setting → String
  | .entry => "entry"
  | .root => "root"
  | .outputPath => "output-path"
  | .filename => "filename"
  | .target => "target"
  | .config => "config"

/-! ## Requests -/

/-- Why arguments cannot be read. -/
inductive UsageFault where
  | unexpected (argument : String)
  | valueMissing (setting : Setting)
  | valueEmpty (setting : Setting)
  | repeated (word : String)
  | conflict (setting : Setting)
deriving DecidableEq

def UsageFault.message : UsageFault → String
  | .unexpected argument => s!"unexpected argument '{argument}' found"
  | .valueMissing s => s!"a value is required for '--{s.word}' but none was supplied"
  | .valueEmpty s => s!"a value is required for '--{s.word}' but none was supplied"
  | .repeated word => s!"the argument '--{word}' cannot be used multiple times"
  | .conflict s => s!"the argument '--{s.word}' cannot be used with '--stdout'"

/-- What the arguments say about bundling. -/
structure Options where
  settings : List (Setting × String)
  stdout : Bool
  /-- How often more messages were asked for. -/
  verbosity : Nat
deriving DecidableEq

def Options.none : Options := ⟨[], false, 0⟩

def Options.get? (o : Options) (s : Setting) : Option String :=
  (o.settings.find? fun entry => entry.1 == s).map (·.2)

/-- The settings that replace those of the configuration. -/
def Options.overrides (o : Options) : Overrides where
  entry := o.get? .entry
  root := o.get? .root
  outputPath := o.get? .outputPath
  outputFilename := o.get? .filename
  extensions := .none
  target := o.get? .target

/-- What the program is asked to do. -/
inductive Request where
  | help
  | version
  | bundle (options : Options)
deriving DecidableEq

/-! ## Reading -/

/-- Gives a setting its value. -/
def Options.give (o : Options) (s : Setting) (value : String) : Except UsageFault Options :=
  if (o.get? s).isSome then .error (.repeated s.word)
  else if s.isPath && value == "" then .error (.valueEmpty s)
  else .ok { o with settings := o.settings ++ [(s, value)] }

/-- What reading an argument leads to. -/
inductive Step where
  | next (options : Options)
  /-- The next argument is the value of a setting. -/
  | awaiting (options : Options) (setting : Setting)
  | done (request : Request)

def Options.switch (o : Options) : Switch → Except UsageFault Step
  | .stdout =>
    if o.stdout then .error (.repeated "stdout") else .ok (.next { o with stdout := true })
  | .verbose => .ok (.next { o with verbosity := o.verbosity + 1 })
  | .help => .ok (.done .help)
  | .version => .ok (.done .version)

/-- Reads letters; what stands behind the letter of a setting is its value. -/
def Options.letters (argument : String) (o : Options) : List Char → Except UsageFault Step
  | [] => .ok (.next o)
  | c :: rest =>
    match optionOfLetter c, rest with
    | some (.setting s), [] => .ok (.awaiting o s)
    | some (.setting s), '=' :: value => (o.give s (String.ofList value)).map .next
    | some (.setting s), value => (o.give s (String.ofList value)).map .next
    | some (.switch s), rest => do
      match ← o.switch s with
      | .next o => letters argument o rest
      | step => return step
    | .none, _ => .error (.unexpected argument)

def Options.word (argument : String) (o : Options) (text : List Char) : Except UsageFault Step :=
  let name := String.ofList (text.takeWhile (· != '='))
  let value := (text.dropWhile (· != '=')).tail?
  match optionOfWord name, value with
  | some (.setting s), some value => (o.give s (String.ofList value)).map .next
  | some (.setting s), .none => .ok (.awaiting o s)
  | some (.switch s), .none => o.switch s
  | _, _ => .error (.unexpected argument)

/-- Reads one argument that is no value of another. -/
def Options.argument (o : Options) (argument : String) : Except UsageFault Step :=
  match argument.toList with
  | '-' :: '-' :: text => o.word argument text
  | '-' :: c :: rest => o.letters argument (c :: rest)
  | _ => .error (.unexpected argument)

/-- Whether an argument stands for an option and so is no value. -/
def looksLikeOption (argument : String) : Bool :=
  match argument.toList with
  | '-' :: _ :: _ => true
  | _ => false

/-- The request of options that were read to the end. -/
def Options.finish (o : Options) : Except UsageFault Request :=
  match [Setting.outputPath, .filename].find? fun s => o.stdout && (o.get? s).isSome with
  | some s => .error (.conflict s)
  | .none => .ok (.bundle o)

/-- Reads arguments behind those that gave `o`.  Two hyphens end the options, and nothing else may
follow. -/
def Options.read (o : Options) : List String → Except UsageFault Request
  | [] => o.finish
  | ["--"] => o.finish
  | "--" :: argument :: _ => .error (.unexpected argument)
  | argument :: rest => do
    match ← o.argument argument, rest with
    | .next o, rest => read o rest
    | .done request, _ => return request
    | .awaiting _ s, [] => throw (.valueMissing s)
    | .awaiting o s, value :: rest =>
      if looksLikeOption value then throw (.valueMissing s)
      read (← o.give s value) rest

/-- Reads the arguments of the command line. -/
def Request.ofArguments (arguments : List String) : Except UsageFault Request :=
  Options.none.read arguments

end ModuleBundler.CommandLine
