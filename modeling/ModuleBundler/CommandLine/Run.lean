import ModuleBundler.CommandLine.Options
import ModuleBundler.Project.Bundling

/-!
# Running the program

`run` is the program from its arguments to its exit code, on a host: it loads the configuration,
puts the options on top, and bundles to a file or to the standard output.

The exit code is 0 after success, 1 after a failure, and 2 if the arguments cannot be read.
-/

namespace ModuleBundler.CommandLine

/-! ## Texts -/

def versionText : String := "packlet 0.1.0\n"

def usageText : String := "Usage: packlet [OPTIONS]\n"

def optionTexts : List (String × String) :=
  [("-e, --entry <ENTRY>", "Entry module, relative to the project root"),
    ("    --root <ROOT>",
      "Project root that module ids are relative to (defaults to the current directory)"),
    ("    --output-path <OUTPUT_PATH>", "Directory the bundle is written to"),
    ("    --filename <FILENAME>", "File name of the bundle inside the output directory"),
    ("    --target <TARGET>", "Lower newer syntax to this target, e.g. es2015 or chrome80"),
    ("    --stdout", "Print the bundle to stdout instead of writing it"),
    ("-v, --verbose...", "Increase verbosity (can be repeated: -v, -vv, -vvv)"),
    ("-c, --config <CONFIG>", "Configuration file path"),
    ("-h, --help", "Print help"),
    ("-V, --version", "Print version")]

/-- A text with blanks behind it up to a width. -/
def padded (width : Nat) (text : String) : String :=
  text ++ String.ofList (List.replicate (width - text.length) ' ')

/-- The line of an option; the meanings of all options begin in one column. -/
def optionLine (option : String × String) : String :=
  let width := (optionTexts.map fun o => o.1.length).foldl max 0
  "  " ++ padded width option.1 ++ "  " ++ option.2 ++ "\n"

def helpText : String :=
  "JavaScript module bundler that produces a single self-contained script from an ES module graph\n"
    ++ "\n" ++ usageText ++ "\nOptions:\n" ++ String.join (optionTexts.map optionLine)

def usageReport (fault : UsageFault) : String :=
  s!"error: {fault.message}\n\n{usageText}\nFor more information, try '--help'.\n"

/-! ## Runs -/

/-- How a run of the program ends. -/
structure Ending where
  exitCode : Nat
  stdout : String
  stderr : String
  warnings : List String
  /-- All files afterwards. -/
  files : FileTree

/-- An ending with a text on the standard output. -/
def Ending.shows (h : Host) (text : String) : Ending := ⟨0, text, "", [], h.files⟩

def Ending.failed (h : Host) (warnings : List String) (f : Failure) : Ending :=
  ⟨1, "", f.report, warnings, h.files⟩

/-- The configuration of a host with options on top. -/
def Options.config (h : Host) (o : Options) : Except Failure Config := do
  let loaded ← Config.load h (o.get? .config)
  (o.overrides.applyTo loaded).checked

/-- Bundles as the options say. -/
def Options.run (h : Host) (o : Options) : Ending :=
  match o.config h with
  | .error f => .failed h [] f
  | .ok c =>
    if o.stdout then
      let r := c.bundle h
      match r.result with
      | .ok b => ⟨0, b.code, "", r.warnings, h.files⟩
      | .error f => .failed h r.warnings f
    else
      let r := c.bundleToFile h
      match r.result with
      | .ok written => ⟨0, "", "", r.warnings, written.files⟩
      | .error f => .failed h r.warnings f

/-- The program on a host. -/
def run (h : Host) (arguments : List String) : Ending :=
  match Request.ofArguments arguments with
  | .error fault => ⟨2, "", usageReport fault, [], h.files⟩
  | .ok .help => .shows h helpText
  | .ok .version => .shows h versionText
  | .ok (.bundle o) => o.run h

end ModuleBundler.CommandLine
