import ModuleBundler.CommandLine.Run

/-!
# Which source of settings wins

The settings of a configuration come from six sources: three configuration files, the environment,
a file that the options name, and the options themselves.  Each gives some settings and says nothing
about the others (`SettingSources`).  A configuration follows a list of sources when each of its
fields is as the first of them says that says something about it (`Config.Follows`).

A configuration file cannot say that an output path, a file name or a list of extensions is the
default: on top of what is below it, such a setting counts as none (`Overrides.withoutDefaults`).

* `Config.ofDocument_eq` — reading a document is replacing the settings that it gives in the
  defaults;
* `Config.over_applyTo` — a file on top of a configuration replaces the settings that count;
* `Config.Follows.applyTo` — replacing settings puts their source in front;
* **`CommandLine.Options.config_follows`** — so a configuration that is loaded follows its sources
  from the options down to the defaults.
-/

namespace ModuleBundler

open ModuleBundler.Files ModuleBundler.Text ModuleBundler.Toml

/-! ## The settings in a document -/

/-- A text that may be missing, and is not null. -/
def givenText : Option Document → Option (Option String)
  | none => some none
  | some (.text s) => some (some s)
  | some _ => none

/-- Texts that may be missing. -/
def givenTexts : Option Document → Option (Option (List String))
  | none => some none
  | some (.list items) => (items.mapM textOf).map some
  | some _ => none

/-- The output path and the file name that a document gives. -/
def Output.given (longLists : Bool) (d : Document) : Option (Option String × Option String) := do
  match ← fieldsOf longLists ["path", "filename"] d with
  | [path, filename] => return (← givenText path, ← givenText filename)
  | _ => none

/-- The settings that a document gives. -/
def Overrides.ofDocument (longLists : Bool) (d : Document) : Option Overrides := do
  match ← fieldsOf longLists ["entry", "root", "output", "extensions", "target"] d with
  | [entry, root, output, extensions, target] =>
    let entry ← optionalText entry
    let root ← optionalText root
    let (path, filename) ← match output with
      | .none => some (.none, .none)
      | .some o => Output.given longLists o
    return ⟨entry, root, path, filename, ← givenTexts extensions, ← optionalText target⟩
  | _ => .none

theorem textOr_eq (default : String) (d : Option Document) :
    textOr default d = (givenText d).map (·.getD default) := by
  rcases d with _ | d
  · rfl
  · cases d <;> rfl

theorem textsOr_eq (default : List String) (d : Option Document) :
    textsOr default d = (givenTexts d).map (·.getD default) := by
  rcases d with _ | d
  · rfl
  · cases d with
    | list items =>
      show items.mapM textOf = ((items.mapM textOf).map some).map (·.getD default)
      cases items.mapM textOf <;> rfl
    | _ => rfl

theorem Output.ofDocument_eq (longLists : Bool) (d : Document) :
    Output.ofDocument longLists d = (Output.given longLists d).map fun g =>
      ⟨g.1.getD Output.default.path, g.2.getD Output.default.filename⟩ := by
  unfold Output.ofDocument Output.given
  cases fieldsOf longLists ["path", "filename"] d with
  | none => rfl
  | some fields =>
    match fields with
    | [path, filename] =>
      simp only [Option.bind_eq_bind, Option.bind_some, textOr_eq]
      cases givenText path <;> cases givenText filename <;> rfl
    | [] | [_] | _ :: _ :: _ :: _ => rfl

/-- Reading a document replaces the settings that it gives in the defaults. -/
theorem Config.ofDocument_eq (longLists : Bool) (d : Document) :
    Config.ofDocument longLists d =
      (Overrides.ofDocument longLists d).map (·.applyTo Config.default) := by
  unfold Config.ofDocument Overrides.ofDocument
  cases fieldsOf longLists ["entry", "root", "output", "extensions", "target"] d with
  | none => rfl
  | some fields =>
    match fields with
    | [entry, root, output, extensions, target] =>
      simp only [Option.bind_eq_bind, Option.bind_some, textsOr_eq]
      cases optionalText entry <;> cases optionalText root <;> cases givenTexts extensions <;>
        cases optionalText target <;> cases output with
        | none => simp [Overrides.applyTo, Config.default]
        | some o =>
          simp only [Output.ofDocument_eq]
          cases Output.given longLists o <;> simp [Overrides.applyTo, Config.default]
    | [] | [_] | [_, _] | [_, _, _] | [_, _, _, _] | _ :: _ :: _ :: _ :: _ :: _ :: _ => rfl

/-! ## Settings that count -/

/-- The settings of a file without those that only repeat a default. -/
def Overrides.withoutDefaults (o : Overrides) : Overrides :=
  { o with
    outputPath := o.outputPath.filter fun path => !samePath path Output.default.path
    outputFilename := o.outputFilename.filter fun name => !decide (name = Output.default.filename)
    extensions := o.extensions.filter fun list => !decide (list = defaultExtensions) }

/-- A value that may be missing, where the default counts as missing. -/
theorem getD_filter {α : Type} (isDefault : α → Bool) {default : α}
    (hdefault : isDefault default = true) (given : Option α) (lower : α) :
    (given.filter fun a => !isDefault a).getD lower =
      if isDefault (given.getD default) then lower else given.getD default := by
  cases given with
  | none => simp [hdefault]
  | some a => cases h : isDefault a <;> simp [Option.filter, h]

theorem samePath_self (path : String) : samePath path path = true := beq_self_eq_true _

/-- A file on top of a configuration replaces the settings that count. -/
theorem Config.over_applyTo (o : Overrides) (lower : Config) :
    (o.applyTo Config.default).over lower = o.withoutDefaults.applyTo lower := by
  have hpath := getD_filter (fun path => samePath path Output.default.path)
    (samePath_self Output.default.path) o.outputPath lower.output.path
  have hname := getD_filter (fun name => decide (name = Output.default.filename))
    (decide_eq_true rfl) o.outputFilename lower.output.filename
  have hlist := getD_filter (fun list => decide (list = defaultExtensions))
    (decide_eq_true rfl) o.extensions lower.extensions
  unfold Config.over Overrides.withoutDefaults Overrides.applyTo
  simp only [hpath, hname, hlist, Config.default, Option.or_none, decide_eq_true_eq]
  congr

/-! ## Following sources -/

/-- Every field of a configuration is as the first of some sources says that says something about
it, and the default where none does. -/
structure Config.Follows (c : Config) (sources : List Overrides) : Prop where
  entry_eq : c.entry = sources.findSome? (·.entry)
  root_eq : c.root = sources.findSome? (·.root)
  path_eq : c.output.path = (sources.findSome? (·.outputPath)).getD Output.default.path
  filename_eq :
    c.output.filename = (sources.findSome? (·.outputFilename)).getD Output.default.filename
  extensions_eq : c.extensions = (sources.findSome? (·.extensions)).getD defaultExtensions
  target_eq : c.target = sources.findSome? (·.target)

theorem Config.default_follows : Config.default.Follows [] := ⟨rfl, rfl, rfl, rfl, rfl, rfl⟩

/-- The first of some sources that says something, when one more is asked before them. -/
theorem findSome?_cons_or {α β : Type} (f : α → Option β) (a : α) (rest : List α) :
    (a :: rest).findSome? f = (f a).or (rest.findSome? f) := by
  rw [List.findSome?_cons]
  cases f a <;> rfl

/-- Replacing settings puts their source in front. -/
theorem Config.Follows.applyTo {c : Config} {sources : List Overrides} (h : c.Follows sources)
    (o : Overrides) : (o.applyTo c).Follows (o :: sources) := by
  have hgetD : ∀ {α : Type} (given below : Option α) (default : α),
      given.getD (below.getD default) = (given.or below).getD default := by
    intro α given below default
    cases given <;> rfl
  constructor <;> rw [findSome?_cons_or]
  · exact congrArg o.entry.or h.entry_eq
  · exact congrArg o.root.or h.root_eq
  · exact (congrArg o.outputPath.getD h.path_eq).trans (hgetD _ _ _)
  · exact (congrArg o.outputFilename.getD h.filename_eq).trans (hgetD _ _ _)
  · exact (congrArg o.extensions.getD h.extensions_eq).trans (hgetD _ _ _)
  · exact congrArg o.target.or h.target_eq

/-! ## Sources -/

/-- What each source of settings says. -/
structure SettingSources where
  system : Overrides
  user : Overrides
  project : Overrides
  environment : Overrides
  /-- What the file says that the options name. -/
  named : Overrides
  options : Overrides
deriving DecidableEq

/-- The sources, the highest first. -/
def SettingSources.ranked (s : SettingSources) : List Overrides :=
  [s.options, s.named, s.environment, s.project, s.user, s.system]

/-- The sources, with what counts of the files. -/
def SettingSources.counted (s : SettingSources) : SettingSources where
  system := s.system.withoutDefaults
  user := s.user.withoutDefaults
  project := s.project.withoutDefaults
  environment := s.environment
  named := s.named.withoutDefaults
  options := s.options

/-- The settings in a configuration file. -/
def Host.settingsIn (h : Host) (path : String) : Option Overrides :=
  match h.files.readText h.cwd path with
  | .error _ => none
  | .ok text => (Document.parse text).bind (Overrides.ofDocument true)

/-- The settings in the file of a layer. -/
def Host.settingsOf (h : Host) (l : Layer) : Option Overrides :=
  match l.locate h with
  | none => some .none
  | some path => h.settingsIn path

/-- The settings in a file that may be named. -/
def Host.settingsNamed (h : Host) (givenFile : Option String) : Option Overrides :=
  match givenFile with
  | none => some .none
  | some path => h.settingsIn path

/-- What each source says for a program that is started with some options. -/
def CommandLine.Options.sources (h : Host) (o : Options) : Option SettingSources := do
  return {
    system := ← h.settingsOf .system
    user := ← h.settingsOf .user
    project := ← h.settingsOf .project
    environment := h.environment.overrides
    named := ← h.settingsNamed (o.get? .config)
    options := o.overrides }

variable {h : Host} {c lower : Config}

theorem duringActivity_eq_ok {α : Type} {a : Activity} {r : Except Failure α} {x : α}
    (hr : duringActivity a r = .ok x) : r = .ok x := by
  cases r with
  | error f => cases hr
  | ok y => exact hr

theorem Config.checked_eq_ok (hc : c.checked = .ok lower) : c = lower := by
  unfold checked at hc
  split at hc
  · cases hc
  · exact Except.ok.inj hc

/-- A configuration file is the settings in it, and defaults for the rest. -/
theorem Config.exists_settingsIn {path : String} (hc : Config.ofFile h path = .ok c) :
    ∃ s, h.settingsIn path = some s ∧ s.applyTo Config.default = c := by
  unfold ofFile at hc
  unfold Host.settingsIn
  cases htext : h.files.readText h.cwd path with
  | error fault =>
    rw [htext] at hc
    cases hc
  | ok text =>
    rw [htext] at hc
    dsimp only at hc ⊢
    cases hread : (Document.parse text).bind (Config.ofDocument true) with
    | none =>
      rw [hread] at hc
      cases hc
    | some read =>
      rw [hread] at hc
      obtain ⟨d, hd, hconfig⟩ := Option.bind_eq_some_iff.1 hread
      rw [Config.ofDocument_eq, Option.map_eq_some_iff] at hconfig
      obtain ⟨s, hs, hsame⟩ := hconfig
      refine ⟨s, Option.bind_eq_some_iff.2 ⟨d, hd, hs⟩, ?_⟩
      rw [hsame]
      exact checked_eq_ok (duringActivity_eq_ok hc)

/-- A computation that succeeds has a first step that does. -/
theorem exists_of_bind_eq_ok {α β : Type} {first : Except Failure α}
    {second : α → Except Failure β} {b : β} (hb : first >>= second = .ok b) :
    ∃ a, first = .ok a ∧ second a = .ok b := by
  cases first with
  | error f => cases hb
  | ok a => exact ⟨a, rfl, hb⟩

/-- The settings in the file of a layer replace those below it. -/
theorem Config.exists_settingsOf {l : Layer} (hc : lower.addLayer h l = .ok c) :
    ∃ s, h.settingsOf l = some s ∧ s.withoutDefaults.applyTo lower = c := by
  unfold addLayer at hc
  unfold Host.settingsOf
  cases hlocate : l.locate h with
  | none =>
    rw [hlocate] at hc
    exact ⟨.none, rfl, Except.ok.inj hc⟩
  | some path =>
    rw [hlocate] at hc
    obtain ⟨upper, hupper, hover⟩ := exists_of_bind_eq_ok hc
    obtain ⟨s, hs, hsame⟩ := exists_settingsIn (duringActivity_eq_ok hupper)
    rw [← hsame, Config.over_applyTo] at hover
    exact ⟨s, hs, Except.ok.inj hover⟩

/-- The settings in a file that is named replace those of the environment and of the layers. -/
theorem Config.exists_settingsNamed {givenFile : Option String}
    (hc : Config.load h givenFile = .ok c) :
    ∃ files s, [Layer.system, .user, .project].foldlM (addLayer h) Config.default = .ok files ∧
      h.settingsNamed givenFile = some s ∧
      s.withoutDefaults.applyTo (h.environment.overrides.applyTo files) = c := by
  obtain ⟨files, hfiles, hload⟩ := exists_of_bind_eq_ok hc
  cases givenFile with
  | none =>
    have hsame := checked_eq_ok (duringActivity_eq_ok hload)
    exact ⟨files, .none, hfiles, rfl, hsame⟩
  | some path =>
    obtain ⟨upper, hupper, hload⟩ := exists_of_bind_eq_ok hload
    obtain ⟨s, hs, rfl⟩ := exists_settingsIn (duringActivity_eq_ok hupper)
    have hsame := checked_eq_ok (duringActivity_eq_ok hload)
    rw [Config.over_applyTo] at hsame
    exact ⟨files, s, hfiles, hs, hsame⟩

/-- A configuration that is loaded follows the sources of its settings, from the options down to
the defaults. -/
theorem CommandLine.Options.config_follows (h : Host) (o : Options) (c : Config)
    (hc : o.config h = .ok c) : ∃ s, o.sources h = some s ∧ c.Follows s.counted.ranked := by
  obtain ⟨loaded, hload, hc⟩ := exists_of_bind_eq_ok hc
  obtain ⟨files, named, hfiles, hnamed, rfl⟩ := Config.exists_settingsNamed hload
  -- the three layers of files, from the lowest up
  obtain ⟨_, haddSystem, hfiles⟩ := exists_of_bind_eq_ok hfiles
  obtain ⟨_, haddUser, hfiles⟩ := exists_of_bind_eq_ok hfiles
  obtain ⟨_, haddProject, hfiles⟩ := exists_of_bind_eq_ok hfiles
  cases hfiles
  obtain ⟨system, hsystem, rfl⟩ := Config.exists_settingsOf haddSystem
  obtain ⟨user, huser, rfl⟩ := Config.exists_settingsOf haddUser
  obtain ⟨project, hproject, rfl⟩ := Config.exists_settingsOf haddProject
  refine ⟨⟨system, user, project, h.environment.overrides, named, o.overrides⟩, ?_, ?_⟩
  · unfold sources
    rw [hsystem, huser, hproject, hnamed]
    rfl
  · have hlayers := ((Config.default_follows.applyTo system.withoutDefaults).applyTo
      user.withoutDefaults).applyTo project.withoutDefaults
    have hloaded := (hlayers.applyTo h.environment.overrides).applyTo named.withoutDefaults
    rw [← Config.checked_eq_ok hc]
    exact hloaded.applyTo o.overrides

/-- A user's file names the bundle `app.js`, and the project's file names it by the default. -/
def renamedHost : Host where
  files := ((⟨[]⟩ : FileTree).place ["home", "packlet", "packlet.toml"]
      (.file (some "[output]\nfilename = \"app.js\"\n"))).place ["packlet.toml"]
        (.file (some "entry = \"a.js\"\n[output]\nfilename = \"main.js\"\n"))
  cwd := []
  environment := [("XDG_CONFIG_HOME", "/home"), ("PACKLET_OUTPUT_PATH", "dist")]

/-- What is loaded from it. -/
def renamedConfig : Config := ⟨some "a.js", none, ⟨"dist", "app.js"⟩, defaultExtensions, none⟩

theorem renamedHost_config : CommandLine.Options.none.config renamedHost = .ok renamedConfig := by
  have hloaded : (CommandLine.Options.none.config renamedHost).toOption = some renamedConfig := by
    decide +kernel
  cases hconfig : CommandLine.Options.none.config renamedHost with
  | error f =>
    rw [hconfig] at hloaded
    cases hloaded
  | ok c =>
    rw [hconfig] at hloaded
    cases hloaded
    rfl

/-- What its sources say. -/
def renamedSources : SettingSources where
  system := .none
  user := { Overrides.none with outputFilename := some "app.js" }
  project := { Overrides.none with entry := some "a.js", outputFilename := some "main.js" }
  environment := { Overrides.none with outputPath := some "dist" }
  named := .none
  options := .none

theorem renamedHost_sources :
    CommandLine.Options.none.sources renamedHost = some renamedSources := by
  decide +kernel

theorem renamedHost_follows :
    CommandLine.Options.none.config renamedHost = .ok renamedConfig ∧
      renamedConfig.Follows renamedSources.counted.ranked := by
  obtain ⟨s, hs, hfollows⟩ := CommandLine.Options.config_follows renamedHost .none renamedConfig
    renamedHost_config
  rw [renamedHost_sources, Option.some.injEq] at hs
  rw [hs]
  exact ⟨renamedHost_config, hfollows⟩

/-- A file that repeats a default does not win over the files below it. -/
theorem not_follows_of_repeatedDefault :
    ¬ ∀ (h : Host) (o : CommandLine.Options) (c : Config), o.config h = .ok c →
      ∃ s, o.sources h = some s ∧ c.Follows s.ranked := by
  intro hall
  obtain ⟨s, hs, hfollows⟩ := hall renamedHost .none renamedConfig renamedHost_config
  rw [renamedHost_sources, Option.some.injEq] at hs
  subst hs
  exact absurd hfollows.filename_eq (by decide)

end ModuleBundler
