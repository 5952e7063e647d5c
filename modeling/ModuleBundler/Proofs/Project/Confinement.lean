import ModuleBundler.Proofs.Files.Canonical
import ModuleBundler.Proofs.Project.Directory

/-!
# Modules are below the project directory

An id has proper segments however many steps up a specifier takes, so the path of a module leads down from
the root of the project, as its text stands.  Nothing else is asked of the files, and the way from ids to
paths can be taken back.

* `ProjectDirectory.Rooted` and `ProjectDirectory.rooted_of_find` — the root is a canonical path;
* `LeadsDown` — what a path below a root looks like, and `ProjectDirectory.leadsDown_pathOf`;
* `ProjectDirectory.idOf_pathOf` — the id of the path of a module is the id of the module;
* **`ProjectDirectory.pathOf_confined`** — so no look-up and no build leaves the root, and it is no matter what
  stands outside.
-/

namespace ModuleBundler

open ModuleBundler.Text ModuleBundler.Files

/-- A path leads down from a root, as its text stands: it is the root, or the root with proper segments
behind it and a slash in front of each.  (The root of all paths is nothing but a slash, which then counts
as the first of these.) -/
def LeadsDown (root path : String) : Prop :=
  path = root ∨ ∃ names ≠ [], (∀ s ∈ names, IsSegment s) ∧
    path = (if root = "/" then "" else root) ++ String.join (names.map ("/" ++ ·))

namespace FileTree

variable {root names : Place}

theorem placeText_eq_slash_iff (hroot : ∀ s ∈ root, IsSegment s) : placeText root = "/" ↔ root = [] := by
  constructor
  · intro h
    by_contra hne
    have hparts := slashParts_placeText hroot hne
    rw [h] at hparts
    -- the parts of a slash are empty
    obtain rfl : [""] = root := (List.cons.inj hparts).2
    exact (hroot "" (List.mem_singleton_self _)).1 rfl
  · rintro rfl
    rfl

/-- The text of a place below another one leads down from it. -/
theorem leadsDown_placeText (hroot : ∀ s ∈ root, IsSegment s) (hnames : ∀ s ∈ names, IsSegment s) :
    LeadsDown (placeText root) (placeText (root ++ names)) := by
  by_cases hne : names = []
  · exact .inl (by rw [hne, List.append_nil])
  · refine .inr ⟨names, hne, hnames, ?_⟩
    simp only [placeText_eq_slash_iff hroot]
    by_cases hroot : root = []
    · rw [if_pos hroot, hroot, placeText_eq_render]
      simp [ModuleId.render, hne]
    · rw [if_neg hroot, placeText_eq_render, placeText_eq_render]
      simp [ModuleId.render, hne, hroot]

end FileTree

namespace ProjectDirectory

variable {d : ProjectDirectory} {root : Place}

/-- The root of a project directory is the text of a place, as a canonical path is. -/
def Rooted (d : ProjectDirectory) : Prop :=
  ∃ root : Place, (∀ s ∈ root, IsSegment s) ∧ d.root = FileTree.placeText root

/-- A project directory that was found in a file tree is rooted. -/
theorem rooted_of_find {files : FileTree} {cwd : Place} {path : String} (hfiles : files.Sound)
    (h : find files cwd path = .ok d) : d.Rooted := by
  unfold find at h
  split at h
  · rename_i canonical hcanonical
    cases h
    obtain ⟨root, hroot, hnames⟩ := FileTree.canonicalPath_eq hfiles hcanonical
    exact ⟨root, hnames, hroot⟩
  · cases h

/-- The path of a module is the place of its segments below the root. -/
theorem pathOf_eq_placeText (hroot : ∀ s ∈ root, IsSegment s) (hd : d.root = FileTree.placeText root)
    (id : ModuleId) : d.pathOf id = FileTree.placeText (root ++ id.segments) := by
  unfold pathOf
  rw [hd]
  exact foldl_joinPath hroot id.proper

theorem leadsDown_pathOf (h : d.Rooted) (id : ModuleId) : LeadsDown d.root (d.pathOf id) := by
  obtain ⟨root, hroot, hd⟩ := h
  rw [pathOf_eq_placeText hroot hd, hd]
  exact FileTree.leadsDown_placeText hroot id.proper

theorem stepNames_map_name (names : List String) : stepNames (names.map .name) = some names := by
  induction names with
  | nil => rfl
  | cons name rest ih =>
    rw [List.map_cons, stepNames, ih]
    rfl

/-- The id of names is that of the path which they make. -/
theorem idOfSteps_map_name (names : List String) :
    idOfSteps (names.map .name) = some (.ofPath ("/".intercalate names)) := by
  unfold idOfSteps
  rw [stepNames_map_name]
  rfl

/-- A path is taken back to the module that it is the path of. -/
theorem idOf_pathOf (h : d.Rooted) (id : ModuleId) : d.idOf (d.pathOf id) = some id := by
  obtain ⟨root, hroot, hd⟩ := h
  unfold idOf
  rw [pathOf_eq_placeText hroot hd, hd, FileTree.belowPath_placeText hroot id.proper]
  dsimp only
  rw [idOfSteps_map_name]
  exact congrArg some (ModuleId.eq_of_segments_eq (FileTree.segments_ofPath_intercalate id.proper))

/-- Different modules have different paths. -/
theorem pathOf_injective (h : d.Rooted) : Function.Injective d.pathOf := by
  intro a b hab
  have hid := idOf_pathOf h a
  rw [hab, idOf_pathOf h b] at hid
  exact (Option.some.inj hid).symm

/-- What stands outside of the root cannot be seen: the modules are the same in another file tree in which
the paths that lead down from the root lead to the same files. -/
theorem sources_eq_of_below {d' : ProjectDirectory} (h : d.Rooted) (hroot : d'.root = d.root)
    (hfiles : ∀ path, LeadsDown d.root path →
      d'.files.isFile d'.cwd path = d.files.isFile d.cwd path ∧
      d'.files.readText d'.cwd path = d.files.readText d.cwd path) :
    d'.sources.has = d.sources.has ∧ d'.sources.load = d.sources.load := by
  have hpath : ∀ id, d'.pathOf id = d.pathOf id := fun id => by
    unfold pathOf
    rw [hroot]
  refine ⟨funext fun id => ?_, funext fun id => ?_⟩
  · show d'.files.isFile d'.cwd (d'.pathOf id) = d.files.isFile d.cwd (d.pathOf id)
    rw [hpath, (hfiles _ (leadsDown_pathOf h id)).1]
  · show (d'.files.readText d'.cwd (d'.pathOf id)).mapError (BuildFailure.file (d'.pathOf id)) =
      (d.files.readText d.cwd (d.pathOf id)).mapError (BuildFailure.file (d.pathOf id))
    rw [hpath, (hfiles _ (leadsDown_pathOf h id)).2]

/-- Whatever a module or an entry asks for, all files that are looked for or read have paths that lead
down from the root; so the answers are the same whatever stands outside.  Paths and ids correspond: the
path of a module is taken back to its id, and no two modules have one path. -/
theorem pathOf_confined (h : d.Rooted) :
    (∀ (resolver : Resolver) (importer : ModuleId) (specifier : String),
      ∀ id ∈ (resolver.resolve d.sources.has importer specifier).probes,
        LeadsDown d.root (d.pathOf id)) ∧
    (∀ (transformer : Transformer) (resolver : Resolver) (entrySpecifier : String),
      let run := (buildWith d.sources transformer resolver entrySpecifier).2
      ∀ id ∈ run.probes ++ run.loads, LeadsDown d.root (d.pathOf id)) ∧
    (∀ d' : ProjectDirectory, d'.root = d.root →
      (∀ path, LeadsDown d.root path →
        d'.files.isFile d'.cwd path = d.files.isFile d.cwd path ∧
        d'.files.readText d'.cwd path = d.files.readText d.cwd path) →
      d'.sources.has = d.sources.has ∧ d'.sources.load = d.sources.load) ∧
    (∀ id, d.idOf (d.pathOf id) = some id) ∧ Function.Injective d.pathOf :=
  ⟨fun _ _ _ id _ => leadsDown_pathOf h id, fun _ _ _ id _ => leadsDown_pathOf h id,
    fun _ => sources_eq_of_below h, idOf_pathOf h, pathOf_injective h⟩

/-- The project in one directory of the nested files. -/
def nestedProject : ProjectDirectory := ⟨nestedTree, ["srv"], "/srv/app"⟩

theorem find_nestedProject : find nestedTree ["srv"] "app" = .ok nestedProject := by
  have hcanonical : nestedTree.canonicalPath ["srv"] "app" = .ok "/srv/app" := by decide +kernel
  unfold find
  rw [hcanonical]
  rfl

/-- What is looked for when a module in a directory asks for a file far above the root. -/
def askedFarUp : List ModuleId :=
  ((Resolver.fresh [".js"]).resolve nestedProject.sources.has (.ofPath "/lib/index.js")
    "../../../etc/passwd").probes

theorem nestedProject_confined :
    nestedProject.Rooted ∧
      askedFarUp.map nestedProject.pathOf =
        ["/srv/app/etc/passwd", "/srv/app/etc/passwd.js", "/srv/app/etc/passwd/index.js"] ∧
      (∀ id ∈ askedFarUp, LeadsDown nestedProject.root (nestedProject.pathOf id)) ∧
      nestedProject.pathOf (.ofPath "/lib/index.js") = "/srv/app/lib/index.js" ∧
      nestedProject.idOf (nestedProject.pathOf (.ofPath "/lib/index.js")) =
        some (.ofPath "/lib/index.js") := by
  have hrooted := rooted_of_find nestedTree_offers.1 find_nestedProject
  obtain ⟨hresolve, -, -, hid, -⟩ := pathOf_confined hrooted
  exact ⟨hrooted, by decide +kernel, hresolve _ _ _, by decide +kernel, hid _⟩

end ProjectDirectory

end ModuleBundler
