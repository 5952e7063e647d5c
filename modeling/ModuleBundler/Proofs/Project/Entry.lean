import ModuleBundler.Project.Bundling
import ModuleBundler.Proofs.Build.Lookup
import ModuleBundler.Proofs.Project.Confinement

/-!
# An entry named in two ways

A relative entry is written as a specifier, part by part; an absolute one is cut off behind the root and
read as an id.  Both come to the same base, so it is no matter in which way a project names its entry.

* `ModuleId.ofPath_pathSpecifier` — a path and the specifier made of it are read as one id;
* `ProjectDirectory.entryId_joinPath` — so is the path behind the root;
* `Resolver.resolveFromRoot_agree` and `SameEntry.buildWith_iff` — specifiers with one base select the same
  module, and are built into the same graph;
* **`Config.entry_agrees`** — so a relative entry and the same behind the root have one outcome.
-/

namespace ModuleBundler

open ModuleBundler.Text ModuleBundler.Files
open ModuleBundler.ProjectDirectory (nestedProject find_nestedProject)

/-! ## The parts of a specifier -/

/-- Parts that do not move are passed over. -/
theorem followParts_filter (segments parts : List String) :
    followParts segments (parts.filter fun part => part != "" && part != ".") =
      followParts segments parts := by
  unfold followParts
  rw [List.foldl_filter]
  congr 1
  funext segments part
  by_cases hpart : part = "" ∨ part = "."
  · rw [followPart, if_pos hpart, if_neg (by simpa [imp_iff_not_or] using hpart)]
  · rw [if_pos (by simpa [not_or] using hpart)]

theorem slash_not_mem_pathParts (path : String) : ∀ part ∈ pathParts path, '/' ∉ part.toList :=
  fun part hpart => slash_not_mem_slashParts path part (List.mem_filter.1 hpart).1

/-- A path and its specifier lead to the same id. -/
theorem ModuleId.ofPath_pathSpecifier (path : String) :
    ModuleId.ofPath (pathSpecifier path) = ModuleId.ofPath path := by
  refine ModuleId.eq_of_segments_eq ?_
  have hparts : followParts [] (pathParts path) = followParts [] (slashParts path) :=
    followParts_filter [] (slashParts path)
  show followParts [] (slashParts (pathSpecifier path)) = followParts [] (slashParts path)
  unfold pathSpecifier
  by_cases hne : pathParts path = []
  · rw [← hparts, hne]
    rfl
  · rw [slashParts_intercalate (slash_not_mem_pathParts path) hne, hparts]

/-- The steps of a path that never leads up are the names of its specifier. -/
theorem filterMap_slashParts {path : String} (hup : Component.up ∉ pathComponents path) :
    (slashParts path).filterMap partComponent = (pathParts path).map .name := by
  have hparts : ∀ part ∈ slashParts path, part ≠ ".." := by
    rintro part hpart rfl
    exact hup (List.mem_append_right _ (List.mem_filterMap.2 ⟨"..", hpart, rfl⟩))
  unfold pathParts
  generalize slashParts path = parts at hparts
  induction parts with
  | nil => rfl
  | cons part rest ih =>
    obtain ⟨hpart, hrest⟩ := List.forall_mem_cons.1 hparts
    by_cases hstay : part = "" ∨ part = "."
    · have hnone : partComponent part = none := if_pos (by simpa using hstay)
      rw [List.filterMap_cons_none hnone, List.filter_cons_of_neg (by simpa [imp_iff_not_or] using hstay),
        ih hrest]
    · have hname : partComponent part = some (.name part) := by
        unfold partComponent
        rw [if_neg (by simpa using hstay), if_neg hpart]
      rw [List.filterMap_cons_some hname, List.filter_cons_of_pos (by simpa [not_or] using hstay),
        List.map_cons, ih hrest]

/-- The id of a path that is joined to the root is that of the path. -/
theorem ProjectDirectory.entryId_joinPath {d : ProjectDirectory} {path : String} (h : d.Rooted)
    (hpath : isAbsolute path = false) (hup : Component.up ∉ pathComponents path) :
    d.entryId (joinPath d.root path) = some (.ofPath path) := by
  obtain ⟨root, hroot, hd⟩ := h
  have hid : d.idOf (joinPath d.root path) = some (.ofPath path) := by
    unfold idOf
    rw [hd, FileTree.belowPath_joinPath hroot hpath, filterMap_slashParts hup]
    dsimp only
    rw [idOfSteps_map_name]
    exact congrArg some (ModuleId.ofPath_pathSpecifier path)
  unfold entryId
  rw [hid]

theorem ProjectDirectory.Rooted.isAbsolute_joinPath {d : ProjectDirectory} (h : d.Rooted)
    (path : String) :
    isAbsolute (joinPath d.root path) = true := by
  obtain ⟨root, -, hd⟩ := h
  rw [hd]
  exact FileTree.isAbsolute_joinPath (FileTree.isAbsolute_placeText root) path

/-! ## Specifiers with one base -/

/-- Two entry specifiers have one outcome: the same ids are looked for and remembered, and the same module
is selected, or none is found for either at the base. -/
structure SameEntry (resolver : Resolver) (has : ModuleId → Bool) (base : ModuleId)
    (specifier specifier' : String) : Prop where
  probes : (resolver.resolveFromRoot has specifier).probes =
    (resolver.resolveFromRoot has specifier').probes
  memory : (resolver.resolveFromRoot has specifier).resolver =
    (resolver.resolveFromRoot has specifier').resolver
  result :
    (∃ id, (resolver.find has base).result = some id ∧
      (resolver.resolveFromRoot has specifier).result = .ok id ∧
      (resolver.resolveFromRoot has specifier').result = .ok id) ∨
    (resolver.find has base).result = none ∧
      (resolver.resolveFromRoot has specifier).result =
        .error (.resolution .entry specifier (.notFound base)) ∧
      (resolver.resolveFromRoot has specifier').result =
        .error (.resolution .entry specifier' (.notFound base))

section Base

variable {resolver : Resolver} {has : ModuleId → Bool} {base : ModuleId} {specifier specifier' : String}

/-- What an entry selects is what its base leads to. -/
theorem Resolver.resolveFromRoot_of_base (h : (Question.entry specifier).base? = some base) :
    resolver.resolveFromRoot has specifier =
      ⟨(Question.entry specifier).outcome base (resolver.find has base).result,
        (resolver.find has base).probes, (resolver.find has base).resolver⟩ := by
  show resolver.answer has (.entry specifier) = _
  rw [Resolver.answer_of_base h]
  unfold findFor
  dsimp only
  cases (resolver.find has base).result <;> rfl

theorem Resolver.resolveFromRoot_agree (h : (Question.entry specifier).base? = some base)
    (h' : (Question.entry specifier').base? = some base) :
    SameEntry resolver has base specifier specifier' := by
  have hat : resolver.resolveFromRoot has specifier = _ := resolveFromRoot_of_base h
  have hat' : resolver.resolveFromRoot has specifier' = _ := resolveFromRoot_of_base h'
  refine ⟨by rw [hat, hat'], by rw [hat, hat'], ?_⟩
  rw [hat, hat']
  cases (resolver.find has base).result with
  | some id => exact .inl ⟨id, rfl, rfl, rfl⟩
  | none => exact .inr ⟨rfl, rfl, rfl⟩

end Base

/-- Entries with one outcome are built into the same graph, or into none. -/
theorem SameEntry.buildWith_iff {sources : Sources} {transformer : Transformer} {resolver : Resolver}
    {base : ModuleId} {specifier specifier' : String} {g : ModuleGraph}
    (h : SameEntry resolver sources.has base specifier specifier') :
    (buildWith sources transformer resolver specifier).1 = .ok g ↔
      (buildWith sources transformer resolver specifier').1 = .ok g := by
  unfold buildWith
  dsimp only
  rw [h.probes, h.memory]
  obtain ⟨id, -, hid, hid'⟩ | ⟨-, hnone, hnone'⟩ := h.result
  · rw [hid, hid']
  · rw [hnone, hnone']
    exact iff_of_false (fun h => by cases h) (fun h => by cases h)

/-! ## Entries of a project -/

namespace Config

variable {h : Host} {c : Config} {d : ProjectDirectory} {specifier specifier' path : String}
  {g : ModuleGraph}

/-- A relative entry is looked up as its path. -/
theorem entrySpecifier_relative (hpath : isAbsolute path = false) :
    entrySpecifier d { c with entry := some path } = .ok (pathSpecifier path) := by
  unfold entrySpecifier
  dsimp only
  rw [hpath]
  rfl

/-- An absolute entry is looked up as the id of its file. -/
theorem entrySpecifier_absolute {id : ModuleId} (hpath : isAbsolute path = true)
    (hid : d.entryId path = some id) :
    entrySpecifier d { c with entry := some path } = .ok id.text := by
  unfold entrySpecifier
  dsimp only
  rw [hpath, hid]
  rfl

/-- The graph of a configuration is built from the specifier of its entry. -/
theorem buildGraph_ok_iff (hd : c.directory h = .ok d) (hspecifier : c.entrySpecifier d = .ok specifier) :
    c.buildGraph h = .ok g ↔ ∃ transformer, c.transformer = .ok transformer ∧
      (build d.sources transformer c.extensions specifier).1 = .ok g := by
  unfold buildGraph
  rw [hd]
  dsimp only [bind, Except.bind]
  rw [hspecifier]
  dsimp only
  cases c.transformer with
  | error e => exact iff_of_false (fun h => by cases h) (fun ⟨_, h, _⟩ => by cases h)
  | ok transformer =>
    dsimp only
    cases hbuild : (build d.sources transformer c.extensions specifier).1 with
    | error e =>
      refine iff_of_false (fun h => by cases h) ?_
      rintro ⟨_, htransformer, hg⟩
      cases htransformer
      rw [hbuild] at hg
      cases hg
    | ok graph =>
      constructor
      · intro hg
        cases hg
        exact ⟨transformer, rfl, hbuild⟩
      · rintro ⟨_, htransformer, hg⟩
        cases htransformer
        rw [hbuild] at hg
        cases hg
        rfl

/-- Configurations that differ in their entries alone have the same graphs, if their entries have one
outcome whatever is looked for. -/
theorem buildGraph_agree {path' : String} (hd : c.directory h = .ok d)
    (hspecifier : entrySpecifier d { c with entry := some path } = .ok specifier)
    (hspecifier' : entrySpecifier d { c with entry := some path' } = .ok specifier')
    {base : ModuleId}
    (hsame : ∀ resolver has, SameEntry resolver has base specifier specifier') :
    buildGraph h { c with entry := some path } = .ok g ↔
      buildGraph h { c with entry := some path' } = .ok g := by
  rw [buildGraph_ok_iff (c := { c with entry := some path }) hd hspecifier,
    buildGraph_ok_iff (c := { c with entry := some path' }) hd hspecifier']
  exact exists_congr fun _ => and_congr_right fun _ => (hsame _ _).buildWith_iff

/-- A path and the specifier made of it are read as one id.  So a relative path as the entry and the same
path behind the root are looked up at one base, the id of the path.  Whatever there is, with whatever
extensions: the same module is selected for both, or none for either, and what is built is the same. -/
theorem entry_agrees :
    (∀ path, ModuleId.ofPath (pathSpecifier path) = ModuleId.ofPath path) ∧
    ∀ (d : ProjectDirectory) (c : Config) (path : String), d.Rooted →
      isAbsolute path = false → Component.up ∉ pathComponents path →
      (pathSpecifier path).toList.all isBlank = false →
      ∃ specifier specifier',
        entrySpecifier d { c with entry := some path } = .ok specifier ∧
        entrySpecifier d { c with entry := some (joinPath d.root path) } = .ok specifier' ∧
        (Question.entry specifier).base? = some (.ofPath path) ∧
        (Question.entry specifier').base? = some (.ofPath path) ∧
        (∀ resolver has, SameEntry resolver has (.ofPath path) specifier specifier') ∧
        ∀ h g, c.directory h = .ok d →
          (buildGraph h { c with entry := some path } = .ok g ↔
            buildGraph h { c with entry := some (joinPath d.root path) } = .ok g) := by
  refine ⟨ModuleId.ofPath_pathSpecifier, fun d c path hrooted hpath hup hblank => ?_⟩
  have hbase : (Question.entry (pathSpecifier path)).base? = some (.ofPath path) := by
    show (if (pathSpecifier path).toList.all isBlank then none
      else some (ModuleId.ofPath (pathSpecifier path))) = _
    rw [hblank, ModuleId.ofPath_pathSpecifier]
    rfl
  obtain ⟨hbase', -⟩ := Lookup.base?_text (.ofPath path) .root
  have hspecifier := entrySpecifier_relative (d := d) (c := c) hpath
  have hspecifier' := entrySpecifier_absolute (c := c) (hrooted.isAbsolute_joinPath path)
    (ProjectDirectory.entryId_joinPath hrooted hpath hup)
  have hsame : ∀ resolver has, SameEntry resolver has (.ofPath path) _ _ :=
    fun _ _ => Resolver.resolveFromRoot_agree hbase hbase'
  exact ⟨_, _, hspecifier, hspecifier', hbase, hbase', hsame,
    fun h g hd => buildGraph_agree hd hspecifier hspecifier' hsame⟩

/-- The index of a directory, named by the directory in a spelling with a point and repeated slashes. -/
theorem nestedProject_entry :
    nestedProject.Rooted ∧ isAbsolute "./lib//" = false ∧ Component.up ∉ pathComponents "./lib//" ∧
      (pathSpecifier "./lib//").toList.all isBlank = false ∧
      joinPath nestedProject.root "./lib//" = "/srv/app/./lib//" ∧
      entrySpecifier nestedProject { Config.default with entry := some "./lib//" } = .ok "lib" ∧
      entrySpecifier nestedProject { Config.default with entry := some "/srv/app/./lib//" } =
        .ok "/lib" ∧
      SameEntry (.fresh defaultExtensions) nestedProject.sources.has (.ofPath "./lib//") "lib" "/lib" ∧
      ((Resolver.fresh defaultExtensions).find nestedProject.sources.has (.ofPath "./lib//")).result =
        some (.ofPath "/lib/index.js") := by
  have hrooted := ProjectDirectory.rooted_of_find nestedTree_offers.1 find_nestedProject
  have hpath : isAbsolute "./lib//" = false := by decide
  have hup : Component.up ∉ pathComponents "./lib//" := by decide +kernel
  have hblank : (pathSpecifier "./lib//").toList.all isBlank = false := by decide +kernel
  have hjoin : joinPath nestedProject.root "./lib//" = "/srv/app/./lib//" := by decide +kernel
  obtain ⟨-, hentries⟩ := entry_agrees
  obtain ⟨_, _, hspecifier, hspecifier', -, -, hsame, -⟩ :=
    hentries nestedProject Config.default "./lib//" hrooted hpath hup hblank
  have hlib : entrySpecifier nestedProject { Config.default with entry := some "./lib//" } =
      .ok "lib" := by rfl
  have hlib' : entrySpecifier nestedProject { Config.default with entry := some "/srv/app/./lib//" } =
      .ok "/lib" := by rfl
  rw [hjoin] at hspecifier'
  cases hspecifier.symm.trans hlib
  cases hspecifier'.symm.trans hlib'
  exact ⟨hrooted, hpath, hup, hblank, hjoin, hlib, hlib', hsame _ _, by decide +kernel⟩

end Config

end ModuleBundler
