import ModuleBundler.Build.Bundle
import ModuleBundler.Project.Directory
import ModuleBundler.Proofs.Build.Footprint
import ModuleBundler.Proofs.Files.Tree

/-!
# A directory of files is as good as the files

Files can be kept in memory under their relative paths (`Sources.ofRelative`), or stand in a
directory (`FileTree.Offers`).  A build finds the same in both:

* `ProjectDirectory.pathOf_eq` — the path of a module below the directory is the text of a place;
* `ProjectDirectory.has_iff` and `ProjectDirectory.load_eq` — what exists there are the files, with
  their texts: no directory, no path below a file, and not the directory itself;
* **`build_offered`** — so a build from the directory ends like the build from memory, and neither
  the graph nor the bundle says where the directory is.
-/

namespace ModuleBundler

open ModuleBundler.Files

/-! ## Files in memory and in a directory -/

/-- Files with their relative paths, kept in memory. -/
def Sources.ofRelative (files : List (Place × String)) : Sources :=
  .ofFiles (files.map fun f => (.ofPath ("/".intercalate f.1), f.2))

/-- The directory `root` holds some files, and below it stands nothing else but directories.  The
system opens no path of 4096 bytes or more, so the paths of the files are shorter. -/
structure FileTree.Holds (t : FileTree) (root : Place) (files : List (Place × String)) : Prop where
  directory : t.entry? root = some .directory
  listed : ∀ below e, t.entry? (root ++ below) = some e →
    e = .directory ∨ ∃ text, e = .file (some text) ∧ (below, text) ∈ files
  present : ∀ f ∈ files, t.entry? (root ++ f.1) = some (.file (some f.2))
  reachable : ∀ f ∈ files, (FileTree.placeText (root ++ f.1)).utf8ByteSize < 4096

/-- In a file tree, a path leads to a directory that holds some files. -/
def FileTree.Offers (t : FileTree) (cwd : Place) (path : String) (files : List (Place × String)) :
    Prop :=
  t.Sound ∧ ∃ root, t.locate cwd path = .ok root ∧ t.Holds root files

variable {t : FileTree} {cwd root : Place} {path : String} {files : List (Place × String)}

namespace FileTree.Holds

/-- What a directory holds can be read off the entries. -/
theorem of_entries (hdirectory : t.entry? root = some .directory)
    (hentries : ∀ e ∈ t.entries, root <+: e.1 →
      e.2 = .directory ∨ ∃ f ∈ files, e = (root ++ f.1, .file (some f.2)))
    (hfiles : ∀ f ∈ files, t.entry? (root ++ f.1) = some (.file (some f.2)) ∧
      (FileTree.placeText (root ++ f.1)).utf8ByteSize < 4096) : t.Holds root files := by
  refine ⟨hdirectory, ?_, fun f hf => (hfiles f hf).1, fun f hf => (hfiles f hf).2⟩
  intro below e hentry
  by_cases hnil : root ++ below = []
  · rw [hnil] at hentry
    cases hentry
    exact Or.inl rfl
  · have hmem := mem_entries_of_found hentry hnil
    rcases hentries _ hmem (List.prefix_append root below) with heq | ⟨f, hf, heq⟩
    · exact Or.inl heq
    · obtain ⟨hplace, rfl⟩ := Prod.mk.inj heq
      rw [List.append_cancel_left hplace]
      exact Or.inr ⟨f.2, rfl, hf⟩

theorem plainBelow (h : t.Holds root files) : t.PlainBelow root := by
  refine ⟨h.directory, ?_⟩
  intro below target hlink
  rcases h.listed below _ hlink with heq | ⟨text, heq, -⟩ <;> cases heq

/-- A file is there exactly if it is one of those that are held. -/
theorem file_iff (h : t.Holds root files) {below : Place} {text : Option String} :
    t.entry? (root ++ below) = some (.file text) ↔ ∃ s, text = some s ∧ (below, s) ∈ files := by
  constructor
  · intro hentry
    rcases h.listed below _ hentry with heq | ⟨s, heq, hmem⟩
    · cases heq
    · cases heq
      exact ⟨s, rfl, hmem⟩
  · rintro ⟨s, rfl, hmem⟩
    exact h.present _ hmem

/-- Each file is held with one text. -/
theorem text_unique (h : t.Holds root files) {below : Place} {s s' : String}
    (hs : (below, s) ∈ files) (hs' : (below, s') ∈ files) : s = s' := by
  have hentry := h.present _ hs
  rw [h.present _ hs'] at hentry
  simpa using hentry.symm

end FileTree.Holds

/-! ## The directory -/

namespace ProjectDirectory

theorem foldl_joinPath {names : List String} (hroot : ∀ s ∈ root, IsSegment s)
    (hnames : ∀ s ∈ names, IsSegment s) :
    names.foldl joinPath (FileTree.placeText root) = FileTree.placeText (root ++ names) := by
  induction names generalizing root with
  | nil => rw [List.append_nil, List.foldl_nil]
  | cons name rest ih =>
    have hname := hnames name List.mem_cons_self
    have hnext : ∀ s ∈ root ++ [name], IsSegment s := by
      intro s hs
      rcases List.mem_append.1 hs with hs | hs
      · exact hroot s hs
      · rw [List.mem_singleton.1 hs]
        exact hname
    have hrest := ih hnext fun s hs => hnames s (List.mem_cons_of_mem _ hs)
    rw [List.foldl_cons, FileTree.joinPath_placeText hroot hname, hrest, List.append_assoc,
      List.singleton_append]

/-- The path of a module is that of its place below the directory. -/
theorem pathOf_eq (ht : t.Sound) (h : t.Holds root files) (id : ModuleId) :
    pathOf ⟨t, cwd, FileTree.placeText root⟩ id = FileTree.placeText (root ++ id.segments) :=
  foldl_joinPath (fun s hs => (ht.names h.directory s hs).1) id.proper

/-- The modules that exist are the files. -/
theorem has_iff (ht : t.Sound) (h : t.Holds root files) (id : ModuleId) :
    (sources ⟨t, cwd, FileTree.placeText root⟩).has id = true ↔
      ∃ text, (id.segments, text) ∈ files := by
  have hshort : ∀ text, t.entry? (root ++ id.segments) = some (.file text) →
      (FileTree.placeText (root ++ id.segments)).utf8ByteSize < 4096 := by
    intro text hentry
    obtain ⟨s, -, hmem⟩ := h.file_iff.1 hentry
    exact h.reachable _ hmem
  show t.isFile cwd (pathOf _ id) = true ↔ _
  rw [pathOf_eq ht h, FileTree.isFile_iff ht h.plainBelow id.proper hshort]
  constructor
  · rintro ⟨text, hentry⟩
    obtain ⟨s, -, hmem⟩ := h.file_iff.1 hentry
    exact ⟨s, hmem⟩
  · rintro ⟨s, hmem⟩
    exact ⟨some s, h.file_iff.2 ⟨s, rfl, hmem⟩⟩

/-- The text of a module is that of the file. -/
theorem load_eq (ht : t.Sound) (h : t.Holds root files) {id : ModuleId} {text : String}
    (hmem : (id.segments, text) ∈ files) :
    (sources ⟨t, cwd, FileTree.placeText root⟩).load id = .ok text := by
  show (t.readText cwd (pathOf _ id)).mapError _ = _
  rw [pathOf_eq ht h, FileTree.readText_of_file ht h.directory (h.present _ hmem)
    (h.reachable _ hmem)]
  rfl

theorem consistent (ht : t.Sound) (h : t.Holds root files) :
    (sources ⟨t, cwd, FileTree.placeText root⟩).Consistent := by
  intro id
  constructor
  · intro hid
    obtain ⟨text, hmem⟩ := (has_iff ht h id).1 hid
    exact ⟨text, load_eq ht h hmem⟩
  · rintro ⟨text, hload⟩
    have hread : t.readText cwd (pathOf ⟨t, cwd, FileTree.placeText root⟩ id) = .ok text := by
      unfold sources load at hload
      dsimp only at hload
      cases hread : t.readText cwd (pathOf ⟨t, cwd, FileTree.placeText root⟩ id) with
      | error fault =>
        rw [hread] at hload
        cases hload
      | ok s =>
        rw [hread] at hload
        cases hload
        rfl
    exact FileTree.isFile_of_readText hread

/-- There are no more modules than entries. -/
theorem bounded (ht : t.Sound) (h : t.Holds root files) :
    (sources ⟨t, cwd, FileTree.placeText root⟩).Bounded := by
  intro ids hnodup hhas
  have hplaces : (ids.map fun id => root ++ id.segments).Nodup := by
    refine hnodup.map ?_
    intro a b hab
    exact ModuleId.eq_of_segments_eq (List.append_cancel_left hab)
  have hsub : (ids.map fun id => root ++ id.segments) ⊆ t.entries.map (·.1) := by
    intro place hplace
    obtain ⟨id, hid, rfl⟩ := List.mem_map.1 hplace
    obtain ⟨text, hmem⟩ := (has_iff ht h id).1 (hhas id hid)
    have hentry := h.present _ hmem
    have hne : root ++ id.segments ≠ [] := by
      intro hnil
      rw [hnil] at hentry
      cases hentry
    exact List.mem_map_of_mem (f := fun e => e.1) (FileTree.mem_entries_of_found hentry hne)
  have hle := (List.subperm_of_subset hplaces hsub).length_le
  rw [List.length_map, List.length_map] at hle
  have hpower : ∀ k : Nat, k ≠ 0 → t.entries.length + 1 ≤ Nat.pow (t.entries.length + 1) k :=
    fun k hk => Nat.le_self_pow hk _
  unfold sources
  dsimp only
  generalize hexponent : 4096 = exponent
  exact Nat.le_trans (Nat.le_trans hle (Nat.le_succ _)) (hpower exponent (by omega))

end ProjectDirectory

/-! ## The files in memory -/

namespace Sources

theorem ofPath_eq_iff (ht : t.Sound) (h : t.Holds root files) {id : ModuleId}
    {f : Place × String} (hf : f ∈ files) :
    ModuleId.ofPath ("/".intercalate f.1) = id ↔ f.1 = id.segments := by
  have hproper : ∀ s ∈ f.1, IsSegment s := fun s hs =>
    (ht.names (h.present f hf) s (List.mem_append_right root hs)).1
  have hsegments := FileTree.segments_ofPath_intercalate hproper
  constructor
  · rintro rfl
    exact hsegments.symm
  · intro heq
    exact ModuleId.eq_of_segments_eq (hsegments.trans heq)

/-- The modules that exist in memory are the files. -/
theorem has_ofRelative_iff (ht : t.Sound) (h : t.Holds root files) (id : ModuleId) :
    (Sources.ofRelative files).has id = true ↔ ∃ text, (id.segments, text) ∈ files := by
  unfold ofRelative ofFiles
  dsimp only
  rw [List.any_eq_true]
  constructor
  · rintro ⟨_, hf, hid⟩
    obtain ⟨f, hmem, rfl⟩ := List.mem_map.1 hf
    have hplace := (ofPath_eq_iff ht h hmem).1 (beq_iff_eq.1 hid)
    rw [← hplace]
    exact ⟨f.2, hmem⟩
  · rintro ⟨text, hmem⟩
    refine ⟨_, List.mem_map_of_mem hmem, ?_⟩
    exact beq_iff_eq.2 ((ofPath_eq_iff ht h hmem).2 rfl)

/-- Their texts are those of the files. -/
theorem load_ofRelative (ht : t.Sound) (h : t.Holds root files) {id : ModuleId} {text : String}
    (hmem : (id.segments, text) ∈ files) : (Sources.ofRelative files).load id = .ok text := by
  unfold ofRelative ofFiles
  dsimp only
  cases hfind : (files.map fun f => (ModuleId.ofPath ("/".intercalate f.1), f.2)).find?
      fun f => f.1 == id with
  | none =>
    have hnone := List.find?_eq_none.1 hfind _ (List.mem_map_of_mem hmem)
    exact absurd (beq_iff_eq.2 ((ofPath_eq_iff ht h hmem).2 rfl)) hnone
  | some found =>
    obtain ⟨f, hf, rfl⟩ := List.mem_map.1 (List.mem_of_find?_eq_some hfind)
    have hplace := (ofPath_eq_iff ht h hf).1 (by simpa using List.find?_some hfind)
    rw [← hplace] at hmem
    rw [h.text_unique hf hmem]

end Sources

/-! ## Builds -/

/-- The bundle of the graph that an entry leads to. -/
def bundleFrom (sources : Sources) (transformer : Transformer) (extensions : List String)
    (entrySpecifier : String) : Except BuildFailure Bundle :=
  (build sources transformer extensions entrySpecifier).1.bind fun g => g.emit g.entry

theorem build_eq_of_holds (ht : t.Sound) (h : t.Holds root files) (transformer : Transformer)
    (extensions : List String) (entrySpecifier : String) :
    build (ProjectDirectory.sources ⟨t, cwd, FileTree.placeText root⟩) transformer extensions
      entrySpecifier = build (.ofRelative files) transformer extensions entrySpecifier := by
  refine buildWith_eq_of_same (Sources.consistent_ofFiles _) (Sources.bounded_ofFiles _)
    (ProjectDirectory.consistent ht h) (ProjectDirectory.bounded ht h)
    (Resolver.faithful_fresh _ extensions) ?_ ?_ entrySpecifier
  · intro id
    rw [Bool.eq_iff_iff, ProjectDirectory.has_iff ht h]
    exact (Sources.has_ofRelative_iff ht h id).symm
  · intro id hid
    obtain ⟨text, hmem⟩ := (Sources.has_ofRelative_iff ht h id).1 hid
    exact (ProjectDirectory.load_eq ht h hmem).trans (Sources.load_ofRelative ht h hmem).symm

/-- A build from a directory of files ends like a build from the same files in memory, with all
that it asks and does on the way, and so does a build from any other directory that holds them.  So
neither the result nor the bundle depends on where the directory is. -/
theorem build_offered (t : FileTree) (cwd : Place) (path : String) (files : List (Place × String))
    (h : t.Offers cwd path files) (transformer : Transformer) (extensions : List String)
    (entrySpecifier : String) :
    ∃ d, ProjectDirectory.find t cwd path = .ok d ∧
      build d.sources transformer extensions entrySpecifier =
        build (.ofRelative files) transformer extensions entrySpecifier ∧
      ∀ t' cwd' path' d', t'.Offers cwd' path' files →
        ProjectDirectory.find t' cwd' path' = .ok d' →
        build d'.sources transformer extensions entrySpecifier =
          build d.sources transformer extensions entrySpecifier ∧
        bundleFrom d'.sources transformer extensions entrySpecifier =
          bundleFrom d.sources transformer extensions entrySpecifier := by
  -- wherever the files are held, the build is the one from memory
  have hbuild : ∀ t cwd path, FileTree.Offers t cwd path files →
      ∃ d, ProjectDirectory.find t cwd path = .ok d ∧
        build d.sources transformer extensions entrySpecifier =
          build (.ofRelative files) transformer extensions entrySpecifier := by
    rintro t cwd path ⟨ht, root, hroot, hfiles⟩
    refine ⟨⟨t, cwd, FileTree.placeText root⟩, ?_, build_eq_of_holds ht hfiles _ _ _⟩
    unfold ProjectDirectory.find FileTree.canonicalPath
    rw [hroot]
    rfl
  obtain ⟨d, hd, hsame⟩ := hbuild t cwd path h
  refine ⟨d, hd, hsame, ?_⟩
  intro t' cwd' path' d' h' hd'
  obtain ⟨other, hother, hsame'⟩ := hbuild t' cwd' path' h'
  rw [hother] at hd'
  cases hd'
  have hboth := hsame'.trans hsame.symm
  refine ⟨hboth, ?_⟩
  unfold bundleFrom
  rw [hboth]

/-- Three files that request each other, one of them the index of a directory. -/
def nestedFiles : List (Place × String) :=
  [(["main.js"], "./lib"), (["lib", "index.js"], "../main.js\n./util"),
    (["lib", "util.mjs"], "../main")]

/-- A directory that holds them below others. -/
def nestedTree : FileTree where
  entries :=
    [(["srv"], .directory), (["srv", "app"], .directory), (["srv", "app", "lib"], .directory),
      (["srv", "app", "main.js"], .file (some "./lib")),
      (["srv", "app", "lib", "index.js"], .file (some "../main.js\n./util")),
      (["srv", "app", "lib", "util.mjs"], .file (some "../main")),
      (["srv", "app.js"], .symlink "app/main.js")]

/-- A file system that holds nothing else. -/
def nestedRoot : FileTree where
  entries :=
    [(["lib"], .directory), (["main.js"], .file (some "./lib")),
      (["lib", "util.mjs"], .file (some "../main")),
      (["lib", "index.js"], .file (some "../main.js\n./util"))]

/-- What they are built into. -/
def nestedGraph : ModuleGraph where
  entry := .ofPath "/main.js"
  modules :=
    [⟨.ofPath "/main.js", [⟨"./lib", .ofPath "/lib/index.js"⟩], "./lib"⟩,
      ⟨.ofPath "/lib/index.js",
        [⟨"../main.js", .ofPath "/main.js"⟩, ⟨"./util", .ofPath "/lib/util.mjs"⟩],
        "../main.js\n./util"⟩,
      ⟨.ofPath "/lib/util.mjs", [⟨"../main", .ofPath "/main.js"⟩], "../main"⟩]

theorem nestedTree_offers : nestedTree.Offers ["srv"] "app" nestedFiles :=
  ⟨⟨by decide +kernel, by decide +kernel⟩, ["srv", "app"], by decide +kernel,
    .of_entries (by decide +kernel) (by decide +kernel) (by decide +kernel)⟩

theorem nestedRoot_offers : nestedRoot.Offers [] "/" nestedFiles :=
  ⟨⟨by decide +kernel, by decide +kernel⟩, [], by decide +kernel,
    .of_entries (by decide +kernel) (by decide +kernel) (by decide +kernel)⟩

theorem nestedFiles_build :
    nestedTree.Offers ["srv"] "app" nestedFiles ∧ nestedRoot.Offers [] "/" nestedFiles ∧
    ∃ d d', ProjectDirectory.find nestedTree ["srv"] "app" = .ok d ∧
      ProjectDirectory.find nestedRoot [] "/" = .ok d' ∧
      (build d.sources requestLines defaultExtensions "main").1 = .ok nestedGraph ∧
      bundleFrom d'.sources requestLines defaultExtensions "main" =
        bundleFrom d.sources requestLines defaultExtensions "main" := by
  obtain ⟨d, hd, hbuild, hmoved⟩ := build_offered nestedTree ["srv"] "app" nestedFiles
    nestedTree_offers requestLines defaultExtensions "main"
  have hmemory : (build (.ofRelative nestedFiles) requestLines defaultExtensions "main").1 =
      .ok nestedGraph := by decide +kernel
  have hroot : ProjectDirectory.find nestedRoot [] "/" = .ok ⟨nestedRoot, [], "/"⟩ := rfl
  refine ⟨nestedTree_offers, nestedRoot_offers, d, _, hd, hroot, ?_,
    (hmoved nestedRoot [] "/" _ nestedRoot_offers hroot).2⟩
  rw [hbuild, hmemory]

end ModuleBundler
