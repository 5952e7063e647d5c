import Mathlib.Data.List.Induction
import ModuleBundler.Files.Tree
import ModuleBundler.Proofs.Module.Id

/-!
# Following paths without symbolic links

In a file tree as a file system can hold it (`FileTree.Sound`), what stands above an entry is a
directory.  So the path of an entry leads to it, as long as no symbolic link stands on the way:

* `FileTree.joinPath_placeText` and `FileTree.slashParts_placeText` — the text of a place is made of
  its names, and its parts are the names again;
* `FileTree.walk_through` — following names comes to the entry that they lead to;
* `FileTree.walk_plain` — where there are no symbolic links, following names comes nowhere else;
* `FileTree.isFile_iff` and `FileTree.readText_of_file` — so a path below such a place is that of a
  file exactly if the file is there.
-/

namespace ModuleBundler

open ModuleBundler.Text ModuleBundler.Files

namespace FileTree

/-! ## Places as texts -/

section PlaceText

variable {p q : Place} {name : String}

theorem placeText_cons (name : String) (p : Place) :
    placeText (name :: p) = "/" ++ name ++ if p = [] then "" else placeText p := by
  unfold placeText
  split
  · rename_i h
    rw [h, String.intercalate_singleton, String.append_empty]
  · rename_i h
    rw [String.intercalate_cons_of_ne_nil h]
    simp only [String.append_assoc]

/-- The text of a place is written like that of an id. -/
theorem placeText_eq_render (p : Place) : placeText p = ModuleId.render p := by
  induction p with
  | nil => rfl
  | cons name rest ih =>
    rw [placeText_cons, ih]
    unfold ModuleId.render
    cases rest with
    | nil => simp
    | cons next rest => simp [String.append_assoc]

theorem slashParts_placeText (hp : ∀ s ∈ p, IsSegment s) (hne : p ≠ []) :
    slashParts (placeText p) = "" :: p := by
  rw [placeText_eq_render, ModuleId.slashParts_render hp hne]

/-- The id of a relative path has the names of the path. -/
theorem segments_ofPath_intercalate (hp : ∀ s ∈ p, IsSegment s) :
    (ModuleId.ofPath ("/".intercalate p)).segments = p := by
  show followParts [] (slashParts ("/".intercalate p)) = p
  by_cases hne : p = []
  · rw [hne]
    rfl
  · rw [slashParts_intercalate (fun s hs => (hp s hs).2.2.2) hne]
    exact followParts_of_isSegment hp

theorem isAbsolute_placeText (p : Place) : isAbsolute (placeText p) = true := by
  unfold isAbsolute placeText
  rw [String.toList_append]
  rfl

theorem placeText_ne_empty (p : Place) : placeText p ≠ "" := by
  intro h
  have habsolute := isAbsolute_placeText p
  rw [h] at habsolute
  cases habsolute

theorem placeText_concat (p : Place) (name : String) :
    placeText (p ++ [name]) = (if p = [] then "" else placeText p) ++ "/" ++ name := by
  split
  · rename_i h
    rw [h]
    rfl
  · rename_i h
    unfold placeText
    rw [String.intercalate_append_of_ne_nil h (List.cons_ne_nil _ _),
      String.intercalate_singleton]
    simp only [String.append_assoc]

/-- A segment neither begins nor ends with a slash. -/
theorem ne_slash_of_mem {c : Char} (hname : IsSegment name) (hc : c ∈ name.toList) : c ≠ '/' := by
  rintro rfl
  exact hname.2.2.2 hc

theorem getLast?_placeText (hname : IsSegment name) (p : Place) :
    (placeText (p ++ [name])).toList.getLast? ≠ some '/' := by
  have hne : name.toList ≠ [] := fun h => hname.1 (String.toList_eq_nil_iff.1 h)
  rw [placeText_concat, String.toList_append, List.getLast?_append,
    List.getLast?_eq_some_getLast hne, Option.some_or]
  intro hlast
  exact ne_slash_of_mem hname (List.getLast_mem hne) (Option.some.inj hlast)

/-- A relative path is joined to the text of a place behind a slash. -/
theorem joinPath_relative {path : String} (hp : ∀ s ∈ p, IsSegment s)
    (hpath : isAbsolute path = false) :
    joinPath (placeText p) path = (if p = [] then "" else placeText p) ++ "/" ++ path := by
  unfold joinPath
  rw [if_neg (by rw [hpath]; exact Bool.false_ne_true)]
  rcases List.eq_nil_or_concat p with rfl | ⟨front, last, rfl⟩
  · rfl
  · rw [List.concat_eq_append] at hp ⊢
    have hlast := getLast?_placeText (hp last (by simp)) front
    have hjoin : ¬ (placeText (front ++ [last]) = "" ||
        (placeText (front ++ [last])).toList.getLast? == some '/') = true := by
      simp [placeText_ne_empty, hlast]
    rw [if_neg hjoin, if_neg (by simp)]

/-- Joining a name to the text of a place is going on to that name. -/
theorem joinPath_placeText (hp : ∀ s ∈ p, IsSegment s) (hname : IsSegment name) :
    joinPath (placeText p) name = placeText (p ++ [name]) := by
  have hrelative : isAbsolute name = false := by
    unfold isAbsolute
    rw [beq_eq_false_iff_ne]
    intro hhead
    exact ne_slash_of_mem hname (List.mem_of_head? hhead) rfl
  rw [joinPath_relative hp hrelative, placeText_concat]

end PlaceText

/-! ## Trees that a file system can hold -/

instance : DecidablePred IsSegment := fun s =>
  inferInstanceAs (Decidable (s ≠ "" ∧ s ≠ "." ∧ s ≠ ".." ∧ '/' ∉ s.toList))

/-- Every entry has proper names, and stands in a directory. -/
structure Sound (t : FileTree) : Prop where
  named : ∀ e ∈ t.entries, e.1 ≠ [] ∧ ∀ name ∈ e.1, IsSegment name ∧ name.utf8ByteSize ≤ 255
  parent : ∀ e ∈ t.entries, t.entry? e.1.dropLast = some .directory

variable {t : FileTree} {p q : Place} {e : FileEntry}

theorem mem_entries_of_found (h : t.entry? p = some e) (hne : p ≠ []) : (p, e) ∈ t.entries := by
  unfold entry? at h
  rw [if_neg (by simpa using hne)] at h
  obtain ⟨entry, hfind, rfl⟩ := Option.map_eq_some_iff.1 h
  have hplace : entry.1 = p := by simpa using List.find?_some hfind
  rw [← hplace]
  exact List.mem_of_find?_eq_some hfind

/-- The names on the way to an entry are proper. -/
theorem Sound.names (ht : t.Sound) (h : t.entry? p = some e) :
    ∀ name ∈ p, IsSegment name ∧ name.utf8ByteSize ≤ 255 := by
  by_cases hne : p = []
  · rw [hne]
    intro name hname
    cases hname
  · exact (ht.named _ (mem_entries_of_found h hne)).2

/-- What stands above an entry is a directory. -/
theorem Sound.above (ht : t.Sound) (h : t.entry? (p ++ q) = some e) (hq : q ≠ []) :
    t.entry? p = some .directory := by
  induction q using List.reverseRecOn generalizing e with
  | nil => exact absurd rfl hq
  | append_singleton front last ih =>
    have hmem := mem_entries_of_found h (by simp)
    have hparent := ht.parent _ hmem
    rw [← List.append_assoc, List.dropLast_concat] at hparent
    by_cases hfront : front = []
    · rw [hfront, List.append_nil] at hparent
      exact hparent
    · exact ih hparent hfront

/-! ## Walks -/

variable {missing : Missing} {jump : Place → List String → Except FileFault Place}
  {name : String} {names rest : List String}

/-- Following a name from a directory comes to what stands there. -/
theorem walk_cons (hp : t.entry? p = some .directory) (hname : IsSegment name)
    (hsize : name.utf8ByteSize ≤ 255) (hnext : t.entry? (p ++ [name]) = some e)
    (he : ∀ target, e ≠ .symlink target) :
    t.walk missing jump p (name :: rest) = t.walk missing jump (p ++ [name]) rest := by
  rw [walk, hp]
  dsimp only
  rw [if_neg (by simp [hname.1, hname.2.1]), if_neg hname.2.2.1, if_neg (by omega), hnext]
  cases e with
  | symlink target => exact absurd rfl (he target)
  | directory => rfl
  | file text => rfl

/-- Following names comes to the entry that they lead to. -/
theorem walk_through (ht : t.Sound) (h : t.entry? (p ++ names) = some e)
    (he : ∀ target, e ≠ .symlink target) :
    t.walk missing jump p (names ++ rest) = t.walk missing jump (p ++ names) rest := by
  induction names generalizing p with
  | nil => rw [List.nil_append, List.append_nil]
  | cons name later ih =>
    have hp := ht.above h (List.cons_ne_nil _ _)
    have hname := ht.names h name (by simp)
    rw [List.append_cons] at h ⊢
    rw [List.cons_append]
    -- the next place is a directory, unless it is the last one
    by_cases hlater : later = []
    · subst hlater
      rw [List.append_nil] at h ⊢
      exact walk_cons hp hname.1 hname.2 h he
    · have hnext := ht.above h hlater
      rw [walk_cons hp hname.1 hname.2 hnext (by simp)]
      exact ih h

/-- Where there are no symbolic links, following names comes nowhere else. -/
theorem walk_plain {fault : FileFault}
    (hplain : ∀ below target, t.entry? (p ++ below) ≠ some (.symlink target))
    (hnames : ∀ name ∈ names, IsSegment name)
    (h : t.walk (fun _ => .error fault) jump p names = .ok q) : q = p ++ names := by
  induction names generalizing p with
  | nil =>
    cases h
    exact (List.append_nil _).symm
  | cons name later ih =>
    have hname := hnames name List.mem_cons_self
    rw [walk] at h
    split at h
    · rw [if_neg (by simp [hname.1, hname.2.1]), if_neg hname.2.2.1] at h
      split at h
      · cases h
      dsimp only at h
      split at h
      · split at h <;> cases h
      · rename_i target hlink
        exact absurd hlink (hplain [name] target)
      · have hlater := ih (fun below target => by
            rw [List.append_assoc]
            exact hplain ([name] ++ below) target)
          (fun n hn => hnames n (List.mem_cons_of_mem _ hn)) h
        rw [hlater, List.append_assoc, List.singleton_append]
    · cases h
    · cases h

/-! ## Files below a directory -/

/-- Nothing at a directory or below it is a symbolic link. -/
def PlainBelow (t : FileTree) (root : Place) : Prop :=
  t.entry? root = some .directory ∧
    ∀ below target, t.entry? (root ++ below) ≠ some (.symlink target)

section Below

variable {root cwd : Place} {text : Option String}

/-- The path of a place below a directory is followed from the directory on. -/
theorem locate_below (ht : t.Sound) (hroot : t.entry? root = some .directory)
    (hnames : ∀ name ∈ names, IsSegment name)
    (hshort : (placeText (root ++ names)).utf8ByteSize < 4096) :
    t.locate cwd (placeText (root ++ names)) =
      t.walk (fun _ => .error .notFound) (t.follow (fun _ => .error .notFound) 39) root names := by
  have hproper : ∀ s ∈ root ++ names, IsSegment s := by
    intro s hs
    rcases List.mem_append.1 hs with hs | hs
    · exact (ht.names hroot s hs).1
    · exact hnames s hs
  have hfollow : t.locate cwd (placeText (root ++ names)) =
      t.walk (fun _ => .error .notFound) (t.follow (fun _ => .error .notFound) 39) []
        (slashParts (placeText (root ++ names))) := by
    unfold locate locateWith
    rw [if_neg (placeText_ne_empty _), if_neg (by omega), if_pos (isAbsolute_placeText _)]
    rfl
  rw [hfollow]
  by_cases hne : root ++ names = []
  · rw [hne]
    obtain ⟨rfl, rfl⟩ := List.append_eq_nil_iff.1 hne
    rfl
  · rw [slashParts_placeText hproper hne]
    show t.walk _ _ [] (root ++ names) = _
    exact walk_through ht (p := []) hroot (by simp)

theorem eq_of_locate (ht : t.Sound) (hplain : t.PlainBelow root)
    (hnames : ∀ name ∈ names, IsSegment name)
    (h : t.locate cwd (placeText (root ++ names)) = .ok p) : p = root ++ names := by
  by_cases hshort : (placeText (root ++ names)).utf8ByteSize < 4096
  · rw [locate_below ht hplain.1 hnames hshort] at h
    exact walk_plain hplain.2 hnames h
  · unfold locate locateWith at h
    rw [if_neg (placeText_ne_empty _), if_pos (by omega)] at h
    cases h

theorem locate_of_file (ht : t.Sound) (hroot : t.entry? root = some .directory)
    (h : t.entry? (root ++ names) = some (.file text))
    (hshort : (placeText (root ++ names)).utf8ByteSize < 4096) :
    t.locate cwd (placeText (root ++ names)) = .ok (root ++ names) := by
  have hnames : ∀ name ∈ names, IsSegment name := fun name hname =>
    (ht.names h name (List.mem_append_right root hname)).1
  rw [locate_below ht hroot hnames hshort, ← List.append_nil names, walk_through ht h (by simp),
    List.append_nil]
  rfl

theorem isFile_of_locate {path : String} (h : t.locate cwd path = .ok p) :
    t.isFile cwd path = match t.entry? p with
      | some (.file _) => true
      | _ => false := by
  unfold isFile
  rw [h]
  rfl

theorem readText_of_locate {path : String} (h : t.locate cwd path = .ok p) :
    t.readText cwd path = match t.entry? p with
      | some (.file (some text)) => .ok text
      | some (.file none) => .error FileFault.invalidText
      | some .directory => .error FileFault.isDirectory
      | _ => .error FileFault.notFound := by
  unfold readText
  rw [h]
  rfl

/-- A path below a plain directory leads to a file exactly if one is there, as far as its path is
not too long. -/
theorem isFile_iff (ht : t.Sound) (hplain : t.PlainBelow root)
    (hnames : ∀ name ∈ names, IsSegment name)
    (hshort : ∀ text, t.entry? (root ++ names) = some (.file text) →
      (placeText (root ++ names)).utf8ByteSize < 4096) :
    t.isFile cwd (placeText (root ++ names)) = true ↔
      ∃ text, t.entry? (root ++ names) = some (.file text) := by
  constructor
  · intro h
    cases hlocate : t.locate cwd (placeText (root ++ names)) with
    | error fault =>
      unfold isFile at h
      rw [hlocate] at h
      cases h
    | ok p =>
      rw [isFile_of_locate hlocate, eq_of_locate ht hplain hnames hlocate] at h
      split at h
      · rename_i text hentry
        exact ⟨text, hentry⟩
      · cases h
  · rintro ⟨text, htext⟩
    rw [isFile_of_locate (locate_of_file ht hplain.1 htext (hshort text htext)), htext]

theorem readText_of_file {text : String} (ht : t.Sound) (hroot : t.entry? root = some .directory)
    (h : t.entry? (root ++ names) = some (.file (some text)))
    (hshort : (placeText (root ++ names)).utf8ByteSize < 4096) :
    t.readText cwd (placeText (root ++ names)) = .ok text := by
  rw [readText_of_locate (locate_of_file ht hroot h hshort), h]

/-- What can be read is a file. -/
theorem isFile_of_readText {path text : String} (h : t.readText cwd path = .ok text) :
    t.isFile cwd path = true := by
  cases hlocate : t.locate cwd path with
  | error fault =>
    unfold readText at h
    rw [hlocate] at h
    cases h
  | ok p =>
    rw [readText_of_locate hlocate] at h
    rw [isFile_of_locate hlocate]
    split at h
    · rename_i hentry
      rw [hentry]
    all_goals cases h

end Below

end FileTree

end ModuleBundler
