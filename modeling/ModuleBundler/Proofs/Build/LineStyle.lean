import ModuleBundler.Proofs.Build.BreadthFirst

/-!
# Builds do not depend on line ends

A text can end its lines in three styles (`LineStyle`).  A build brings every text that it loads to
the line feed before anything else looks at it, so it cannot tell the styles apart:

* `unifyLineEnds_eq` — replacing pairs first and what is left of the returns then is one pass over
  the text (`foldLineEnds`);
* `unifyLineEnds_write` — a text without returns is read back from each style;
* `buildWith_unified` — a build over sources is the build over the same sources with the line ends
  of all texts unified (`Sources.unified`);
* **`buildWith_restyled`** — so builds from files are the same in whatever style each file is
  written.
-/

namespace ModuleBundler

open ModuleBundler.Text

namespace Text

/-! ## Styles -/

/-- How the lines of a text end. -/
inductive LineStyle where
  | feed
  /-- A return with a feed behind it. -/
  | pair
  | carriageReturn
deriving DecidableEq

/-- The end of a line. -/
def LineStyle.ending : LineStyle → List Char
  | .feed => ['\n']
  | .pair => ['\r', '\n']
  | .carriageReturn => ['\r']

/-- A text with its line feeds written in a style. -/
def LineStyle.write (style : LineStyle) (text : List Char) : List Char :=
  text.flatMap fun c => if c = '\n' then style.ending else [c]

/-- One pass over a text that writes a line feed for each pair and for each other return. -/
def foldLineEnds : List Char → List Char
  | '\r' :: '\n' :: rest => '\n' :: foldLineEnds rest
  | '\r' :: rest => '\n' :: foldLineEnds rest
  | c :: rest => c :: foldLineEnds rest
  | [] => []

section LineEnds

variable {c : Char} {text : List Char}

theorem write_feed_cons (style : LineStyle) (text : List Char) :
    style.write ('\n' :: text) = style.ending ++ style.write text := by
  simp [LineStyle.write]

theorem write_cons (style : LineStyle) (hc : c ≠ '\n') (text : List Char) :
    style.write (c :: text) = c :: style.write text := by
  simp [LineStyle.write, hc]

/-- A return that is written for a line feed has no line feed behind it. -/
theorem feed_notMem_write (text : List Char) : '\n' ∉ LineStyle.carriageReturn.write text := by
  intro hmem
  obtain ⟨c, -, hc⟩ := List.mem_flatMap.1 hmem
  by_cases h : c = '\n'
  · simp [h, LineStyle.ending] at hc
  · rw [if_neg h, List.mem_singleton] at hc
    exact h hc.symm

/-! ## One pass -/

theorem foldLineEnds_return (h : text.head? ≠ some '\n') :
    foldLineEnds ('\r' :: text) = '\n' :: foldLineEnds text := by
  cases text with
  | nil => rfl
  | cons c rest =>
    have hc : c ≠ '\n' := fun heq => h (by simp [heq])
    rw [foldLineEnds.eq_def]
    simp [hc]

theorem foldLineEnds_cons (hc : c ≠ '\r') :
    foldLineEnds (c :: text) = c :: foldLineEnds text := by
  rw [foldLineEnds.eq_def]
  simp [hc]

theorem joinPairs_return (h : text.head? ≠ some '\n') :
    joinPairs ('\r' :: text) = '\r' :: joinPairs text := by
  cases text with
  | nil => rfl
  | cons c rest =>
    have hc : c ≠ '\n' := fun heq => h (by simp [heq])
    rw [joinPairs.eq_def]
    simp [hc]

theorem joinPairs_cons (hc : c ≠ '\r') : joinPairs (c :: text) = c :: joinPairs text := by
  rw [joinPairs.eq_def]
  simp [hc]

theorem replaceReturns_cons (c : Char) (text : List Char) :
    replaceReturns (c :: text) = (if c = '\r' then '\n' else c) :: replaceReturns text := rfl

/-- Replacing the pairs and then the returns that are left is one pass over the text. -/
theorem replaceReturns_joinPairs (text : List Char) :
    replaceReturns (joinPairs text) = foldLineEnds text := by
  fun_induction foldLineEnds text with
  | case1 rest ih =>
    show replaceReturns ('\n' :: joinPairs rest) = '\n' :: foldLineEnds rest
    rw [replaceReturns_cons, ih, if_neg (by decide)]
  | case2 rest hfeed ih =>
    have hhead : rest.head? ≠ some '\n' := by
      intro h
      obtain ⟨tail, heq⟩ := List.head?_eq_some_iff.1 h
      exact hfeed tail heq
    rw [joinPairs_return hhead, replaceReturns_cons, ih, if_pos rfl]
  | case3 c rest _ hreturn ih =>
    rw [joinPairs_cons hreturn, replaceReturns_cons, ih, if_neg hreturn]
  | case4 => rfl

/-- Without returns there is nothing to fold. -/
theorem foldLineEnds_self (h : '\r' ∉ text) : foldLineEnds text = text := by
  induction text with
  | nil => rfl
  | cons c rest ih =>
    rw [List.mem_cons, not_or] at h
    rw [foldLineEnds_cons (Ne.symm h.1), ih h.2]

theorem unifyLineEnds_eq (text : List Char) : unifyLineEnds text = foldLineEnds text := by
  unfold unifyLineEnds
  split
  · exact replaceReturns_joinPairs text
  · rename_i h
    have hreturn : '\r' ∉ text := by simpa using h
    exact (foldLineEnds_self hreturn).symm

theorem unifyLineEnds_self (h : '\r' ∉ text) : unifyLineEnds text = text := by
  rw [unifyLineEnds_eq, foldLineEnds_self h]

theorem return_notMem_unifyLineEnds (text : List Char) : '\r' ∉ unifyLineEnds text := by
  rw [unifyLineEnds_eq]
  fun_induction foldLineEnds text with
  | case1 rest ih => simpa using ih
  | case2 rest _ ih => simpa using ih
  | case3 c rest _ hreturn ih => simpa [eq_comm] using ⟨hreturn, ih⟩
  | case4 => simp

theorem unifyLineEnds_unifyLineEnds (text : List Char) :
    unifyLineEnds (unifyLineEnds text) = unifyLineEnds text :=
  unifyLineEnds_self (return_notMem_unifyLineEnds text)

/-! ## Reading a style back -/

theorem foldLineEnds_write (style : LineStyle) (h : '\r' ∉ text) :
    foldLineEnds (style.write text) = text := by
  induction text with
  | nil => rfl
  | cons c rest ih =>
    rw [List.mem_cons, not_or] at h
    by_cases hc : c = '\n'
    · subst hc
      rw [write_feed_cons]
      have hrest := ih h.2
      cases style with
      | feed =>
        show foldLineEnds ('\n' :: LineStyle.feed.write rest) = '\n' :: rest
        rw [foldLineEnds_cons (by decide), hrest]
      | pair =>
        show '\n' :: foldLineEnds (LineStyle.pair.write rest) = '\n' :: rest
        rw [hrest]
      | carriageReturn =>
        show foldLineEnds ('\r' :: LineStyle.carriageReturn.write rest) = '\n' :: rest
        have hhead : (LineStyle.carriageReturn.write rest).head? ≠ some '\n' :=
          fun hfeed => feed_notMem_write rest (List.mem_of_head? hfeed)
        rw [foldLineEnds_return hhead, hrest]
    · rw [write_cons style hc, foldLineEnds_cons (Ne.symm h.1), ih h.2]

/-- A text without returns is read back from each style. -/
theorem unifyLineEnds_write (style : LineStyle) (h : '\r' ∉ text) :
    unifyLineEnds (style.write text) = text := by
  rw [unifyLineEnds_eq, foldLineEnds_write style h]

end LineEnds

end Text

/-! ## Builds -/

/-- A text with its line ends unified. -/
def unifiedText (text : String) : String := String.ofList (unifyLineEnds text.toList)

/-- Sources that give each text with its line ends unified. -/
def Sources.unified (sources : Sources) : Sources :=
  { sources with load := fun id => (sources.load id).map unifiedText }

variable {sources : Sources} {transformer : Transformer}

theorem Discovery.linkAll_unified (importer : ModuleId) (links : List Link)
    (specifiers : List String) (d : Discovery) :
    linkAll sources.unified importer links specifiers d =
      linkAll sources importer links specifiers d := by
  induction specifiers generalizing links d with
  | nil => rfl
  | cons specifier rest ih =>
    simp only [linkAll, Sources.unified] at ih ⊢
    simp only [ih]

/-- A module is processed in the same way when its line ends are unified before. -/
theorem Discovery.process_unified (id : ModuleId) (d : Discovery) :
    process sources.unified transformer id d = process sources transformer id d := by
  have htext : ∀ text : String, unifyLineEnds (unifiedText text).toList =
      unifyLineEnds text.toList := fun text => by
    simp [unifiedText, unifyLineEnds_unifyLineEnds]
  have hload : sources.unified.load id = (sources.load id).map unifiedText := rfl
  unfold process
  rw [hload]
  cases sources.load id with
  | error e => rfl
  | ok text => simp only [Except.map, htext, linkAll_unified]

theorem Discovery.run_unified (n : Nat) (d : Discovery) :
    run sources.unified transformer n d = run sources transformer n d := by
  induction n generalizing d with
  | zero => rfl
  | succ n ih => simp only [run, process_unified, ih]

/-- A build looks at no text before its line ends are unified. -/
theorem buildWith_unified (resolver : Resolver) (entrySpecifier : String) :
    buildWith sources.unified transformer resolver entrySpecifier =
      buildWith sources transformer resolver entrySpecifier := by
  unfold buildWith
  simp only [Discovery.run_unified]
  rfl

/-- A file with line feeds, and a style to write it in. -/
structure StyledFile where
  id : ModuleId
  style : LineStyle
  text : String

/-- The file with its line feeds. -/
def StyledFile.plain (f : StyledFile) : ModuleId × String := (f.id, f.text)

/-- The file in its style. -/
def StyledFile.written (f : StyledFile) : ModuleId × String :=
  (f.id, String.ofList (f.style.write f.text.toList))

/-- The same files in styles of their own have the same unified texts. -/
theorem Sources.unified_written {files : List StyledFile}
    (h : ∀ f ∈ files, '\r' ∉ f.text.toList) :
    (Sources.ofFiles (files.map (·.written))).unified = Sources.ofFiles (files.map (·.plain)) := by
  have hhas : (fun id => (files.map (·.written)).any fun f => f.1 == id) =
      fun id => (files.map (·.plain)).any fun f => f.1 == id := by
    funext id
    simp [List.any_map, Function.comp_def, StyledFile.written, StyledFile.plain]
  have hload : ∀ id, ((Sources.ofFiles (files.map (·.written))).load id).map unifiedText =
      (Sources.ofFiles (files.map (·.plain))).load id := by
    intro id
    simp only [ofFiles, List.find?_map, Function.comp_def, StyledFile.written, StyledFile.plain]
    cases hfound : files.find? fun f => f.id == id with
    | none => rfl
    | some f =>
      have hreturn := h f (List.mem_of_find?_eq_some hfound)
      simp [Except.map, unifiedText, unifyLineEnds_write f.style hreturn]
  have hlength : (files.map (·.written)).length = (files.map (·.plain)).length := by simp
  simp only [unified, hload]
  simp only [ofFiles, hhas, hlength]

/-- A text without returns is read back from each style, the line ends of every text are unified
in one pass, and so a build is the same in whatever style each of its files is written. -/
theorem buildWith_restyled (transformer : Transformer) (resolver : Resolver)
    (entrySpecifier : String) :
    (∀ text, '\r' ∉ text → unifyLineEnds text = text ∧
      ∀ style : LineStyle, unifyLineEnds (style.write text) = text) ∧
    (∀ text, '\r' ∉ unifyLineEnds text ∧ unifyLineEnds text = foldLineEnds text) ∧
    ∀ files : List StyledFile, (∀ f ∈ files, '\r' ∉ f.text.toList) →
      buildWith (.ofFiles (files.map (·.written))) transformer resolver entrySpecifier =
        buildWith (.ofFiles (files.map (·.plain))) transformer resolver entrySpecifier := by
  refine ⟨fun text h => ⟨unifyLineEnds_self h, fun style => unifyLineEnds_write style h⟩,
    fun text => ⟨return_notMem_unifyLineEnds text, unifyLineEnds_eq text⟩, fun files h => ?_⟩
  rw [← Sources.unified_written h, buildWith_unified]

/-- Three modules that request each other, each with line ends of its own. -/
def circularStyled : List StyledFile :=
  [⟨.ofPath "/main.js", .pair, "./b.js\n./a\n./b.js\n./a.js"⟩,
    ⟨.ofPath "/a.js", .carriageReturn, "./b.js\n./main"⟩, ⟨.ofPath "/b.js", .feed, "./a"⟩]

theorem circularStyled_build :
    '\r' ∉ "a\nb".toList ∧ unifyLineEnds (LineStyle.pair.write "a\nb".toList) = "a\nb".toList ∧
    (∀ f ∈ circularStyled, '\r' ∉ f.text.toList) ∧
    (buildWith (.ofFiles (circularStyled.map (·.written))) requestLines (.fresh defaultExtensions)
      "main").1 = .ok circularGraph := by
  obtain ⟨hread, -, hbuild⟩ :=
    buildWith_restyled requestLines (.fresh defaultExtensions) "main"
  have hline : '\r' ∉ "a\nb".toList := by decide
  have hfiles : ∀ f ∈ circularStyled, '\r' ∉ f.text.toList := by decide +kernel
  have hplain : (buildWith (.ofFiles (circularStyled.map (·.plain))) requestLines
      (.fresh defaultExtensions) "main").1 = .ok circularGraph := by decide +kernel
  refine ⟨hline, (hread _ hline).2 .pair, hfiles, ?_⟩
  rw [hbuild circularStyled hfiles, hplain]

end ModuleBundler
