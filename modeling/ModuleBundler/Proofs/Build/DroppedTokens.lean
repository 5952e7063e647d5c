import ModuleBundler.Proofs.Build.SourceMapRounds
import ModuleBundler.Proofs.Syntax.TokenSequence

/-!
# Tokens of a module without its source map comment

The comment that names a source map is found by its characters, and not by the reader of program text.
What looks like one can stand in a block comment or in a regular expression.

* `Dropped.head_mem` — what is dropped begins with a line end, a blank or a slash, so no token in front
  of it is read in another way without it;
* **`toLoaderForm_readTokens_iff`** — the code of a module has the tokens of its loader form exactly if
  what is dropped stands apart from them;
* `not_readTokens_of_openComment` — it need not.
-/

namespace ModuleBundler

open ModuleBundler.Syntax ModuleBundler.Text

/-- What is dropped begins with the line end, the blanks or the comment. -/
theorem Dropped.head_mem {text front tail : List Char} (h : Dropped text front tail) :
    ∃ first more, tail = first :: more ∧ first ∈ breaks := by
  obtain ⟨lineEnd, hend, blanks, comment, heq, hblanks, hcomment⟩ :=
    isSourceMapTail_iff.1 h.tail_true
  simp only [List.mem_cons, List.not_mem_nil, or_false] at hend
  rcases hend with rfl | rfl | rfl
  · cases blanks with
    | nil =>
      cases hcomment
      exact ⟨_, _, heq, by decide⟩
    | cons blank blanks =>
      refine ⟨blank, _, heq, ?_⟩
      have hblank := hblanks blank List.mem_cons_self
      simp only [isLineBlank, Bool.or_eq_true, beq_iff_eq] at hblank
      rcases hblank with rfl | rfl <;> decide
  · exact ⟨'\n', _, heq, by decide⟩
  · exact ⟨'\r', _, heq, by decide⟩

/-- The tokens of a text are left exactly if what is dropped stands apart from them. -/
theorem Dropped.readTokens_iff {text front tail : List Char} (h : Dropped text front tail)
    {goals : List TokenGoal} {tokens : List Token} (hread : readTokens goals text = some tokens) :
    readTokens goals (dropSourceMapComment text) = some tokens ↔ StandsApart front tokens := by
  obtain ⟨first, more, htail, hfirst⟩ := h.head_mem
  rw [h.text_eq, htail] at hread
  rw [h.dropSourceMapComment_eq]
  exact readTokens_feed_iff hfirst hread

/-- The code of a module is its loader form, if this ends in no comment that names a source map.
Otherwise it has the same tokens exactly if what is dropped stands apart from them. -/
theorem toLoaderForm_readTokens_iff {id : ModuleId} {source : String} {form : LoaderForm}
    (h : LoaderForm.ofSource source = .ok form) :
    ∃ transformed, toLoaderForm id source = .ok transformed ∧
      (¬ EndsInComment form.code.toList → transformed.code = form.code) ∧
      ∀ front tail, Dropped form.code.toList front tail → ∀ goals tokens,
        readTokens goals form.code.toList = some tokens →
        (readTokens goals transformed.code.toList = some tokens ↔ StandsApart front tokens) := by
  refine ⟨⟨form.requested, String.ofList (dropSourceMapComment form.code.toList)⟩, ?_, ?_, ?_⟩
  · unfold toLoaderForm
    rw [h]
  · intro hends
    dsimp only
    rw [dropSourceMapComment_of_not_endsInComment hends, String.ofList_toList]
  · intro front tail hdropped goals tokens hread
    rw [String.toList_ofList]
    exact hdropped.readTokens_iff hread

/-- A module with its comment in a block comment. -/
def commentedSource : String := "let a = 1;\n/*\n//# sourceMappingURL=a.map*/\n"

/-- The module is accepted, and its tokens are compared with those of its loader form. -/
theorem commentedSource_readTokens : ∃ form, LoaderForm.ofSource commentedSource = .ok form ∧
    ∃ transformed, toLoaderForm (.ofPath "/mod.js") commentedSource = .ok transformed ∧
      (¬ EndsInComment form.code.toList → transformed.code = form.code) ∧
      ∀ front tail, Dropped form.code.toList front tail → ∀ goals tokens,
        readTokens goals form.code.toList = some tokens →
        (readTokens goals transformed.code.toList = some tokens ↔ StandsApart front tokens) := by
  have hok : (LoaderForm.ofSource commentedSource).isOk = true := by decide +kernel
  cases hform : LoaderForm.ofSource commentedSource with
  | error d =>
    rw [hform] at hok
    cases hok
  | ok form => exact ⟨form, rfl, toLoaderForm_readTokens_iff hform⟩

/-- The beginning of a block comment can be left without its end, and then nothing can be read behind
the last token. -/
theorem not_readTokens_of_openComment : ¬ ∀ (id : ModuleId) source form transformed,
    LoaderForm.ofSource source = .ok form → toLoaderForm id source = .ok transformed →
      ∀ goals tokens, readTokens goals form.code.toList = some tokens →
        readTokens goals transformed.code.toList = some tokens := by
  intro h
  let goals := List.replicate 7 TokenGoal.plain
  have hbefore : (LoaderForm.ofSource commentedSource).map
      (fun form => (readTokens goals form.code.toList).isSome) = .ok true := by decide +kernel
  have hbehind : (toLoaderForm (.ofPath "/mod.js") commentedSource).map
      (fun transformed => readTokens goals transformed.code.toList) = .ok none := by decide +kernel
  cases hform : LoaderForm.ofSource commentedSource with
  | error d =>
    rw [hform] at hbefore
    cases hbefore
  | ok form =>
    cases htransformed : toLoaderForm (.ofPath "/mod.js") commentedSource with
    | error e =>
      rw [htransformed] at hbehind
      cases hbehind
    | ok transformed =>
      rw [hform] at hbefore
      rw [htransformed] at hbehind
      obtain ⟨tokens, hread⟩ := Option.isSome_iff_exists.1 (Except.ok.inj hbefore)
      have hkept := h _ _ form transformed hform htransformed goals tokens hread
      cases hkept.symm.trans (Except.ok.inj hbehind)

end ModuleBundler
