import ModuleBundler.Proofs.LoaderForm.Boundary

/-!
# From a source to its program

A source that is accepted has a program, from which its loader form is made
(`exists_program_of_ofSource`).  Of a source that is given, `codeOf` reads off the characters of its code,
by one evaluation in which nothing has to be sorted.
-/

namespace ModuleBundler.LoaderForm

open ModuleBundler.Syntax ModuleBundler.Text

theorem exists_program_of_ofSource {source : String} {form : LoaderForm}
    (h : ofSource source = .ok form) : ∃ program, checkedProgram source.toList = .ok program ∧
      form = ofProgram source.toList program := by
  unfold ofSource at h
  dsimp only at h
  split at h
  · rename_i program hprogram
    cases h
    exact ⟨program, hprogram, rfl⟩
  · cases h

theorem parse_of_checkedProgram {text : List Char} {program : Node}
    (h : checkedProgram text = .ok program) : parse text = .ok program := by
  unfold checkedProgram at h
  cases hparse : parse text with
  | error f =>
    rw [hparse] at h
    cases h
  | ok made =>
    rw [hparse] at h
    dsimp only [bind, Except.bind] at h
    split at h
    · cases h
      rfl
    · cases h

/-- The characters of the code of a text, for a program whose edits come in the order of the
text. -/
def codeOf (text : List Char) : Option (List Char) :=
  match checkedProgram text with
  | .error _ => none
  | .ok program =>
    if (edits text program).Pairwise (fun a b => Edit.le a b) then
      some ((header program).flatMap (fun line => line.toList ++ ['\n'])
        ++ applyInOrder 0 text (edits text program))
    else none

theorem exists_form_of_codeOf {source : String} {code : List Char}
    (h : codeOf source.toList = some code) :
    ∃ form, ofSource source = .ok form ∧ form.code.toList = code := by
  unfold codeOf at h
  split at h
  · cases h
  rename_i program hprogram
  split at h
  · rename_i hsorted
    cases h
    refine ⟨ofProgram source.toList program, ?_, toList_code_of_sorted hsorted⟩
    unfold ofSource
    dsimp only
    rw [hprogram]
  · cases h

end ModuleBundler.LoaderForm
