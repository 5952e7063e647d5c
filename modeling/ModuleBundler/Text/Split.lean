/-!
# Texts divided by a character

`splitAtChar` gives the pieces of a text between separators, empty pieces included: there is one
more of them than there are separators, and none contains the separator
(`separator_not_mem_splitAtChar`).
-/

namespace ModuleBundler.Text

/-- The pieces of a list of characters between separators. -/
def splitAtChar (separator : Char) : List Char → List (List Char)
  | [] => [[]]
  | c :: rest =>
    if c = separator then [] :: splitAtChar separator rest
    else
      match splitAtChar separator rest with
      | [] => [[c]]
      | piece :: pieces => (c :: piece) :: pieces

/-- A piece does not contain the separator. -/
theorem separator_not_mem_splitAtChar (separator : Char) (text : List Char) :
    ∀ piece ∈ splitAtChar separator text, separator ∉ piece := by
  induction text with
  | nil => simp [splitAtChar]
  | cons c rest ih =>
    intro piece h
    unfold splitAtChar at h
    split at h
    · rcases List.mem_cons.1 h with rfl | h
      · simp
      · exact ih piece h
    · rename_i hc
      split at h
      · simp only [List.mem_singleton] at h
        subst h
        simpa using fun hs => hc hs.symm
      · rename_i head tail hp
        rcases List.mem_cons.1 h with rfl | h
        · have := ih head (by simp [hp])
          simp only [List.mem_cons, not_or]
          exact ⟨fun hs => hc hs.symm, this⟩
        · exact ih piece (by simp [hp, h])

end ModuleBundler.Text
