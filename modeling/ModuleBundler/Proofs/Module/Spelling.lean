import Mathlib.Data.List.Basic
import ModuleBundler.Proofs.Module.Id

/-!
# Spellings of one place

A path is taken part by part: an empty part and a single point mean the same place, two points lead
back, and any other part leads on.  `Stacks` says so of a stack of parts, and says nothing of texts.
An id is a text, which is written from its segments and divided again whenever a path is followed
from it.

* `followParts_append` — parts behind others are taken where the first ones lead;
* `textSegments_text` — the segments of an id are read off its text, and `dir_toList` says which part
  of that text is the directory;
* **`ofPath_canonical`** — the laws of ids, of all texts: which texts are ids, what they keep of a
  path, and which paths give one id.
-/

namespace ModuleBundler

open ModuleBundler.Text

/-! ## Paths behind each other -/

theorem followParts_append (segments first second : List String) :
    followParts segments (first ++ second) = followParts (followParts segments first) second :=
  List.foldl_append

theorem followParts_cons (segments : List String) (part : String) (parts : List String) :
    followParts segments (part :: parts) = followParts (followPart segments part) parts := rfl

/-! ## Stacks of parts -/

/-- What is on a stack, its top first, after parts were taken one by one: an empty part and a single
point leave it as it is, two points take away what is on top, if there is anything, and any other part
is put there. -/
inductive Stacks : List String → List String → List String → Prop
  | done (stack : List String) : Stacks stack [] stack
  | stay {part : String} {stack parts out : List String} :
      part = "" ∨ part = "." → Stacks stack parts out → Stacks stack (part :: parts) out
  | back {top : String} {stack parts out : List String} :
      Stacks stack parts out → Stacks (top :: stack) (".." :: parts) out
  | bottom {parts out : List String} : Stacks [] parts out → Stacks [] (".." :: parts) out
  | enter {part : String} {stack parts out : List String} :
      part ≠ "" → part ≠ "." → part ≠ ".." → Stacks (part :: stack) parts out →
      Stacks stack (part :: parts) out

/-- Following a path and taking its parts on a stack come to the same. -/
theorem stacks_iff {stack parts out : List String} :
    Stacks stack parts out ↔ out = (followParts stack.reverse parts).reverse := by
  constructor
  · intro h
    induction h with
    | done stack => exact (List.reverse_reverse stack).symm
    | @stay part stack parts out hpart _ ih =>
      rw [followParts_cons, followPart, if_pos hpart]
      exact ih
    | @back top stack parts out _ ih =>
      rw [followParts_cons, followPart, if_neg (by decide), if_pos rfl, List.reverse_cons,
        List.dropLast_concat]
      exact ih
    | bottom _ ih => exact ih
    | @enter part stack parts out hempty hpoint hpoints _ ih =>
      rw [followParts_cons, followPart, if_neg (not_or.2 ⟨hempty, hpoint⟩), if_neg hpoints,
        ← List.reverse_cons]
      exact ih
  · rintro rfl
    induction parts generalizing stack with
    | nil =>
      show Stacks stack [] stack.reverse.reverse
      rw [List.reverse_reverse]
      exact .done stack
    | cons part parts ih =>
      rw [followParts_cons, followPart]
      split_ifs with hstay hback
      · exact .stay hstay ih
      · subst hback
        cases stack with
        | nil => exact .bottom ih
        | cons top stack =>
          rw [List.reverse_cons, List.dropLast_concat]
          exact .back ih
      · rw [← List.reverse_cons]
        exact .enter (fun h => hstay (.inl h)) (fun h => hstay (.inr h)) hback ih

/-! ## The text of an id -/

/-- The parts of a text between slashes that are not empty. -/
def textSegments (text : String) : List String := (slashParts text).filter (· != "")

namespace ModuleId

/-- The segments of an id stand in its text. -/
theorem textSegments_text (id : ModuleId) : textSegments id.text = id.segments := by
  unfold textSegments text
  by_cases hne : id.segments = []
  · rw [hne]
    rfl
  · rw [slashParts_render id.proper hne, List.filter_cons_of_neg (by decide)]
    exact List.filter_eq_self.2 fun s hs => bne_iff_ne.2 (id.proper s hs).1

/-- The text of an id is a slash, or its segments with a slash in front of each. -/
theorem text_cases (id : ModuleId) :
    id.text = "/" ∧ id.segments = [] ∨
      id.segments ≠ [] ∧ id.text = String.join (id.segments.map ("/" ++ ·)) := by
  unfold text render
  by_cases hne : id.segments = []
  · exact .inl ⟨by rw [hne]; rfl, hne⟩
  · exact .inr ⟨hne, if_neg fun h => hne (List.isEmpty_iff.1 h)⟩

/-- The directory of an id is the text before its last slash, or a slash if that is empty. -/
theorem dir_toList (id : ModuleId) {before name : List Char}
    (htext : id.text.toList = before ++ '/' :: name) (hname : '/' ∉ name) :
    id.dir.toList = if before = [] then ['/'] else before := by
  unfold text at htext
  unfold dir
  rcases List.eq_nil_or_concat' id.segments with hnil | ⟨segments, last, hsegments⟩
  · rw [hnil] at htext ⊢
    have hroot : [] ++ '/' :: [] = before ++ '/' :: name := htext
    obtain ⟨rfl, -⟩ := append_slash_inj hroot List.not_mem_nil hname
    rfl
  · have hlast := id.proper last (by rw [hsegments]; exact List.mem_concat_self)
    rw [hsegments, toList_render (List.concat_ne_nil _ _), List.map_append, List.flatMap_append,
      List.map_singleton, List.flatMap_singleton] at htext
    obtain ⟨rfl, -⟩ := append_slash_inj htext hlast.2.2.2 hname
    rw [hsegments, List.dropLast_concat]
    cases segments with
    | nil => rfl
    | cons first rest =>
      rw [toList_render (List.cons_ne_nil _ _), List.map_cons, List.flatMap_cons, List.cons_append,
        if_neg (List.cons_ne_nil _ _)]

/-- A path is followed from the segments of the directory. -/
theorem segments_relative (id : ModuleId) (path : String) :
    (id.relative path).segments = followParts id.segments.dropLast (slashParts path) := by
  show followParts [] (slashParts (id.dir ++ "/" ++ path)) = _
  rw [slashParts_append, followParts_append]
  congr 1
  unfold dir
  by_cases hne : id.segments.dropLast = []
  · rw [hne]
    rfl
  · have hproper : ∀ s ∈ id.segments.dropLast, IsSegment s :=
      fun s hs => id.proper s (List.dropLast_subset _ hs)
    rw [slashParts_render hproper hne, followParts_cons]
    exact (followParts_of_isSegment hproper).trans (List.nil_append _)

theorem segments_ofPath (path : String) :
    (ofPath path).segments = followParts [] (slashParts path) := rfl

/-- The segments of the directory of an id, read off its text, the last one on top of a stack. -/
def directoryStack (id : ModuleId) : List String := (textSegments id.text).dropLast.reverse

theorem stacks_ofPath (path : String) {out : List String} :
    Stacks [] (slashParts path) out ↔ out = (textSegments (ofPath path).text).reverse := by
  rw [stacks_iff, textSegments_text]
  rfl

theorem stacks_relative (id : ModuleId) (path : String) {out : List String} :
    Stacks id.directoryStack (slashParts path) out ↔
      out = (textSegments (id.relative path).text).reverse := by
  unfold directoryStack
  rw [stacks_iff, List.reverse_reverse, textSegments_text, textSegments_text, segments_relative]

/-- Two ids are one if the same segments stand in their texts. -/
theorem eq_iff_textSegments {a b : ModuleId} :
    a = b ↔ (textSegments a.text).reverse = (textSegments b.text).reverse := by
  rw [List.reverse_inj, textSegments_text, textSegments_text]
  exact ⟨congrArg segments, eq_of_segments_eq⟩

/-- A text is read as an id: a slash, or proper segments with a slash in front of each, which are what
the parts of the text leave on a stack.  Reading an id gives the id, and so does reading it in front of
a path.  A path from the directory of an id leaves what it leaves on the segments of that directory, so
that two paths give one id exactly if they leave one stack, wherever each of them starts. -/
theorem ofPath_canonical (p q : String) :
    ((ofPath p).text = "/" ∨ ∃ segments, segments ≠ [] ∧ (∀ s ∈ segments, IsSegment s) ∧
      (ofPath p).text = String.join (segments.map ("/" ++ ·))) ∧
    Stacks [] (slashParts p) (textSegments (ofPath p).text).reverse ∧
    ofPath (ofPath p).text = ofPath p ∧
    ofPath (p ++ "/" ++ q) = ofPath ((ofPath p).text ++ "/" ++ q) ∧
    (∀ (id : ModuleId) (r : String),
      Stacks id.directoryStack (slashParts r) (textSegments (id.relative r).text).reverse) ∧
    (∀ (a b : ModuleId) (r s : String), a.relative r = b.relative s ↔
      ∃ out, Stacks a.directoryStack (slashParts r) out ∧ Stacks b.directoryStack (slashParts s) out) ∧
    ∀ (a : ModuleId) (r s : String), a.relative r = ofPath s ↔
      ∃ out, Stacks a.directoryStack (slashParts r) out ∧ Stacks [] (slashParts s) out := by
  refine ⟨?_, (stacks_ofPath p).2 rfl, ofPath_text _, ?_, fun id r => (stacks_relative id r).2 rfl,
    fun a b r s => ?_, fun a r s => ?_⟩
  · exact (ofPath p).text_cases.imp And.left fun ⟨hne, htext⟩ => ⟨_, hne, (ofPath p).proper, htext⟩
  · refine eq_of_segments_eq ?_
    rw [segments_ofPath, segments_ofPath, slashParts_append, slashParts_append, followParts_append,
      followParts_append, ← segments_ofPath p, ← segments_ofPath (ofPath p).text, ofPath_text]
  · simp only [stacks_relative, exists_eq_left, eq_iff_textSegments]
  · simp only [stacks_relative, stacks_ofPath, exists_eq_left, eq_iff_textSegments]

end ModuleId

end ModuleBundler
