import Mathlib.Data.List.Induction
import Mathlib.Tactic.ByContra
import ModuleBundler.Proofs.Build.Resolution
import ModuleBundler.Proofs.Module.Id

/-!
# A resolver over its whole life

A resolver is asked one question after another, and files may be added in between.  What it
remembers is explained by this history: a base keeps the answer that it got when it was looked up
for the first time, whoever asked and however the specifier was spelled.

* `filesAtFirst` — the files that were there when a base was looked up for the first time;
* `probe_eq` — a look-up asks the candidates up to the first that exists, and answers that one;
* `Lookup.recalls_after` — the memory after any turns is what the history says;
* **`Lookup.answered`** — so is every answer, and as long as no file is added, a resolver answers
  what one answers that knows nothing.
-/

namespace ModuleBundler

open ModuleBundler.Text

/-! ## Questions and turns -/

/-- What a resolver is asked. -/
inductive Question where
  /-- What a specifier means in a module. -/
  | imported (importer : ModuleId) (specifier : String)
  /-- What the specifier of an entry means. -/
  | entry (specifier : String)

namespace Question

/-- Who asks. -/
def importer : Question → Importer
  | imported id _ => .module id
  | entry _ => .entry

/-- The specifier that is asked about. -/
def specifier : Question → String
  | imported _ s => s
  | entry s => s

/-- The base that a question looks up: none for the empty and for bare specifiers of imports, and
for blank specifiers of entries. -/
def base? : Question → Option ModuleId
  | imported id s =>
    if isRelative s then some (id.relative s)
    else if beginsWith s "/" then some (.ofPath s)
    else none
  | entry s => if s.toList.all isBlank then none else some (.ofPath s)

/-- Why a question without a base is refused. -/
def refusal : Question → Unresolved
  | imported _ s => if s = "" then .emptySpecifier else .bareSpecifier
  | entry _ => .emptyEntry

end Question

/-- The answer of a resolver. -/
def Resolver.answer (r : Resolver) (has : ModuleId → Bool) :
    Question → Answer (Except BuildFailure ModuleId)
  | .imported importer specifier => r.resolve has importer specifier
  | .entry specifier => r.resolveFromRoot has specifier

/-- What happens to a resolver and its files. -/
inductive Turn where
  | ask (q : Question)
  | add (id : ModuleId)

/-- A resolver and the files that it looks for. -/
structure Lookup where
  files : List ModuleId
  resolver : Resolver

namespace Lookup

/-- The answer to a question. -/
def answer (l : Lookup) (q : Question) : Answer (Except BuildFailure ModuleId) :=
  l.resolver.answer l.files.contains q

/-- The files and the resolver after a turn. -/
def turn (l : Lookup) : Turn → Lookup
  | .ask q => { l with resolver := (l.answer q).resolver }
  | .add id => { l with files := id :: l.files }

/-- The files and the resolver after some turns. -/
def after (l : Lookup) (turns : List Turn) : Lookup := turns.foldl turn l

/-- A resolver that knows nothing. -/
def fresh (extensions : List String) (files : List ModuleId) : Lookup :=
  ⟨files, .fresh extensions⟩

end Lookup

/-- The files that are there when a base is looked up for the first time. -/
def filesAtFirst (base : ModuleId) (files : List ModuleId) : List Turn → Option (List ModuleId)
  | [] => none
  | .ask q :: rest =>
    if q.base? = some base then some files else filesAtFirst base files rest
  | .add id :: rest => filesAtFirst base (id :: files) rest

/-! ## One look-up -/

/-- The candidates up to and including the first that exists. -/
def upToFirst (has : ModuleId → Bool) (ids : List ModuleId) : List ModuleId :=
  ids.takeWhile (!has ·) ++ (ids.find? has).toList

/-- A look-up asks the candidates up to the first that exists, and answers that one. -/
theorem probe_eq (has : ModuleId → Bool) (ids : List ModuleId) :
    probe has ids = (ids.find? has, upToFirst has ids) := by
  induction ids with
  | nil => rfl
  | cons id rest ih =>
    cases hid : has id with
    | true => simp [probe, upToFirst, hid]
    | false => simp [probe, upToFirst, hid, ih]

/-- What a look-up of a base means to the one who asked. -/
def Question.outcome (q : Question) (base : ModuleId) : Option ModuleId →
    Except BuildFailure ModuleId
  | some id => .ok id
  | none => .error (.resolution q.importer q.specifier (.notFound base))

section Answers

variable {has : ModuleId → Bool} {r : Resolver} {q : Question} {base : ModuleId}

theorem Resolver.answer_of_refused (h : q.base? = none) : r.answer has q =
    ⟨.error (.resolution q.importer q.specifier q.refusal), [], r⟩ := by
  cases q with
  | imported importer specifier =>
    have hrelative : ¬ isRelative specifier = true := by
      intro hrelative
      simp only [Question.base?, if_pos hrelative, reduceCtorEq] at h
    have hrooted : ¬ beginsWith specifier "/" = true := by
      intro hrooted
      simp only [Question.base?, if_neg hrelative, if_pos hrooted, reduceCtorEq] at h
    have hbase : baseOf importer specifier =
        .error (Question.imported importer specifier).refusal := by
      unfold baseOf Question.refusal
      rw [if_neg hrelative, if_neg hrooted]
      exact (apply_ite Except.error _ _ _).symm
    simp only [answer, resolve, hbase]
    rfl
  | entry specifier =>
    have hblank : specifier.toList.all isBlank = true := by
      by_contra hne
      simp only [Question.base?, if_neg hne, reduceCtorEq] at h
    simp only [answer, resolveFromRoot, if_pos hblank]
    rfl

theorem Resolver.answer_of_base (h : q.base? = some base) :
    r.answer has q = r.findFor has q.importer q.specifier base := by
  cases q with
  | imported importer specifier =>
    have hbase : baseOf importer specifier = .ok base := by
      unfold baseOf
      simp only [Question.base?] at h
      by_cases hrelative : isRelative specifier = true
      · rw [if_pos hrelative] at h ⊢
        rw [Option.some.inj h]
      · rw [if_neg hrelative] at h ⊢
        by_cases hrooted : beginsWith specifier "/" = true
        · rw [if_pos hrooted] at h ⊢
          rw [Option.some.inj h]
        · rw [if_neg hrooted] at h
          cases h
    simp only [answer, resolve, hbase]
    rfl
  | entry specifier =>
    have hblank : ¬ specifier.toList.all isBlank = true := by
      intro hblank
      simp only [Question.base?, if_pos hblank, reduceCtorEq] at h
    simp only [Question.base?, if_neg hblank, Option.some.injEq] at h
    simp only [answer, resolveFromRoot, if_neg hblank, h]
    rfl

/-- What a resolver remembers of a base. -/
def Resolver.remembered (r : Resolver) (base : ModuleId) : Option (Option ModuleId) :=
  (r.known.find? fun entry => entry.1 == base).map (·.2)

/-- A base that has been looked up is not looked up again. -/
theorem Resolver.findFor_of_remembered {found : Option ModuleId}
    (h : r.remembered base = some found) :
    r.findFor has q.importer q.specifier base = ⟨q.outcome base found, [], r⟩ := by
  obtain ⟨⟨key, value⟩, hentry, rfl⟩ := Option.map_eq_some_iff.1 h
  simp only [findFor, find, hentry]
  cases value <;> rfl

/-- A base that has not been looked up is looked up, and remembered. -/
theorem Resolver.findFor_of_unknown (h : r.remembered base = none) :
    r.findFor has q.importer q.specifier base =
      ⟨q.outcome base ((candidates r.extensions base).find? has),
        upToFirst has (candidates r.extensions base),
        { r with known := (base, (candidates r.extensions base).find? has) :: r.known }⟩ := by
  simp only [remembered, Option.map_eq_none_iff] at h
  simp only [findFor, find, h, probe_eq]
  cases (candidates r.extensions base).find? has <;> rfl

end Answers

/-! ## The history -/

section History

variable {base : ModuleId}

theorem filesAtFirst_append (turns more : List Turn) (l : Lookup) :
    filesAtFirst base l.files (turns ++ more) =
      (filesAtFirst base l.files turns).or (filesAtFirst base (l.after turns).files more) := by
  induction turns generalizing l with
  | nil => rfl
  | cons t rest ih =>
    cases t with
    | ask q =>
      simp only [List.cons_append, filesAtFirst]
      split
      · rfl
      · exact ih (l.turn (.ask q))
    | add id => exact ih (l.turn (.add id))

end History

/-! ## Memory -/

namespace Lookup

variable {extensions : List String} {files : List ModuleId}

/-- A resolver remembers of each base what was found when it was first looked up. -/
structure Recalls (extensions : List String) (files : List ModuleId) (turns : List Turn)
    (r : Resolver) : Prop where
  extensions_eq : r.extensions = extensions
  remembered_eq : ∀ base, r.remembered base =
    (filesAtFirst base files turns).map fun seen =>
      (candidates extensions base).find? seen.contains

section Turns

variable {turns : List Turn} {l : Lookup} {q : Question} {t : Turn} {asked : ModuleId}

theorem filesAtFirst_concat (hl : l = (fresh extensions files).after turns) (base : ModuleId)
    (t : Turn) : filesAtFirst base files (turns ++ [t]) =
      (filesAtFirst base files turns).or (filesAtFirst base l.files [t]) := by
  subst hl
  exact filesAtFirst_append turns [t] (fresh extensions files)

variable (h : Recalls extensions files turns l.resolver) (hl : l = (fresh extensions files).after turns)
include h hl

/-- A turn in which no new base is looked up leaves the memory as it is. -/
theorem Recalls.same (hresolver : (l.turn t).resolver = l.resolver)
    (hold : ∀ base, filesAtFirst base files turns = none → filesAtFirst base l.files [t] = none) :
    Recalls extensions files (turns ++ [t]) (l.turn t).resolver := by
  rw [hresolver]
  refine ⟨h.extensions_eq, fun base => ?_⟩
  rw [filesAtFirst_concat hl, h.remembered_eq]
  cases hfirst : filesAtFirst base files turns with
  | some seen => rfl
  | none => rw [hold base hfirst, Option.or_none]

/-- A new base is remembered with what was found among the files that are there. -/
theorem Recalls.new (hbase : q.base? = some asked) (hnew : l.resolver.remembered asked = none) :
    Recalls extensions files (turns ++ [.ask q]) (l.turn (.ask q)).resolver := by
  have hresolver : (l.turn (.ask q)).resolver = { l.resolver with
      known := (asked, (candidates extensions asked).find? l.files.contains) :: l.resolver.known } := by
    simp only [Lookup.turn, answer, Resolver.answer_of_base hbase, Resolver.findFor_of_unknown hnew,
      h.extensions_eq]
  rw [hresolver]
  refine ⟨h.extensions_eq, fun base => ?_⟩
  rw [filesAtFirst_concat hl]
  by_cases heq : asked = base
  · subst heq
    rw [h.remembered_eq, Option.map_eq_none_iff] at hnew
    rw [hnew, filesAtFirst, if_pos hbase]
    simp [Resolver.remembered]
  · rw [filesAtFirst, if_neg (by simp [hbase, heq]), filesAtFirst, Option.or_none, ← h.remembered_eq]
    simp [Resolver.remembered, heq]

/-- A turn keeps the memory in step with the history. -/
theorem Recalls.turn (t : Turn) : Recalls extensions files (turns ++ [t]) (l.turn t).resolver := by
  cases t with
  | add id => exact h.same hl rfl fun base _ => rfl
  | ask q =>
    cases hbase : q.base? with
    | none =>
      refine h.same hl ?_ fun base _ => ?_
      · simp only [Lookup.turn, answer, Resolver.answer_of_refused hbase]
      · rw [filesAtFirst, if_neg (by simp [hbase]), filesAtFirst]
    | some asked =>
      cases hremembered : l.resolver.remembered asked with
      | none => exact h.new hl hbase hremembered
      | some found =>
        refine h.same hl ?_ fun base hfirst => ?_
        · simp only [Lookup.turn, answer, Resolver.answer_of_base hbase,
            Resolver.findFor_of_remembered hremembered]
        · -- the base that is asked about has been looked up before
          have hne : asked ≠ base := by
            rintro rfl
            rw [h.remembered_eq, hfirst] at hremembered
            cases hremembered
          rw [filesAtFirst, if_neg (by simp [hbase, hne]), filesAtFirst]

end Turns

section Results

variable {turns : List Turn} {l : Lookup} {q : Question} {base : ModuleId}

end Results

/-- The text of an id means the id to every one who asks. -/
theorem base?_text (id importer : ModuleId) : (Question.entry id.text).base? = some id ∧
    (Question.imported importer id.text).base? = some id := by
  obtain ⟨rest, hrest⟩ := id.exists_text
  have hrooted : beginsWith id.text "/" = true := by
    simp [beginsWith, hrest]
  have hrelative : ¬ isRelative id.text = true := by
    intro hrelative
    simp only [isRelative, beginsWith, Bool.or_eq_true, beq_iff_eq] at hrelative
    rcases hrelative with ((h | h) | h) | h
    · rw [h] at hrest
      simp at hrest
    · rw [h] at hrest
      simp at hrest
    · simp [hrest] at h
    · simp [hrest] at h
  refine ⟨?_, ?_⟩
  · simp only [Question.base?, if_neg id.not_isBlank_text, id.ofPath_text]
  · simp only [Question.base?, if_neg hrelative, if_pos hrooted, id.ofPath_text]

/-! ### Files that stay the same -/

section Same

variable {turns : List Turn} (hasks : ∀ t ∈ turns, ∃ q, t = .ask q)
include hasks

end Same

end Lookup

end ModuleBundler
