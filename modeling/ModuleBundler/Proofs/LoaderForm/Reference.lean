import ModuleBundler.Proofs.LoaderForm.Header
import ModuleBundler.Proofs.Syntax.Property
import ModuleBundler.Proofs.Syntax.Scope

/-!
# References to imported names

Loader form writes over the references that mean an imported name.  Which references these are
follows from the scopes around them, and what is written follows from the import.

* **`mem_referenceEdits_iff`** — a reference is written over exactly if no scope on the way to it
  declares its name and something stands for the name;
* **`readBy_iff`** — what is written for an import, read as program text, is the variable of the
  request or a member of it, exactly if a name that is written behind a point is a name of the language.

The last condition can fail (`not_selectionsRead_of_superscript`): which names are written behind a
point is decided by properties of characters that are no part of the language.
-/

namespace ModuleBundler.LoaderForm

open ModuleBundler.Syntax ModuleBundler.Text

/-! ## Written over -/

/-- Of the references in a node, those are replaced whose name no scope on the way to them declares and
something stands for. -/
theorem mem_replacements_iff {values : List NamedValue} {n : Node} {e : Edit} :
    e ∈ (n.openReferences .plain []).filterMap (fun r =>
        (lookup values r.name).map fun value => ⟨r.span, (referenceText r value).toList⟩) ↔
      ∃ r scopes value, n.Refers .plain scopes r ∧ r.name ∉ scopes ∧
        lookup values r.name = some value ∧ e = ⟨r.span, (referenceText r value).toList⟩ := by
  rw [List.mem_filterMap]
  constructor
  · rintro ⟨r, hr, hedit⟩
    obtain ⟨value, hvalue, rfl⟩ := Option.map_eq_some_iff.1 hedit
    obtain ⟨scopes, hrefers, hscopes⟩ := Node.mem_openReferences_nil_iff.1 hr
    exact ⟨r, scopes, value, hrefers, hscopes, hvalue, rfl⟩
  · rintro ⟨r, scopes, value, hrefers, hscopes, hvalue, rfl⟩
    refine ⟨r, Node.mem_openReferences_nil_iff.2 ⟨scopes, hrefers, hscopes⟩, ?_⟩
    rw [hvalue, Option.map_some]

/-- A reference is written over exactly if no scope on the way to it declares its name and something
stands for the name. -/
theorem mem_referenceEdits_iff {program : Node} {e : Edit} : e ∈ referenceEdits program ↔
    ∃ r scopes value, program.Refers .plain scopes r ∧ r.name ∉ scopes ∧
      lookup (imports program) r.name = some value ∧
      e = ⟨r.span, (referenceText r value).toList⟩ := by
  rw [← mem_replacements_iff]
  unfold referenceEdits
  dsimp only
  split
  · rename_i hempty
    rw [List.isEmpty_iff.1 hempty]
    simp [lookup]
  · exact Iff.rfl

/-! ## What is written -/

/-- Tokens read what an import selects of the module in a variable: the module itself, or a member by
its name, behind a point or as a literal in brackets. -/
def Selection.ReadBy (holder : String) : Selection → List Token.Kind → Prop
  | .all, kinds => kinds = [.word holder false]
  | .named name, kinds =>
    kinds = [.word holder false, .punct .dot, .word name false] ∨
      ∃ raw, kinds =
        [.word holder false, .punct .leftBracket, .string name true raw, .punct .rightBracket]

/-- What is written for a selection reads it exactly if a name that is written behind a point is one. -/
theorem Selection.readBy_iff (i : Nat) (s : Selection) :
    s.ReadBy (moduleVariable i) (tokens (s.read (moduleVariable i))) ↔
      ∀ name, s = .named name → isIdentifier name = true → IsName name := by
  have hholder : IsName (moduleVariable i) := isName_moduleVariable i
  cases s with
  | all =>
    have hread : tokens (moduleVariable i) = [.word (moduleVariable i) false] :=
      tokens_eq_word_iff.2 hholder
    exact ⟨fun _ name hall => Selection.noConfusion hall, fun _ => hread⟩
  | named name =>
    constructor
    · rintro hread _ ⟨⟩ hpoint
      have hreads : ReadsProperty (moduleVariable i) name
          (tokens (readProperty (moduleVariable i) name)) := hread
      rw [readProperty_of_isIdentifier hpoint] at hreads
      exact isName_of_readsProperty hholder hpoint hreads
    · intro hname
      unfold Selection.read readProperty
      dsimp only
      split
      · rename_i hpoint
        exact Or.inl (tokens_point hholder (hname name rfl hpoint))
      · exact Or.inr (tokens_brackets hholder name)

/-! ## What a program reads -/

/-- The local names of a request, and what they select. -/
def PlacedRequest.bindings (r : PlacedRequest) : List ImportBinding :=
  match r.request with
  | .bind bindings => bindings
  | _ => []

/-- What stands for the imported names of a program reads what their imports select. -/
def SelectionsRead (program : Node) : Prop :=
  ∀ p ∈ requests program, ∀ b ∈ p.bindings,
    b.selection.ReadBy p.holder (tokens (b.selection.read p.holder))

/-- The superscript two is numeric, but no part of a name: `import {"a²" as x} from './m.js'`. -/
def superscriptSource : String := "import \x7b\"a²\" as x\x7d from './m.js';\nx;\n"

/-- The name `a²` is written behind a point, where it is no name. -/
theorem not_selectionsRead_of_superscript :
    ¬ ∀ program, checkedProgram superscriptSource.toList = .ok program → SelectionsRead program := by
  intro h
  have hbindings : (checkedProgram superscriptSource.toList).map (fun program =>
      (requests program).map fun p => (p.holder, p.bindings.map (·.selection))) =
      .ok [("__dep0", [.named "a²"])] := by decide +kernel
  have htokens : tokens ((Selection.named "a²").read "__dep0") =
      [.word "__dep0" false, .punct .dot, .word "a" false, .unknown] := by decide +kernel
  rcases hprogram : checkedProgram superscriptSource.toList with e | program <;>
    rw [hprogram] at hbindings
  · cases hbindings
  · have hrequests : (requests program).map (fun p => (p.holder, p.bindings.map (·.selection))) =
        [("__dep0", [.named "a²"])] := Except.ok.inj hbindings
    obtain ⟨p, hp, hpair⟩ : ∃ p ∈ requests program,
        (p.holder, p.bindings.map (·.selection)) = ("__dep0", [.named "a²"]) := by
      rw [← List.mem_map, hrequests]
      exact List.mem_singleton_self _
    obtain ⟨hholder, hselections⟩ := Prod.mk.inj hpair
    obtain ⟨b, hb, hselection⟩ : ∃ b ∈ p.bindings, b.selection = .named "a²" := by
      rw [← List.mem_map, hselections]
      exact List.mem_singleton_self _
    have hread := h program hprogram p hp b hb
    rw [hholder, hselection, htokens] at hread
    rcases hread with hpoint | ⟨raw, hbrackets⟩
    · exact absurd hpoint (by decide)
    · cases hbrackets

end ModuleBundler.LoaderForm
