import ModuleBundler.Proofs.LoaderForm.Layout
import ModuleBundler.Proofs.LoaderForm.Requiring

/-!
# References that are written over

A reference to an imported name is written over, and every other one is copied.  Which edits meet a
reference is a question of places: the edits of other statements stand where those statements do, the
edits of its own statement stand apart from all references in it, and two references that have a
character in common are one and the same.

* `meets_keptEdits` — in its own statement, a reference meets no edit but the one that replaces it;
* `meets_of_parse` — nor does it in the whole program;
* **`rewriting_of_ofSource`** — so the references of every source that is accepted come out as its imports
  say (`Rewriting`).
-/

namespace ModuleBundler.LoaderForm

open ModuleBundler.Syntax ModuleBundler.Text

/-! ## Edits that meet a reference -/

/-- An edit replaces a reference, which no scope on the way to it declares, by the text for what
stands for its name. -/
def Edit.Replaces (values : List NamedValue) (scopes : List String) (r : OpenReference) (e : Edit) :
    Prop :=
  r.name ∉ scopes ∧ ∃ value, lookup values r.name = some value ∧
    e = ⟨r.span, (referenceText r value).toList⟩

section Statements

variable {text : List Char} {values : List NamedValue} {lo hi : Nat} {n : Node} {e : Edit}
  {scopes : List String} {r : OpenReference}

/-- In a statement that is not an export list, an edit replaces a reference or stands apart from it. -/
theorem meets_keptEdits (h : Placed lo hi n) (hlist : n.label ≠ .exportNames)
    (hr : n.Refers .plain scopes r) (he : e ∈ keptEdits text values n) :
    e.Replaces values scopes r ∨ e.span.Apart r.span := by
  have hplain : isExportList n = false := beq_eq_false_iff_ne.2 hlist
  unfold keptEdits at he
  rw [hplain, List.mem_append] at he
  rcases he with hown | hreference
  · obtain ⟨-, hapart⟩ := laid_ownEdits text h
    exact .inr (hapart hplain e hown r.span hr.covers)
  · obtain ⟨r', scopes', value, hr', hopen, hvalue, rfl⟩ := mem_replacements_iff.1 hreference
    rcases hr'.same_or_apart hr h.hits_le with ⟨rfl, rfl⟩ | hapart
    · exact .inl ⟨hopen, value, hvalue, rfl⟩
    · exact .inr hapart

/-- The edit that replaces a reference is one of its statement. -/
theorem Edit.Replaces.mem_keptEdits (h : e.Replaces values scopes r) (hlist : n.label ≠ .exportNames)
    (hr : n.Refers .plain scopes r) : e ∈ keptEdits text values n := by
  obtain ⟨hopen, value, hvalue, rfl⟩ := h
  have hplain : isExportList n = false := beq_eq_false_iff_ne.2 hlist
  unfold keptEdits
  rw [hplain]
  exact List.mem_append_right _
    (mem_replacements_iff.2 ⟨r, scopes, value, hr, hopen, hvalue, rfl⟩)

end Statements

section Programs

variable {text : List Char} {values : List NamedValue} {program n : Node} {scopes : List String}
  {r : OpenReference}

/-- A statement with a reference in it stands among the others, behind what comes before all of them. -/
theorem exists_placed_of_refers (h : parse text = .ok program) (hn : n ∈ program.children)
    (hr : n.Refers .plain scopes r) : ∃ preamble before after lo first last hi,
      program = .mk .program program.span (preamble :: (before ++ n :: after)) ∧
        preamble.IsPreamble lo ∧ Rows lo first before ∧ Placed first last n ∧ Rows last hi after := by
  obtain ⟨preamble, items, lo, hi, hprogram, hpreamble, hrows, -⟩ := rows_of_parse h
  rw [hprogram] at hn
  rcases List.mem_cons.1 hn with rfl | hitem
  · exact absurd hr hpreamble.not_refers
  · obtain ⟨before, after, first, last, rfl, hbefore, hplaced, hafter⟩ := hrows.exists_split hitem
    exact ⟨preamble, before, after, lo, first, last, hi, hprogram, hpreamble, hbefore, hplaced, hafter⟩

/-- In a program that was parsed, an edit that is not inside of another one replaces a reference or stands
apart from it. -/
theorem meets_of_parse (h : parse text = .ok program) (hn : n ∈ program.children)
    (hlist : n.label ≠ .exportNames) (hr : n.Refers .plain scopes r) {e : Edit}
    (he : e ∈ hashbangEdits program ++ program.children.flatMap (keptEdits text values)) :
    e.Replaces values scopes r ∨ e.span.Apart r.span := by
  obtain ⟨preamble, before, after, lo, first, last, hi, hprogram, hpreamble, hbefore, hplaced, hafter⟩ :=
    exists_placed_of_refers h hn hr
  obtain ⟨hfirst, hlast⟩ := hplaced.within_span hr.covers
  have hbeforeLaid := laid_rows text values hbefore
  have hafterLaid := laid_rows text values hafter
  have hchildren : program.children.flatMap (keptEdits text values) =
      before.flatMap (keptEdits text values) ++
        (keptEdits text values n ++ after.flatMap (keptEdits text values)) := by
    rw [hprogram]
    show (preamble :: (before ++ n :: after)).flatMap _ = _
    rw [List.flatMap_cons, (edits_preamble text values hpreamble).1, List.nil_append,
      List.flatMap_append, List.flatMap_cons]
  rw [hchildren, List.mem_append, List.mem_append, List.mem_append] at he
  rcases he with hbang | hearlier | hown | hlater
  · rw [hprogram] at hbang
    have hstop := ((laid_preamble _ _ hpreamble).bounded e hbang).2.2
    exact .inr (.inl (Nat.le_trans hstop (Nat.le_trans hbeforeLaid.le hfirst)))
  · have hstop := (hbeforeLaid.bounded e hearlier).2.2
    exact .inr (.inl (Nat.le_trans hstop hfirst))
  · exact meets_keptEdits hplaced hlist hr hown
  · have hstart := (hafterLaid.bounded e hlater).1
    exact .inr (.inr (Nat.le_trans hlast hstart))

/-- Of the edits that are made, exactly those meet a reference that replace it. -/
theorem made_and_meets_iff (h : parse text = .ok program) (hn : n ∈ program.children)
    (hlist : n.label ≠ .exportNames) (hr : n.Refers .plain scopes r) (e : Edit) :
    (e ∈ madeFrom 0 (orderedEdits text program) ∧ ¬ e.span.Apart r.span) ↔
      e.Replaces (imports program) scopes r := by
  have hmade := (edited_of_parse h).made.mem_iff (a := e)
  constructor
  · rintro ⟨he, hmeets⟩
    exact (meets_of_parse h hn hlist hr (hmade.1 he)).resolve_right hmeets
  · intro hreplaces
    refine ⟨hmade.2 (List.mem_append_right _ (List.mem_flatMap.2 ⟨n, hn, ?_⟩)), ?_⟩
    · exact hreplaces.mem_keptEdits hlist hr
    · -- a reference is not empty, and so it does not stand apart from itself
      obtain ⟨-, value, -, rfl⟩ := hreplaces
      obtain ⟨-, -, -, -, _, _, -, -, -, -, hplaced, -⟩ := exists_placed_of_refers h hn hr
      have hlt := hplaced.start_lt_stop hr.covers
      rintro (hle | hle) <;> exact absurd hlt (Nat.not_lt.2 hle)

end Programs

/-! ## The law -/

/-- The references of a text come out of it as the imports of its items say. -/
structure Rewriting (text : List Char) (program : Node) (items : List Item) (body : List Char) :
    Prop where
  /-- The spans of the edits that are made are replaced, and everything else is copied. -/
  replaced : Replaced 0 text (madeFrom 0 (orderedEdits text program)) body
  /-- In a statement that is not an export list, an edit that is made meets a reference exactly if it
  writes over it what reads an import of its name, and no scope on the way to it declares the name. -/
  meets_iff : ∀ n ∈ program.children, n.label ≠ .exportNames → ∀ scopes r, n.Refers .plain scopes r →
    ∀ e, (e ∈ madeFrom 0 (orderedEdits text program) ∧ ¬ e.span.Apart r.span) ↔
      r.name ∉ scopes ∧ ∃ i value, ImportedAs items i r.name value ∧
        e = ⟨r.span, (referenceText r value).toList⟩
  /-- What stands for an imported name is what one item imports under it. -/
  unique : ∀ i j name value value', ImportedAs items i name value → ImportedAs items j name value' →
    i = j ∧ value = value'
  /-- The variable of an item that imports names is declared by the line that loads its source. -/
  loaded : ∀ i source b bindings, items[i]? = some (.imports source (b :: bindings)) →
    ⟨some (holderAt items i), source⟩ ∈ loadLines program
  /-- As program text, what is written for an import reads what it selects from that variable, exactly if
  a name that is written behind a point is a name of the language. -/
  read_iff : ∀ i (selection : Selection),
    selection.ReadBy (holderAt items i) (tokens (selection.read (holderAt items i))) ↔
      ∀ name, selection = .named name → isIdentifier name = true → IsName name

/-- In every source that is accepted, exactly the references are written over that mean an imported name,
and what is written reads what is imported if a name behind a point is a name of the language. -/
theorem rewriting_of_ofSource {source : String} {form : LoaderForm} (h : ofSource source = .ok form) :
    ∃ program items body, checkedProgram source.toList = .ok program ∧
      List.Forall₂ Means program.children items ∧
      form.code = endLines (header program) ++ String.ofList body ∧
      Rewriting source.toList program items body := by
  obtain ⟨program, items, hprogram, rfl, hitems, hnames⟩ := exists_items_of_ofSource h
  have hparse := parse_of_checkedProgram hprogram
  have hreplaced := (edited_of_parse hparse).replaced
  refine ⟨program, items, _, hprogram, hitems, rfl, hreplaced, ?_, ?_, ?_, ?_⟩
  case refine_1 =>
    intro n hn hlist scopes r hr e
    rw [made_and_meets_iff hparse hn hlist hr]
    refine and_congr_right fun _ => ?_
    constructor
    · rintro ⟨value, hvalue, he⟩
      obtain ⟨i, hi⟩ := (lookup_imports_iff hitems hnames).1 hvalue
      exact ⟨i, value, hi, he⟩
    · rintro ⟨i, value, hi, he⟩
      exact ⟨value, (lookup_imports_iff hitems hnames).2 ⟨i, hi⟩, he⟩
  case refine_2 => exact fun i j name value value' hi hj => hi.unique hnames hj
  case refine_3 => exact fun i source b bindings hitem => mem_loadLines_of_imports hitems hitem
  case refine_4 => exact fun i selection => selection.readBy_iff (keptBefore items i)

/-- A name is imported under another one, called, and shadowed by a parameter; a namespace stands in a
property that is written in short. -/
def shadowedSource : String :=
  "import \x7ba as b\x7d from './m.js';\nimport * as ns from './n.js';\nb();\n" ++
    "function f(b) \x7b return [b, \x7bns\x7d]; \x7d\n"

/-- What becomes of it: the parameter and the references to it are copied. -/
def shadowedCode : String :=
  "\"use strict\";\nvar __dep0 = require(\"./m.js\");\nvar __dep1 = require(\"./n.js\");\n\n\n" ++
    "(0, __dep0.a)();\nfunction f(b) \x7b return [b, \x7bns: __dep1\x7d]; \x7d\n"

theorem shadowedSource_rewriting : ∃ form, ofSource shadowedSource = .ok form ∧
    form.code.toList = shadowedCode.toList ∧
    ∃ program items body, checkedProgram shadowedSource.toList = .ok program ∧
      List.Forall₂ Means program.children items ∧
      form.code = endLines (header program) ++ String.ofList body ∧
      Rewriting shadowedSource.toList program items body := by
  have hlowered : codeOf shadowedSource.toList = some shadowedCode.toList := by decide +kernel
  obtain ⟨form, hform, hcode⟩ := exists_form_of_codeOf hlowered
  exact ⟨form, hform, hcode, rewriting_of_ofSource hform⟩

end ModuleBundler.LoaderForm
