import ModuleBundler.Proofs.LoaderForm.Layout
import ModuleBundler.Proofs.LoaderForm.Placement

/-!
# Loader form of loader form

A program without imports and exports is copied behind the first line of its loader form.  What
loader form writes has none, so bringing it into loader form again should add that line and do
nothing else (`Relowers`).

* `child_zero_of_parse` — a program has a hashbang only if its first token is one, so what loader
  form writes has none;
* `relowers_of_codePlain` — the law holds wherever the text that is written is a program without
  imports and exports;
* `codePlain_of_relowers` — and only there, because an import or an export would be requested or
  published, or some of it taken away;
* **`relowers_iff_codePlain`** — so the law comes down to what the text is read as;
* `not_relowers_of_pattern` — it need not be a program: an object pattern that names its
  target in short has no room for the expression that stands for an imported name.

How the grammar reads a text that has been edited is not looked into, so no condition on the source takes
the place of the one on what is written.
-/

namespace ModuleBundler.LoaderForm

open ModuleBundler.Syntax ModuleBundler.Text

/-! ## The beginning of a program -/

/-- A program begins with a hashbang only if its first token is one. -/
theorem child_zero_of_program {depth : Nat} {s t : ParseState} {program : Node}
    (h : Grammar.program depth s = .ok (program, t)) (hs : s.token.kind ≠ .hashbang) :
    program.child 0 = .absent := by
  unfold Grammar.program at h
  obtain ⟨token, behind, htoken, h⟩ := Parse.bind_ok h
  cases htoken
  dsimp only at h
  rw [if_neg (by rw [beq_iff_eq]; exact hs)] at h
  obtain ⟨hashbang, _, hhashbang, h⟩ := Parse.bind_ok h
  cases hhashbang
  obtain ⟨items, _, -, h⟩ := Parse.bind_ok h
  obtain ⟨state, _, -, h⟩ := Parse.bind_ok h
  cases h
  rfl

theorem child_zero_of_parse {text : List Char} {program : Node} (h : parse text = .ok program)
    (hfirst : (Token.read (text.length + 2) ⟨text, 0⟩).token.kind ≠ .hashbang) :
    program.child 0 = .absent := by
  obtain ⟨-, t, hprogram⟩ := parse_ok h
  exact child_zero_of_program hprogram hfirst

/-- What loader form writes begins with the directive of strict code. -/
theorem begins_code (text : List Char) (program : Node) : ∃ raw rest,
    Begins (ofProgram text program).code.toList (.string "use strict" true raw) rest := by
  obtain ⟨rest, hrest⟩ : ∃ rest,
      (ofProgram text program).code.toList = (quote "use strict").toList ++ rest := by
    rw [toList_code]
    unfold header
    rw [List.cons_append, List.flatMap_cons, List.append_assoc]
    exact ⟨_, rfl⟩
  rw [hrest]
  exact ⟨_, rest, begins_quote "use strict" rest⟩

/-! ## Loader form once more -/

/-- The code of a source is a program without imports and exports. -/
def CodePlain (source : String) : Prop :=
  ∀ form, ofSource source = .ok form → ∃ lowered, checkedProgram form.code.toList = .ok lowered ∧
    ∀ n ∈ lowered.children, isModuleItem n = false

/-- Bringing the code of a source into loader form adds the first line and does nothing else. -/
def Relowers (source : String) : Prop :=
  ∀ form, ofSource source = .ok form →
    ofSource form.code = .ok ⟨[], [], "\"use strict\";\n" ++ form.code⟩

/-- The law holds wherever the code is a program without imports and exports. -/
theorem relowers_of_codePlain {source : String} (h : CodePlain source) : Relowers source := by
  intro form hform
  obtain ⟨lowered, hlowered, hplain⟩ := h form hform
  obtain ⟨program, -, rfl⟩ := exists_program_of_ofSource hform
  have hbang : (lowered.child 0).label ≠ .hashbang := by
    obtain ⟨raw, rest, hbegins⟩ := begins_code source.toList program
    obtain ⟨lexeme, hread, hkind, -⟩ := hbegins _ 0 (Nat.lt_succ_of_lt (Nat.lt_succ_self _))
    rw [child_zero_of_parse (parse_of_checkedProgram hlowered) (by rw [hread, hkind]; simp)]
    exact fun heq => by cases heq
  have hagain := ofProgram_of_plain hplain (ofProgram source.toList program).code.toList hbang
  rw [String.ofList_toList] at hagain
  unfold ofSource
  dsimp only
  rw [hlowered, ← hagain]

/-! ### Imports and exports in the code -/

section Statements

variable {n : Node}

/-- A default export exports a name. -/
theorem localExports_ne_nil {offset : Nat} (hlabel : n.label = .exportDefault offset)
    (imports : List NamedValue) : localExports imports n ≠ [] := by
  unfold localExports
  rw [hlabel]
  dsimp only
  split <;> exact List.cons_ne_nil _ _

/-- Of an import or export that requests nothing and exports no name, some text is taken away. -/
theorem exists_removal {lo hi : Nat} {item : Item} (h : Placed lo hi n) (hmeans : Means n item)
    (hitem : isModuleItem n = true) (hrequest : requestOf n = none) {imports : List NamedValue}
    (hlocal : localExports imports n = []) (text : List Char) :
    ∃ e ∈ ownEdits text n, e.span.start < e.span.stop := by
  cases h.stands with
  | plain hplain => rw [hitem] at hplain; cases hplain
  | request hlabel => exact absurd hrequest (hmeans.requestOf_ne_none hlabel)
  | list hlabel hbounded _ =>
    rw [ownEdits_of_list hlabel]
    exact ⟨_, List.mem_singleton_self _, hbounded.lt⟩
  | declaration hlabel hled =>
    rw [ownEdits_of_declaration hlabel]
    exact ⟨_, List.mem_singleton_self _, hled.lt⟩
  | default offset hlabel => exact absurd hlocal (localExports_ne_nil hlabel imports)

/-- A statement that exports no name is edited by taking text away. -/
theorem text_eq_nil_of_mem_ownEdits {imports : List NamedValue} (hlocal : localExports imports n = [])
    {text : List Char} {e : Edit} (he : e ∈ ownEdits text n) : e.text = [] := by
  unfold ownEdits at he
  rcases List.mem_append.1 he with hremoved | hedited
  · obtain ⟨-, -, rfl⟩ := List.mem_map.1 hremoved
    rfl
  · unfold localEdits at hedited
    dsimp only at hedited
    split at hedited
    · rw [List.mem_singleton.1 hedited]
      rfl
    · rename_i hlabel
      exact absurd hlocal (localExports_ne_nil hlabel imports)
    · split at hedited
      · cases hedited
      · rw [List.mem_singleton.1 hedited]
        rfl
    · cases hedited

end Statements

section Programs

variable {text : List Char} {program : Node}

theorem requestOf_of_requests (h : requests program = []) {n : Node} (hn : n ∈ program.children) :
    requestOf n = none := by
  have hfrom : ∀ {next nodes}, requestsFrom next nodes = [] → n ∈ nodes → requestOf n = none := by
    intro next nodes hnil hmem
    induction nodes generalizing next with
    | nil => cases hmem
    | cons m rest ih =>
      unfold requestsFrom at hnil
      split at hnil
      · rename_i hnone
        rcases List.mem_cons.1 hmem with rfl | hmem
        · exact hnone
        · exact ih hnil hmem
      · split at hnil <;> cases hnil
  exact hfrom h hn

theorem imports_of_requests (h : requests program = []) : imports program = [] := by
  unfold imports
  rw [h]
  rfl

theorem localExports_of_publishedNames (hrequests : requests program = [])
    (hpublished : publishedNames program = []) : ∀ n ∈ program.children, localExports [] n = [] := by
  unfold publishedNames at hpublished
  rw [imports_of_requests hrequests] at hpublished
  exact List.flatMap_eq_nil_iff.1 (List.append_eq_nil_iff.1 hpublished).2

/-- A program that requests and exports nothing is edited by taking text away. -/
theorem text_eq_nil_of_made (h : parse text = .ok program) (hrequests : requests program = [])
    (hpublished : publishedNames program = []) {e : Edit}
    (he : e ∈ madeFrom 0 (orderedEdits text program)) : e.text = [] := by
  rcases List.mem_append.1 ((edited_of_parse h).made.mem_iff.1 he) with hbang | hkept
  · unfold hashbangEdits at hbang
    split at hbang
    · rw [List.mem_singleton.1 hbang]
      rfl
    · cases hbang
  · obtain ⟨n, hn, hkept⟩ := List.mem_flatMap.1 hkept
    unfold keptEdits at hkept
    rcases List.mem_append.1 hkept with hown | hreference
    · exact text_eq_nil_of_mem_ownEdits
        (localExports_of_publishedNames hrequests hpublished n hn) hown
    · split at hreference
      · cases hreference
      · obtain ⟨r, scopes, value, -, -, hvalue, -⟩ := mem_replacements_iff.1 hreference
        rw [imports_of_requests hrequests] at hvalue
        cases hvalue

/-- A program that requests and exports nothing, and whose text comes through as it is, has no imports
and exports. -/
theorem isModuleItem_of_unchanged (h : parse text = .ok program) {items : List Item}
    (hitems : List.Forall₂ Means program.children items) (hrequests : requests program = [])
    (hpublished : publishedNames program = []) (hsame : applyEdits text (edits text program) = text) :
    ∀ n ∈ program.children, isModuleItem n = false := by
  intro n hn
  by_contra hplain
  have hitem : isModuleItem n = true := by simpa using hplain
  obtain ⟨preamble, rest, lo, hi, hprogram, hpreamble, hrows, -⟩ := rows_of_parse h
  have hrest : n ∈ rest := by
    rw [hprogram] at hn
    rcases List.mem_cons.1 hn with rfl | hrest
    · rw [isModuleItem] at hitem
      rcases hpreamble.label_eq with hlabel | hlabel <;> rw [hlabel] at hitem <;> cases hitem
    · exact hrest
  obtain ⟨-, -, _, _, -, -, hplaced, -⟩ := hrows.exists_split hrest
  have hmeans : ∀ m ∈ program.children, ∃ item, Means m item :=
    forall_of_forall₂ (fun m item h => Exists.intro item h) hitems
  obtain ⟨item, hmeans⟩ := hmeans n hn
  obtain ⟨e, he, hlt⟩ := exists_removal hplaced hmeans hitem (requestOf_of_requests hrequests hn)
    (localExports_of_publishedNames hrequests hpublished n hn) text
  have hedited := edited_of_parse h
  rw [hsame] at hedited
  have hmade : e ∈ madeFrom 0 (orderedEdits text program) := hedited.made.mem_iff.2
    (List.mem_append_right _ (List.mem_flatMap.2 ⟨n, hn, List.mem_append_left _ he⟩))
  -- the text would be shorter than it is
  have hshorter := hedited.replaced.length_lt
    (fun _ he => text_eq_nil_of_made h hrequests hpublished he) hmade hlt
  exact absurd hshorter (Nat.lt_irrefl _)

end Programs

/-- Where the law holds, the code is a program without imports and exports. -/
theorem codePlain_of_relowers {source : String} (h : Relowers source) : CodePlain source := by
  intro form hform
  obtain ⟨lowered, items, hlowered, hagain, hitems, -⟩ := exists_items_of_ofSource (h form hform)
  obtain ⟨hrequested, hexported, hcode⟩ := LoaderForm.mk.inj hagain
  have hrequests : requests lowered = [] := List.map_eq_nil_iff.1 hrequested.symm
  have hpublished : publishedNames lowered = [] := List.map_eq_nil_iff.1 hexported.symm
  have hheader : header lowered = ["\"use strict\";"] := by
    unfold header
    rw [hrequests, hpublished]
    rfl
  have hsame : applyEdits form.code.toList (edits form.code.toList lowered) = form.code.toList := by
    rw [hheader] at hcode
    have hbody := (String.append_right_inj _).1 hcode
    rw [← String.toList_ofList (l := applyEdits _ _), ← hbody]
  exact ⟨lowered, hlowered, isModuleItem_of_unchanged (parse_of_checkedProgram hlowered) hitems
    hrequests hpublished hsame⟩

/-- The law holds for a source exactly if its code is a program without imports and exports. -/
theorem relowers_iff_codePlain (source : String) : Relowers source ↔ CodePlain source :=
  ⟨codePlain_of_relowers, relowers_of_codePlain⟩

/-! ## Where the law fails -/

/-- A source whose code is refused does not satisfy the law. -/
theorem not_relowers_of_refused {source : String}
    (h : (codeOf source.toList).map (fun code => (checkedProgram code).toOption.isSome) =
      some false) : ¬ Relowers source := by
  intro hlaw
  obtain ⟨code, hcode, hrefused⟩ := Option.map_eq_some_iff.1 h
  obtain ⟨form, hform, rfl⟩ := exists_form_of_codeOf hcode
  obtain ⟨lowered, hlowered, -⟩ := exists_program_of_ofSource (hlaw form hform)
  rw [hlowered] at hrefused
  cases hrefused

/-- An imported name is the target of an object pattern: `({a} = {})`. -/
def patternSource : String := "import \x7ba\x7d from './a.js';\n(\x7ba\x7d = \x7b\x7d);\n"

/-- The code `({__dep0.a} = {})` is no program. -/
theorem not_relowers_of_pattern : ¬ Relowers patternSource :=
  not_relowers_of_refused (by decide +kernel)

end ModuleBundler.LoaderForm
