import ModuleBundler.LoaderForm.Basic

/-!
# Boundaries between statements in loader form

Loader form puts lines before the text of a module, takes statements out of it and writes over
references.  The boundaries between statements are safe where nothing is taken out or written over:

* `closed_of_mem_header` — every line of the header is closed by a semicolon, so the header cannot
  run into the text behind it;
* `code_of_plain` — a program without imports and exports is copied behind the first line.

They are not safe in general (`StatementsKept`), because a boundary can rest on the text that goes:

* `not_statementsKept_of_removed` — nothing is written in the place of a statement that is taken
  out, so its neighbours can become one statement;
* `not_statementsKept_of_callee` — a callee is replaced by a text that begins with a parenthesis,
  which goes on with the statement before it when that is not closed (`Closed`).
-/

namespace ModuleBundler.LoaderForm

open ModuleBundler.Syntax ModuleBundler.Text

/-! ## The header -/

/-- A line is a statement that is closed by a semicolon. -/
def Closed (line : String) : Prop := ∃ statement, line = statement ++ ";"

theorem Closed.append {line : String} (before : String) (h : Closed line) :
    Closed (before ++ line) := by
  obtain ⟨statement, rfl⟩ := h
  exact ⟨before ++ statement, (String.append_assoc).symm⟩

theorem closed_getterLine (v : NamedValue) : Closed (getterLine v) :=
  Closed.append _ ⟨"; \x7d \x7d)", rfl⟩

theorem closed_requireCall (source : String) : Closed (requireCall source) :=
  Closed.append _ ⟨")", rfl⟩

theorem closed_forwardAll (holder : String) : Closed (forwardAll holder) :=
  Closed.append _ ⟨"[key]; \x7d \x7d); \x7d)", rfl⟩

theorem closed_of_mem_lines {r : PlacedRequest} {line : String} (h : line ∈ r.lines) :
    Closed line := by
  have hrequire : Closed ("var " ++ r.holder ++ " = " ++ requireCall r.source) :=
    (closed_requireCall r.source).append _
  unfold PlacedRequest.lines at h
  split at h
  · rw [List.mem_singleton.1 h]
    exact closed_requireCall r.source
  · rcases List.mem_cons.1 h with rfl | h
    · exact hrequire
    · rw [List.mem_singleton.1 h]
      exact closed_forwardAll r.holder
  · rw [List.mem_singleton.1 h]
    exact hrequire

/-- Every line of the header is closed by a semicolon. -/
theorem closed_of_mem_header {program : Node} {line : String} (h : line ∈ header program) :
    Closed line := by
  unfold header at h
  rw [List.cons_append, List.mem_cons, List.mem_append] at h
  rcases h with rfl | hgetter | hrequest
  · exact ⟨"\"use strict\"", rfl⟩
  · obtain ⟨v, -, rfl⟩ := List.mem_map.1 hgetter
    exact closed_getterLine v
  · obtain ⟨r, -, hline⟩ := List.mem_flatMap.1 hrequest
    exact closed_of_mem_lines hline

/-! ## Programs without imports and exports -/

/-- A statement is an import or an export. -/
def isModuleItem (n : Node) : Bool :=
  match n.label with
  | .importDecl _ | .exportDecl | .exportDefault _ | .exportNames | .exportAll => true
  | _ => false

theorem requestOf_of_plain {n : Node} (h : isModuleItem n = false) : requestOf n = none := by
  unfold isModuleItem at h
  unfold requestOf
  split <;> simp_all

theorem localExports_of_plain (imports : List NamedValue) {n : Node}
    (h : isModuleItem n = false) : localExports imports n = [] := by
  unfold isModuleItem at h
  unfold localExports
  split <;> simp_all

theorem localEdits_of_plain (text : List Char) {n : Node} (h : isModuleItem n = false) :
    localEdits text n = [] := by
  unfold isModuleItem at h
  unfold localEdits
  dsimp only
  split <;> simp_all

theorem toList_endLines (lines : List String) :
    (endLines lines).toList = lines.flatMap fun line => line.toList ++ ['\n'] := by
  unfold endLines
  rw [String.toList_join, List.flatMap_map]
  congr 1
  funext line
  rw [String.toList_append]
  rfl

/-- The characters of a program in loader form. -/
theorem toList_code (text : List Char) (program : Node) :
    (ofProgram text program).code.toList =
      (header program).flatMap (fun line => line.toList ++ ['\n'])
        ++ applyEdits text (edits text program) := by
  unfold ofProgram
  rw [String.toList_append, String.toList_ofList, toList_endLines]

/-- The characters of a program whose edits come in the order of its text. -/
theorem toList_code_of_sorted {text : List Char} {program : Node}
    (h : (edits text program).Pairwise (fun a b => Edit.le a b)) :
    (ofProgram text program).code.toList =
      (header program).flatMap (fun line => line.toList ++ ['\n'])
        ++ applyInOrder 0 text (edits text program) := by
  rw [toList_code, applyEdits, List.mergeSort_of_pairwise h]

theorem requestsFrom_of_plain {next : Nat} {nodes : List Node}
    (h : ∀ n ∈ nodes, requestOf n = none) : requestsFrom next nodes = [] := by
  induction nodes with
  | nil => rfl
  | cons n rest ih =>
    unfold requestsFrom
    rw [h n List.mem_cons_self]
    exact ih fun m hm => h m (List.mem_cons_of_mem n hm)

section Plain

variable {program : Node} (hplain : ∀ n ∈ program.children, isModuleItem n = false)
include hplain

theorem requests_of_plain : requests program = [] :=
  requestsFrom_of_plain fun n hn => requestOf_of_plain (hplain n hn)

theorem publishedNames_of_plain : publishedNames program = [] := by
  have hlocal : program.children.flatMap (localExports (imports program)) = [] :=
    List.flatMap_eq_nil_iff.2 fun n hn => localExports_of_plain _ (hplain n hn)
  unfold publishedNames
  rw [requests_of_plain hplain, hlocal]
  rfl

/-- A program without imports, exports and a hashbang is copied behind the first line. -/
theorem code_of_plain {text : List Char} (hbang : (program.child 0).label ≠ .hashbang) :
    (ofProgram text program).code = "\"use strict\";\n" ++ String.ofList text := by
  have hedits : edits text program = [] := by
    have hlocal : program.children.flatMap (localEdits text) = [] :=
      List.flatMap_eq_nil_iff.2 fun n hn => localEdits_of_plain text (hplain n hn)
    unfold edits hashbangEdits referenceEdits imports
    rw [requests_of_plain hplain, hlocal, if_neg (by rw [beq_iff_eq]; exact hbang)]
    rfl
  have hheader : header program = ["\"use strict\";"] := by
    unfold header
    rw [requests_of_plain hplain, publishedNames_of_plain hplain]
    rfl
  have hbody : applyEdits text [] = text := by
    unfold applyEdits
    rw [List.mergeSort_nil, applyInOrder, List.drop_zero]
  unfold ofProgram
  rw [hedits, hheader, hbody]
  rfl

theorem ofProgram_of_plain (text : List Char) (hbang : (program.child 0).label ≠ .hashbang) :
    ofProgram text program = ⟨[], [], "\"use strict\";\n" ++ String.ofList text⟩ := by
  rw [← code_of_plain hplain hbang]
  unfold ofProgram
  rw [requests_of_plain hplain, publishedNames_of_plain hplain]
  rfl

end Plain

/-! ## Statements that are kept -/

/-- The statements of a program that loader form keeps: all but those that it replaces by a request
or a getter. -/
def keptStatements (program : Node) : List Node :=
  program.children.tail.filter fun n =>
    match n.label with
    | .importDecl _ | .exportNames | .exportAll => false
    | _ => true

/-- Behind the lines of its header, the loader form of a source has a statement for each one that
is kept. -/
def StatementsKept (source : String) : Prop :=
  ∀ program, checkedProgram source.toList = .ok program →
    ∃ lowered, parse (ofProgram source.toList program).code.toList = .ok lowered ∧
      lowered.children.tail.length = (header program).length + (keptStatements program).length

/-- The number of statements that the loader form of a text has, and the number that it should
have, for a program whose edits come in the order of the text. -/
def statementCounts (text : List Char) : Option (Nat × Nat) :=
  match checkedProgram text with
  | .error _ => none
  | .ok program =>
    if (edits text program).Pairwise (fun a b => Edit.le a b) then
      (parse ((header program).flatMap (fun line => line.toList ++ ['\n'])
          ++ applyInOrder 0 text (edits text program))).toOption.map fun lowered =>
        (lowered.children.tail.length, (header program).length + (keptStatements program).length)
    else none

theorem StatementsKept.counts {source : String} {n k : Nat} (h : StatementsKept source)
    (hcounts : statementCounts source.toList = some (n, k)) : n = k := by
  unfold statementCounts at hcounts
  split at hcounts
  · cases hcounts
  rename_i program hprogram
  split at hcounts
  · rename_i hsorted
    obtain ⟨lowered, hlowered, hlength⟩ := h program hprogram
    rw [toList_code_of_sorted hsorted] at hlowered
    rw [hlowered] at hcounts
    simp only [Except.toOption, Option.map_some, Option.some.injEq, Prod.mk.injEq] at hcounts
    rw [← hcounts.1, ← hcounts.2]
    exact hlength
  · cases hcounts

/-- Taking `export {a}` out of its place joins the statements around it, though no reference is
written over. -/
theorem not_statementsKept_of_removed :
    ¬ ∀ source, (∀ program, checkedProgram source.toList = .ok program →
      referenceEdits program = []) → StatementsKept source := by
  intro h
  have hkept : StatementsKept "let a = 1\nexport {a}\n(a)\n" := by
    refine h _ ?_
    intro program hprogram
    have hnone : (checkedProgram "let a = 1\nexport {a}\n(a)\n".toList).toOption.map
        referenceEdits = some [] := by decide +kernel
    rw [hprogram] at hnone
    exact Option.some.inj hnone
  have hcounts : statementCounts "let a = 1\nexport {a}\n(a)\n".toList = some (3, 4) := by
    decide +kernel
  exact absurd (hkept.counts hcounts) (by decide)

/-- Writing `(0, __dep0.f)` for the callee `f` joins its statement to the one before it. -/
theorem not_statementsKept_of_callee :
    ¬ StatementsKept "import {f} from './f.js';\nlet a = 1\nf()\n" := by
  intro hkept
  have hcounts : statementCounts "import {f} from './f.js';\nlet a = 1\nf()\n".toList =
      some (3, 4) := by decide +kernel
  exact absurd (hkept.counts hcounts) (by decide)

end ModuleBundler.LoaderForm
