import ModuleBundler.Proofs.LoaderForm.Piece

/-!
# Statements that are closed

Loader form can join statements that only a line end keeps apart.  It never joins them where the first is
closed: references stand on characters of names, so a character that is none comes through, and the last
one of a statement stays the last one.

* `stop_le_of_mem_keptEdits` — what is edited in a statement ends before its last character;
* `ClosedPiece.closed` — so a statement that a semicolon closes is closed in what is written for it, and
  so is every default value;
* **`inClosedPieces_of_ofSource`** — this holds for the statements of every source that is accepted, and each
  line of the header is closed.

Whether the grammar reads the written statements as it read those of the source is not said here.
-/

namespace ModuleBundler.LoaderForm

open ModuleBundler.Syntax ModuleBundler.Text

/-! ## The ends of statements -/

/-- Loader form leaves a statement its end: the statement is no import or export, or what it exports is not
empty, and so not taken out with the words of the export. -/
inductive KeepsEnd (n : Node) : Prop
  | plain (hplain : isModuleItem n = false)
  | exported (hlabel : n.label = .exportDecl ∨ ∃ place, n.label = .exportDefault place)
      (hvalue : (n.child 0).span.start < n.span.stop)
      (hparams : ∀ params, DefaultForm.of (n.child 0) = .unnamedFunction params → params < n.span.stop)

namespace KeepsEnd

variable {n : Node}

/-- The statement is not taken out. -/
theorem kept (h : KeepsEnd n) :
    ¬ ((∃ clause, n.label = .importDecl clause) ∨ n.label = .exportAll ∨ n.label = .exportNames) := by
  cases h with
  | plain hplain =>
    rintro (⟨clause, hlabel⟩ | hlabel | hlabel) <;> simp [isModuleItem, hlabel] at hplain
  | exported hlabel =>
    rcases hlabel with hlabel | ⟨place, hlabel⟩ <;> rw [hlabel] <;>
      rintro (⟨clause, hother⟩ | hother | hother) <;> cases hother

/-- What a declaration or a default export exports is not empty. -/
theorem start_lt (h : KeepsEnd n) (hlabel : n.label = .exportDecl ∨ ∃ place, n.label = .exportDefault place) :
    (n.child 0).span.start < n.span.stop ∧
      ∀ params, DefaultForm.of (n.child 0) = .unnamedFunction params → params < n.span.stop := by
  cases h with
  | plain hplain => rcases hlabel with hlabel | ⟨place, hlabel⟩ <;> simp [isModuleItem, hlabel] at hplain
  | exported _ hvalue hparams => exact ⟨hvalue, hparams⟩

end KeepsEnd

/-- A statement exports a default value that declares no name. -/
def IsDefaultValue (n : Node) : Prop :=
  (∃ place, n.label = .exportDefault place) ∧ DefaultForm.of (n.child 0) = .value

section Statements

variable {source : List Char} {values : List NamedValue} {lo hi : Nat} {n : Node} {e : Edit}

/-- An edit of a statement itself ends before the statement does, if it is not the semicolon of a default
value. -/
theorem stop_lt_of_mem_ownEdits (h : Placed lo hi n) (hn : KeepsEnd n) (he : e ∈ ownEdits source n) :
    e.span.stop < n.span.stop ∨ e = .insert n.span.stop ";" ∧ IsDefaultValue n ∧
      precededBy source n.span.stop (· == ';') = false := by
  cases h.stands with
  | plain hplain =>
    rw [ownEdits_of_plain hplain] at he
    cases he
  | request hlabel => exact absurd (hlabel.imp_right .inl) hn.kept
  | list hlabel => exact absurd (.inr (.inr hlabel)) hn.kept
  | declaration hlabel =>
    rw [ownEdits_of_declaration hlabel] at he
    rw [List.mem_singleton.1 he]
    exact .inl (hn.start_lt (.inl hlabel)).1
  | default place hlabel =>
    obtain ⟨hlead, hparams⟩ := hn.start_lt (.inr ⟨place, hlabel⟩)
    rw [ownEdits_of_default hlabel] at he
    unfold localEdits at he
    rw [hlabel] at he
    dsimp only at he
    split at he
    · rw [List.mem_singleton.1 he]
      exact .inl hlead
    · rename_i params hform
      rcases List.mem_cons.1 he with rfl | he
      · exact .inl hlead
      · rw [List.mem_singleton.1 he]
        exact .inl (hparams params hform)
    · rename_i hform
      rcases List.mem_cons.1 he with rfl | he
      · exact .inl hlead
      · split at he
        · cases he
        · rename_i hopen
          exact .inr ⟨List.mem_singleton.1 he, ⟨⟨place, hlabel⟩, hform⟩, Bool.eq_false_iff.2 hopen⟩

/-- An edit of a reference ends with its statement or before it. -/
theorem stop_le_of_mem_references (h : Placed lo hi n) (hended : n.Ended hi)
    (he : e ∈ statementReferences values n) : e.span.stop ≤ n.span.stop :=
  h.stop_le (covers_of_reference he) hended.hits_lt

/-- Where a statement ends in a character that is no part of a name, references end before it. -/
theorem stop_lt_of_mem_references (h : Placed lo hi n) (hended : n.Ended hi)
    (hnames : ∀ k, 0 < n.hits k → NamePartAt source k) {last : Nat} {mark : Char}
    (hlast : last + 1 = n.span.stop) (hmark : source[last]? = some mark) (hpart : isNamePart mark = false)
    (he : e ∈ statementReferences values n) : e.span.stop ≤ last := by
  refine h.stop_le (covers_of_reference he) fun k hpos => ?_
  have hne : k ≠ last := by
    rintro rfl
    obtain ⟨c, hc, hname⟩ := hnames k hpos
    obtain rfl := Option.some.inj (hc.symm.trans hmark)
    rw [hpart] at hname
    cases hname
  have hlt := hended.hits_lt k hpos
  omega

/-- So does everything that is edited in the statement, if no semicolon is added to a default value. -/
theorem stop_le_of_mem_keptEdits (h : Placed lo hi n) (hended : n.Ended hi) (hn : KeepsEnd n)
    (hnames : ∀ k, 0 < n.hits k → NamePartAt source k) {last : Nat} {mark : Char}
    (hlast : last + 1 = n.span.stop) (hmark : source[last]? = some mark) (hpart : isNamePart mark = false)
    (hvalue : IsDefaultValue n → mark = ';') (he : e ∈ keptEdits source values n) :
    e.span.stop ≤ last := by
  unfold keptEdits at he
  rcases List.mem_append.1 he with hown | hreference
  · rcases stop_lt_of_mem_ownEdits h hn hown with hlt | ⟨-, hdefault, hopen⟩
    · omega
    · have hclosed : precededBy source n.span.stop (· == ';') = true := by
        rw [← hlast, precededBy, Nat.add_sub_cancel, hmark, hvalue hdefault]
        rfl
      rw [hclosed] at hopen
      cases hopen
  · split at hreference
    · cases hreference
    · exact stop_lt_of_mem_references h hended hnames hlast hmark hpart hreference

end Statements

/-! ## Closed pieces -/

/-- What is written for a statement ends as the statement does, or with a semicolon. -/
structure ClosedPiece (offset : Nat) (n : Node) (piece out : List Char) : Prop where
  /-- The last character of a statement, if it is no part of a name, is the last one of what is written. -/
  mark : KeepsEnd n → ¬ IsDefaultValue n → ∀ statement mark behind,
    piece = statement ++ mark :: behind → offset + statement.length + 1 = n.span.stop →
      isNamePart mark = false → ∃ written, out = written ++ mark :: behind
  /-- What is written for a default value is closed by a semicolon. -/
  value : KeepsEnd n → IsDefaultValue n → ∀ statement behind, piece = statement ++ behind →
    offset + statement.length = n.span.stop → ∃ written, out = written ++ ';' :: behind

section Pieces

variable {source : List Char} {values : List NamedValue} {offset : Nat} {n : Node}
  {statement behind out : List Char}

/-- A character of a piece is found in the text. -/
theorem getElem?_of_located {mark : Char} {rest : List Char}
    (h : source.drop offset = (statement ++ mark :: behind) ++ rest) :
    source[offset + statement.length]? = some mark := by
  rw [← List.getElem?_drop, h, List.append_assoc, List.getElem?_append_right (Nat.le_refl _),
    Nat.sub_self]
  rfl

/-- Of a statement that ends in a character that is no part of a name, this character is copied, and all
that stands behind it. -/
theorem exists_written_of_mark {mark : Char} {rest : List Char}
    (h : EditedPiece source values offset n (statement ++ mark :: behind) out)
    (hended : n.Ended (offset + (statement ++ mark :: behind).length)) (hn : KeepsEnd n)
    (hnames : ∀ k, 0 < n.hits k → NamePartAt source k)
    (hlocated : source.drop offset = (statement ++ mark :: behind) ++ rest)
    (hlast : offset + statement.length + 1 = n.span.stop) (hpart : isNamePart mark = false)
    (hvalue : IsDefaultValue n → mark = ';') : ∃ written, out = written ++ mark :: behind := by
  obtain ⟨es, -, hperm, hreplaced⟩ := h.edited
  exact hreplaced.copied fun e he => stop_le_of_mem_keptEdits h.placed hended hn hnames hlast
    (getElem?_of_located hlocated) hpart hvalue (hperm.mem_iff.1 he)

/-- A default value without a semicolon is edited in front of it, and at its end. -/
theorem ownEdits_of_open (hvalue : IsDefaultValue n)
    (hopen : precededBy source n.span.stop (· == ';') = false) : ∃ lead : Edit,
      lead.span = ⟨n.span.start, (n.child 0).span.start⟩ ∧
        ownEdits source n = [lead, .insert n.span.stop ";"] := by
  obtain ⟨⟨place, hlabel⟩, hform⟩ := hvalue
  refine ⟨⟨_, ("const " ++ defaultName ++ " = ").toList⟩, rfl, ?_⟩
  rw [ownEdits_of_default hlabel, localEdits, hlabel]
  dsimp only
  rw [hform, hopen]
  rfl

/-- It gets one. -/
theorem exists_written_of_open (h : EditedPiece source values offset n (statement ++ behind) out)
    (hended : n.Ended (offset + (statement ++ behind).length)) (hn : KeepsEnd n)
    (hvalue : IsDefaultValue n) (hstop : offset + statement.length = n.span.stop)
    (hopen : precededBy source n.span.stop (· == ';') = false) :
    ∃ written, out = written ++ ';' :: behind := by
  obtain ⟨es, hsorted, hperm, hreplaced⟩ := h.edited
  obtain ⟨lead, hlead, hown⟩ := ownEdits_of_open hvalue hopen
  obtain ⟨⟨place, hlabel⟩, -⟩ := hvalue
  have hlist : isExportList n = false := by
    rw [isExportList, hlabel]
    rfl
  -- the semicolon is put behind everything else
  have hlast : es.Perm ((lead :: statementReferences values n) ++ [.insert n.span.stop ";"]) := by
    rw [keptEdits, hown, hlist] at hperm
    exact hperm.trans (List.perm_append_comm.cons lead)
  obtain ⟨a, rfl, ha⟩ := exists_concat_of_sorted hsorted hlast fun e he => by
    rcases List.mem_cons.1 he with rfl | he
    · rw [hlead]
      exact (h.placed.exportsDefault hlabel).bounded.lt
    · exact Nat.lt_of_lt_of_le (h.placed.start_lt_stop (covers_of_reference he))
        (stop_le_of_mem_references h.placed hended he)
  refine hreplaced.inserted hstop fun e he => ?_
  rcases List.mem_cons.1 (ha.mem_iff.1 he) with rfl | he
  · rw [hlead]
    exact Nat.le_of_lt (hn.start_lt (.inr ⟨place, hlabel⟩)).1
  · exact stop_le_of_mem_references h.placed hended he

/-- The character before an offset of a text. -/
theorem getElem?_of_precededBy {place : Nat} {c : Char}
    (h : precededBy source (place + 1) (· == c) = true) : source[place]? = some c := by
  unfold precededBy at h
  rw [Bool.and_eq_true, Nat.add_sub_cancel] at h
  cases hget : source[place]? with
  | none =>
    rw [hget] at h
    cases h.2
  | some d =>
    rw [hget] at h
    rw [beq_iff_eq.1 h.2]

/-- A statement is closed in its piece if it was in the source, and so is a default value. -/
theorem closedPiece_of_edited {piece rest : List Char}
    (h : EditedPiece source values offset n piece out) (hended : n.Ended (offset + piece.length))
    (hnames : ∀ k, 0 < n.hits k → NamePartAt source k)
    (hlocated : source.drop offset = piece ++ rest) : ClosedPiece offset n piece out := by
  refine ⟨fun hn hvalue statement mark behind hpiece hlast hpart => ?_,
    fun hn hvalue statement behind hpiece hstop => ?_⟩
  · subst hpiece
    exact exists_written_of_mark h hended hn hnames hlocated hlast hpart fun h => absurd h hvalue
  · subst hpiece
    cases hclosed : precededBy source n.span.stop (· == ';') with
    | false => exact exists_written_of_open h hended hn hvalue hstop hclosed
    | true =>
      obtain ⟨place, hlabel⟩ := hvalue.1
      have hbounded := (h.placed.exportsDefault hlabel).bounded
      have hpos : statement ≠ [] := by
        rintro rfl
        have := hbounded.lo_le
        have := hbounded.lt
        rw [List.length_nil] at hstop
        omega
      obtain ⟨before, mark, rfl⟩ := (List.eq_nil_or_concat' statement).resolve_left hpos
      rw [List.length_append, List.length_singleton, ← Nat.add_assoc] at hstop
      rw [← List.append_cons] at h hended hlocated
      rw [← hstop] at hclosed
      obtain rfl : mark = ';' := Option.some.inj
        ((getElem?_of_located hlocated).symm.trans (getElem?_of_precededBy hclosed))
      exact exists_written_of_mark h hended hn hnames hlocated hstop (by decide) fun _ => rfl

end Pieces

/-- A statement that a semicolon closes, or that exports a default value, is closed in what is written. -/
theorem ClosedPiece.closed {offset : Nat} {n : Node} {statement behind out : List Char}
    (h : ClosedPiece offset n (statement ++ behind) out) (hn : KeepsEnd n)
    (hstop : offset + statement.length = n.span.stop)
    (hclosed : Closed (String.ofList statement) ∨ IsDefaultValue n) :
    ∃ written, out = written ++ behind ∧ Closed (String.ofList written) := by
  obtain ⟨written, rfl⟩ : ∃ written, out = written ++ ';' :: behind := by
    by_cases hvalue : IsDefaultValue n
    · exact h.value hn hvalue statement behind rfl hstop
    · obtain ⟨before, hbefore⟩ := hclosed.resolve_right hvalue
      have hstatement : statement = before.toList ++ [';'] := by
        rw [← String.toList_ofList (l := statement), hbefore, String.toList_append]
        rfl
      subst hstatement
      rw [List.length_append, List.length_singleton] at hstop
      exact h.mark hn hvalue before.toList ';' behind (List.append_assoc _ _ _) hstop (by decide)
  refine ⟨written ++ [';'], List.append_cons _ _ _, String.ofList written, ?_⟩
  rw [String.ofList_append]

/-! ## Every source -/

/-- In the code of every source that is accepted, each line of the header is closed, and each statement that
a semicolon closes in the source, in its piece behind the header. -/
theorem inClosedPieces_of_ofSource {source : String} {form : LoaderForm} (h : ofSource source = .ok form) :
    ∃ program body, checkedProgram source.toList = .ok program ∧
      form.code = endLines (header program) ++ String.ofList body ∧
      (∀ line ∈ header program, Closed line) ∧
      InPieces ClosedPiece source.toList program body := by
  obtain ⟨program, hprogram, rfl⟩ := exists_program_of_ofSource h
  have hparse := parse_of_checkedProgram hprogram
  refine ⟨program, _, hprogram, rfl, fun line => closed_of_mem_header,
    (inEndedPieces_of_parse hparse).located.mono ?_⟩
  rintro offset n piece out hn ⟨⟨hedited, hended⟩, rest, hlocated⟩
  refine closedPiece_of_edited hedited hended (fun k hpos => namePartAt_of_hits hparse ?_) hlocated
  exact Nat.lt_of_lt_of_le hpos (Nat.le_trans (hits_le_hitsEach k hn) (hitsEach_children_le k program))

/-- Behind a semicolon the parenthesis of a callee begins a statement. -/
example :
    let text := "import {f} from './f.js';\nlet a = 1;\nf();\n".toList
    (checkedProgram text).toOption.map (fun program => applyInOrder 0 text (edits text program)) =
      some "\nlet a = 1;\n(0, __dep0.f)();\n".toList := by
  decide +kernel

end ModuleBundler.LoaderForm
