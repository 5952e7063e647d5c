import Mathlib.Data.List.Perm.Basic
import ModuleBundler.Proofs.LoaderForm.Editing
import ModuleBundler.Proofs.LoaderForm.Reference
import ModuleBundler.Proofs.LoaderForm.Source
import ModuleBundler.Proofs.Syntax.Extent

/-!
# Edits of a module stand apart

Each top-level statement has edits of its own, which take away what loader form has no use for, and edits
of the references in it.  They all stand where the statement does, and apart from each other; only the
references of an export list stand inside of its own edit, which takes the whole list away.

* `laid_keptEdits` and `inside_of_inner` — so it is for one statement, by the form that it has;
* `laid_rows` — for statements one behind the other;
* `laid_of_parse` — and for all edits of a program that was parsed, hashbang included;
* `edited_of_parse` — so all of them are made but those of references in export lists (`Edited`);
* **`edited_of_ofSource`** — and what is left of the text is copied into the code of a module.
-/

namespace ModuleBundler.LoaderForm

open ModuleBundler.Syntax ModuleBundler.Text

/-! ## Edits of a statement -/

/-- The edits of the references in a top-level statement. -/
def statementReferences (values : List NamedValue) (n : Node) : List Edit :=
  (n.openReferences .plain []).filterMap fun r =>
    (lookup values r.name).map fun value => ⟨r.span, (referenceText r value).toList⟩

/-- The edits that are made of a top-level statement itself. -/
def ownEdits (text : List Char) (n : Node) : List Edit :=
  (requestOf n).toList.map (fun _ => .remove n.span) ++ localEdits text n

/-- A statement is an export list, which is taken away with all that is in it. -/
def isExportList (n : Node) : Bool := n.label == .exportNames

/-- The edits of a top-level statement that do not stand inside of another one. -/
def keptEdits (text : List Char) (values : List NamedValue) (n : Node) : List Edit :=
  ownEdits text n ++ if isExportList n then [] else statementReferences values n

/-- The edits in a top-level statement that is taken away. -/
def innerEdits (values : List NamedValue) (n : Node) : List Edit :=
  if isExportList n then statementReferences values n else []

/-- The references of a program are those of its statements. -/
theorem referenceEdits_eq {program : Node} (h : program.label = .program) :
    referenceEdits program = program.children.flatMap (statementReferences (imports program)) := by
  obtain ⟨label, span, children⟩ := program
  cases h
  have hopen : (Node.mk .program span children).openReferences .plain [] =
      children.flatMap fun n => n.openReferences .plain [] := by
    show openReferences [] children = _
    induction children with
    | nil => rfl
    | cons n rest ih => rw [openReferences, List.flatMap_cons, ih]
  unfold referenceEdits
  dsimp only
  rw [hopen, List.filterMap_flatMap]
  split
  · rename_i hempty
    rw [List.isEmpty_iff.1 hempty]
    exact (List.flatMap_eq_nil_iff.2 fun n _ => List.filterMap_eq_nil_iff.2 fun r _ => rfl).symm
  · rfl

theorem requests_map_remove (program : Node) :
    (requests program).map (fun r => Edit.remove r.span) =
      program.children.flatMap fun n => (requestOf n).toList.map fun _ => .remove n.span := by
  unfold requests
  generalize 0 = next
  induction program.children generalizing next with
  | nil => rfl
  | cons n rest ih =>
    rw [requestsFrom, List.flatMap_cons]
    split
    · rename_i hnone
      rw [hnone, ih]
      rfl
    · rename_i hsome
      rw [hsome]
      split <;> rw [List.map_cons, ih] <;> rfl

/-! ## Edits that stand apart -/

/-- Edits stand apart from each other between two offsets. -/
structure Laid (lo hi : Nat) (es : List Edit) : Prop where
  le : lo ≤ hi
  bounded : ∀ e ∈ es, lo ≤ e.span.start ∧ e.span.start ≤ e.span.stop ∧ e.span.stop ≤ hi
  apart : es.Pairwise fun a b => a.span.Apart b.span

namespace Laid

variable {lo mid hi : Nat} {a b : List Edit}

theorem nil (h : lo ≤ hi) : Laid lo hi [] := ⟨h, fun _ he => absurd he List.not_mem_nil, .nil⟩

theorem singleton {e : Edit} (hlo : lo ≤ e.span.start) (hle : e.span.start ≤ e.span.stop)
    (hhi : e.span.stop ≤ hi) : Laid lo hi [e] where
  le := Nat.le_trans hlo (Nat.le_trans hle hhi)
  bounded := List.forall_mem_singleton.2 ⟨hlo, hle, hhi⟩
  apart := List.pairwise_singleton _ _

/-- Edits of two kinds between the same offsets. -/
theorem union (ha : Laid lo hi a) (hb : Laid lo hi b)
    (h : ∀ e ∈ a, ∀ d ∈ b, e.span.Apart d.span) : Laid lo hi (a ++ b) where
  le := ha.le
  bounded := List.forall_mem_append.2 ⟨ha.bounded, hb.bounded⟩
  apart := List.pairwise_append.2 ⟨ha.apart, hb.apart, h⟩

/-- Edits that stand one behind the other. -/
theorem append (ha : Laid lo mid a) (hb : Laid mid hi b) : Laid lo hi (a ++ b) where
  le := Nat.le_trans ha.le hb.le
  bounded := by
    refine List.forall_mem_append.2 ⟨fun e he => ?_, fun e he => ?_⟩
    · obtain ⟨hlo, hle, hmid⟩ := ha.bounded e he
      exact ⟨hlo, hle, Nat.le_trans hmid hb.le⟩
    · obtain ⟨hmid, hle, hhi⟩ := hb.bounded e he
      exact ⟨Nat.le_trans ha.le hmid, hle, hhi⟩
  apart := List.pairwise_append.2 ⟨ha.apart, hb.apart, fun e he d hd =>
    .inl (Nat.le_trans (ha.bounded e he).2.2 (hb.bounded d hd).1)⟩

end Laid

/-! ## One statement -/

section References

variable {values : List NamedValue} {lo hi : Nat} {n : Node} {e : Edit}

theorem covers_of_reference (he : e ∈ statementReferences values n) : n.Covers e.span := by
  obtain ⟨r, scopes, value, hrefers, -, -, rfl⟩ := mem_replacements_iff.1 he
  exact hrefers.covers

/-- The references that are replaced are among those that are open. -/
theorem statementReferences_spans (values : List NamedValue) (n : Node) :
    ((statementReferences values n).map (·.span)).Sublist
      ((n.openReferences .plain []).map (·.span)) := by
  unfold statementReferences
  induction n.openReferences .plain [] with
  | nil => exact .slnil
  | cons r rest ih =>
    rw [List.map_cons, List.filterMap_cons]
    cases lookup values r.name with
    | none => exact ih.cons _
    | some value => exact ih.cons_cons _

/-- The references in a statement stand apart, and where the statement does. -/
theorem references_laid (h : Placed lo hi n) : Laid lo hi (statementReferences values n) where
  le := h.le
  bounded e he := by
    have hcovers := covers_of_reference he
    obtain ⟨hlo, hhi⟩ := h.within_span hcovers
    exact ⟨hlo, Nat.le_of_lt (h.start_lt_stop hcovers), hhi⟩
  apart := by
    have hone : ∀ k, spanHits k ((statementReferences values n).map (·.span)) ≤ 1 := by
      intro k
      refine Nat.le_trans (spanHits_le_of_sublist (statementReferences_spans values n)) ?_
      exact Nat.le_trans (hits_openReferences_le k n .plain []) (h.hits_le k)
    exact List.pairwise_map.1 (apart_of_hits hone)

/-- No reference stands between the beginning of an export and what it exports. -/
theorem lead_apart (h : Placed lo hi n) (hled : n.Led lo hi) {s : Span} (hs : n.Covers s) :
    (Span.mk n.span.start (n.child 0).span.start).Apart s := by
  rcases Nat.lt_or_ge s.start n.span.start with hbefore | hbehind
  · refine .inr (Nat.le_of_not_lt fun hstop => ?_)
    -- the reference would reach into the words of the export
    have hhit := hs.hits_pos (Nat.le_of_lt hbefore) hstop
    exact absurd hled.lt (Nat.not_lt.2 (hled.clear _ hhit (Nat.le_refl _)))
  · exact .inl (hled.clear _ (h.hits_start_pos hs) hbehind)

end References

section Statements

variable {values : List NamedValue} {text : List Char} {lo hi : Nat} {n : Node}

theorem ownEdits_of_plain (hplain : isModuleItem n = false) : ownEdits text n = [] := by
  unfold ownEdits
  rw [requestOf_of_plain hplain, localEdits_of_plain text hplain]
  rfl

/-- A request is taken away. -/
theorem ownEdits_of_request (text : List Char)
    (hlabel : (∃ clause, n.label = .importDecl clause) ∨ n.label = .exportAll) :
    ownEdits text n = [] ∨ ownEdits text n = [.remove n.span] := by
  have hlocal : localEdits text n = [] := by
    unfold localEdits
    rcases hlabel with ⟨clause, hlabel⟩ | hlabel <;> rw [hlabel]
  unfold ownEdits
  rw [hlocal, List.append_nil]
  cases requestOf n with
  | none => exact .inl rfl
  | some request => exact .inr rfl

/-- An export list is taken away, whether it has a source or not. -/
theorem ownEdits_of_list (hlabel : n.label = .exportNames) :
    ownEdits text n = [.remove n.span] := by
  unfold ownEdits requestOf localEdits
  rw [hlabel]
  cases sourceOf n.children <;> rfl

theorem ownEdits_of_declaration (hlabel : n.label = .exportDecl) :
    ownEdits text n = [.remove ⟨n.span.start, (n.child 0).span.start⟩] := by
  unfold ownEdits requestOf localEdits
  rw [hlabel]
  rfl

theorem ownEdits_of_default {offset : Nat} (hlabel : n.label = .exportDefault offset) :
    ownEdits text n = localEdits text n := by
  unfold ownEdits requestOf
  rw [hlabel]
  rfl

/-- The edit over the words in front of what is exported. -/
theorem laid_lead (hled : n.Led lo hi) (new : List Char) :
    Laid lo hi [⟨⟨n.span.start, (n.child 0).span.start⟩, new⟩] :=
  .singleton hled.lo_le (Nat.le_of_lt hled.lt) hled.le_hi

/-- A default export is edited in front of its value, and at most at one other place: where the name
of a function is missing, or at the end. -/
theorem localEdits_of_default (text : List Char) {offset : Nat}
    (hlabel : n.label = .exportDefault offset) :
    ∃ new more, localEdits text n = ⟨⟨n.span.start, (n.child 0).span.start⟩, new⟩ :: more ∧
      (more = [] ∨ ∃ place added, more = [.insert place added] ∧
        (DefaultForm.of (n.child 0) = .unnamedFunction place ∨ place = n.span.stop)) := by
  unfold localEdits
  rw [hlabel]
  dsimp only
  split
  · exact ⟨_, [], rfl, .inl rfl⟩
  · rename_i params hform
    exact ⟨_, _, rfl, .inr ⟨params, _, rfl, .inl hform⟩⟩
  · split
    · exact ⟨_, [], rfl, .inl rfl⟩
    · exact ⟨_, _, rfl, .inr ⟨n.span.stop, ";", rfl, .inr rfl⟩⟩

/-- What is inserted into a default export stands behind the beginning of its value, and not inside of a
reference. -/
theorem insert_apart {offset place : Nat} (h : Placed lo hi n)
    (hlabel : n.label = .exportDefault offset)
    (hplace : DefaultForm.of (n.child 0) = .unnamedFunction place ∨ place = n.span.stop) :
    ((n.child 0).span.start ≤ place ∧ place ≤ hi) ∧
      ∀ s, n.Covers s → (Span.mk place place).Apart s := by
  have hdefault := h.exportsDefault hlabel
  rcases hplace with hform | rfl
  · obtain ⟨hfrom, hhi, hclear⟩ := hdefault.params place hform
    exact ⟨⟨hfrom, hhi⟩, fun s hs => .inl (hclear _ (h.hits_start_pos hs))⟩
  · exact ⟨⟨hdefault.value_le, hdefault.bounded.le_hi⟩,
      fun s hs => .inr (h.stop_le hs hdefault.before)⟩

/-- The edits of a default export stand apart, and from the references in it. -/
theorem laid_default (text : List Char) {offset : Nat} (h : Placed lo hi n)
    (hlabel : n.label = .exportDefault offset) (hled : n.Led lo hi) :
    Laid lo hi (ownEdits text n) ∧ ∀ e ∈ ownEdits text n, ∀ s, n.Covers s → e.span.Apart s := by
  obtain ⟨new, more, hedits, hmore⟩ := localEdits_of_default text hlabel
  rw [ownEdits_of_default hlabel, hedits]
  have hlead : ∀ s, n.Covers s → Span.Apart _ s := fun s hs => lead_apart h hled hs
  rcases hmore with rfl | ⟨place, added, rfl, hplace⟩
  · exact ⟨laid_lead hled new, List.forall_mem_singleton.2 hlead⟩
  · obtain ⟨⟨hfrom, hhi⟩, hinsert⟩ := insert_apart h hlabel hplace
    have hlo : lo ≤ place := Nat.le_trans (Nat.le_trans hled.lo_le (Nat.le_of_lt hled.lt)) hfrom
    have hadded : Laid lo hi [.insert place added] := .singleton hlo (Nat.le_refl _) hhi
    refine ⟨(laid_lead hled new).union hadded fun e he d hd => ?_,
      List.forall_mem_cons.2 ⟨hlead, List.forall_mem_singleton.2 hinsert⟩⟩
    obtain rfl := List.mem_singleton.1 he
    obtain rfl := List.mem_singleton.1 hd
    exact .inl hfrom

/-- The own edits of a statement stand apart, and from the references in it if it is not an export
list. -/
theorem laid_ownEdits (text : List Char) (h : Placed lo hi n) : Laid lo hi (ownEdits text n) ∧
    (isExportList n = false → ∀ e ∈ ownEdits text n, ∀ s, n.Covers s → e.span.Apart s) := by
  cases h.stands with
  | plain hplain =>
    rw [ownEdits_of_plain hplain]
    exact ⟨.nil h.le, fun _ e he => absurd he List.not_mem_nil⟩
  | request hlabel hsilent hbounded =>
    refine ⟨?_, fun _ e _ s hs => ?_⟩
    · rcases ownEdits_of_request text hlabel with hnone | hone
      · exact hnone ▸ .nil h.le
      · exact hone ▸ .singleton hbounded.lo_le (Nat.le_of_lt hbounded.lt) hbounded.le_hi
    · -- an import and an export of everything have no references
      have hhit := h.hits_start_pos hs
      rw [hsilent] at hhit
      exact absurd hhit (Nat.lt_irrefl 0)
  | list hlabel hbounded _ =>
    rw [ownEdits_of_list hlabel]
    refine ⟨.singleton hbounded.lo_le (Nat.le_of_lt hbounded.lt) hbounded.le_hi, fun hlist => ?_⟩
    exact absurd hlabel (beq_eq_false_iff_ne.1 hlist)
  | declaration hlabel hled =>
    rw [ownEdits_of_declaration hlabel]
    exact ⟨laid_lead hled [], fun _ => List.forall_mem_singleton.2 fun s hs => lead_apart h hled hs⟩
  | default offset hlabel hled =>
    obtain ⟨hown, hapart⟩ := laid_default text h hlabel hled
    exact ⟨hown, fun _ => hapart⟩

/-- The edits of a statement stand apart, and where the statement does. -/
theorem laid_keptEdits (h : Placed lo hi n) : Laid lo hi (keptEdits text values n) := by
  obtain ⟨hown, hapart⟩ := laid_ownEdits text h
  unfold keptEdits
  cases hlist : isExportList n with
  | true => exact hown.union (.nil h.le) fun _ _ d hd => absurd hd List.not_mem_nil
  | false =>
    exact hown.union (references_laid h) fun e he d hd => hapart hlist e he _ (covers_of_reference hd)

/-- The references of an export list stand inside of the edit that takes the list away. -/
theorem inside_of_inner {x : Edit} (h : Placed lo hi n) (hx : x ∈ innerEdits values n) :
    n.label = .exportNames ∧ x ∈ statementReferences values n ∧ x.Inside (.remove n.span) := by
  unfold innerEdits at hx
  split at hx
  · rename_i hlist
    have hlabel : n.label = .exportNames := beq_iff_eq.1 hlist
    have hcovers := covers_of_reference hx
    exact ⟨hlabel, hx, (h.inside_of_list hlabel (h.hits_start_pos hcovers)).1, h.start_lt_stop hcovers,
      h.stop_le hcovers fun k hpos => (h.inside_of_list hlabel hpos).2⟩
  · exact absurd hx List.not_mem_nil

theorem remove_mem_keptEdits (hlabel : n.label = .exportNames) {nodes : List Node} (hn : n ∈ nodes) :
    .remove n.span ∈ nodes.flatMap (keptEdits text values) := by
  refine List.mem_flatMap.2 ⟨n, hn, List.mem_append_left _ ?_⟩
  rw [ownEdits_of_list hlabel]
  exact List.mem_singleton_self _

end Statements

/-! ## All statements -/

section Programs

variable (text : List Char) (values : List NamedValue) {lo hi : Nat} {items : List Node}

theorem laid_rows (h : Rows lo hi items) : Laid lo hi (items.flatMap (keptEdits text values)) := by
  induction h with
  | nil => exact .nil (Nat.le_refl _)
  | snoc _ hplaced _ ih =>
    rw [List.flatMap_append, List.flatMap_singleton]
    exact ih.append (laid_keptEdits hplaced)

/-- In front of the statements, nothing is edited but a hashbang. -/
theorem edits_preamble {preamble : Node} (h : preamble.IsPreamble lo) :
    keptEdits text values preamble = [] ∧ innerEdits values preamble = [] := by
  obtain ⟨label, span, children⟩ := preamble
  obtain ⟨hlabel, hchildren, -, -⟩ := h
  cases hchildren
  rcases hlabel with hlabel | hlabel <;> cases hlabel <;> exact ⟨rfl, rfl⟩

theorem laid_preamble (span : Span) (items : List Node) {preamble : Node}
    (h : preamble.IsPreamble lo) :
    Laid 0 lo (hashbangEdits (.mk .program span (preamble :: items))) := by
  unfold hashbangEdits
  split
  · exact .singleton (Nat.zero_le _) h.start_le h.le_lo
  · exact .nil (Nat.zero_le _)

/-- All edits are those that do not stand inside of others and those that do. -/
theorem perm_edits {program : Node} (h : program.label = .program) : (edits text program).Perm
    ((hashbangEdits program ++ program.children.flatMap (keptEdits text (imports program))) ++
      program.children.flatMap (innerEdits (imports program))) := by
  have hsame : ∀ n : Node, ownEdits text n ++ statementReferences (imports program) n =
      keptEdits text (imports program) n ++ innerEdits (imports program) n := by
    intro n
    unfold keptEdits innerEdits
    split <;> simp
  unfold edits
  rw [requests_map_remove, referenceEdits_eq h]
  simp only [List.append_assoc]
  refine List.Perm.append_left _ ?_
  rw [← List.append_assoc]
  -- the two ways to collect the edits of a statement, then the two kinds of edits
  refine ((List.flatMap_append_perm _ _ _).append_right _).trans ?_
  refine (List.flatMap_append_perm _ (ownEdits text) _).trans ?_
  simp only [hsame]
  exact (List.flatMap_append_perm _ _ _).symm

/-- The edits of a program that was parsed stand in the text, and apart if not inside of others. -/
theorem laid_of_parse {text : List Char} {program : Node} (h : parse text = .ok program) :
    program.label = .program ∧
      Laid 0 text.length
        (hashbangEdits program ++ program.children.flatMap (keptEdits text values)) ∧
      ∀ n ∈ program.children, ∀ x ∈ innerEdits values n,
        n.label = .exportNames ∧ x ∈ statementReferences values n ∧ x.Inside (.remove n.span) := by
  obtain ⟨preamble, items, lo, hi, hprogram, hpreamble, hrows, hhi⟩ := rows_of_parse h
  obtain ⟨hkept, hinner⟩ := edits_preamble text values hpreamble
  have hlaid := ((laid_preamble program.span items hpreamble).append
    (laid_rows text values hrows)).append (.nil hhi)
  rw [List.append_nil] at hlaid
  rw [hprogram]
  refine ⟨rfl, ?_, List.forall_mem_cons.2 ⟨fun x hx => ?_, fun n hn x hx => ?_⟩⟩
  · show Laid 0 text.length (_ ++ (preamble :: items).flatMap _)
    rw [List.flatMap_cons, hkept]
    exact hlaid
  · rw [hinner] at hx
    exact absurd hx List.not_mem_nil
  · obtain ⟨-, -, _, _, -, -, hplaced, -⟩ := hrows.exists_split hn
    exact inside_of_inner hplaced hx

/-! ## The text that comes out -/

/-- The edits of a program in the order in which they are made. -/
def orderedEdits (text : List Char) (program : Node) : List Edit :=
  (edits text program).mergeSort Edit.le

/-- The edits of a program bring its text into the form `body`. -/
structure Edited (text : List Char) (program : Node) (body : List Char) : Prop where
  /-- Each edit replaces characters of the text. -/
  bounded : ∀ e ∈ edits text program, e.span.start ≤ e.span.stop ∧ e.span.stop ≤ text.length
  sorted : (orderedEdits text program).Pairwise Edit.Before
  /-- An edit begins behind the last one that was made, or it is a reference in an export list that
  was taken away. -/
  forward : ∀ before e after, orderedEdits text program = before ++ e :: after →
    cursorBehind 0 before ≤ e.span.start ∨
      ∃ n ∈ program.children, n.label = .exportNames ∧
        e ∈ statementReferences (imports program) n ∧
        .remove n.span ∈ madeFrom 0 before ∧ e.Inside (.remove n.span)
  /-- Each edit is made once or passed over once. -/
  once : (madeFrom 0 (orderedEdits text program) ++ passedFrom 0 (orderedEdits text program)).Perm
    (edits text program)
  made : (madeFrom 0 (orderedEdits text program)).Perm
    (hashbangEdits program ++ program.children.flatMap (keptEdits text (imports program)))
  /-- Those that are passed over are the references in export lists. -/
  passed : (passedFrom 0 (orderedEdits text program)).Perm
    (program.children.flatMap fun n =>
      if n.label = .exportNames then statementReferences (imports program) n else [])
  /-- What is between those that are made is copied. -/
  replaced : Replaced 0 text (madeFrom 0 (orderedEdits text program)) body

theorem edited_of_parse {text : List Char} {program : Node} (h : parse text = .ok program) :
    Edited text program (applyEdits text (edits text program)) := by
  obtain ⟨hlabel, hlaid, hinner⟩ := laid_of_parse (imports program) h
  have hperm := perm_edits text hlabel
  have hinside : ∀ x ∈ program.children.flatMap (innerEdits (imports program)),
      ∃ d ∈ hashbangEdits program ++ program.children.flatMap (keptEdits text (imports program)),
        x.Inside d := by
    intro x hx
    obtain ⟨n, hn, hx⟩ := List.mem_flatMap.1 hx
    obtain ⟨hlist, -, hin⟩ := hinner n hn x hx
    exact ⟨_, List.mem_append_right _ (remove_mem_keptEdits hlist hn), hin⟩
  have hle : ∀ e ∈ hashbangEdits program ++
      program.children.flatMap (keptEdits text (imports program)), e.span.start ≤ e.span.stop :=
    fun e he => (hlaid.bounded e he).2.1
  have hbounded : ∀ e ∈ edits text program,
      e.span.start ≤ e.span.stop ∧ e.span.stop ≤ text.length := by
    intro e he
    rcases List.mem_append.1 (hperm.mem_iff.1 he) with he | he
    · exact (hlaid.bounded e he).2
    · obtain ⟨d, hd, hin⟩ := hinside e he
      exact ⟨Nat.le_of_lt hin.2.1, Nat.le_trans hin.2.2 (hlaid.bounded d hd).2.2⟩
  have hpassed := perm_passedFrom hperm hle hlaid.apart hinside
  refine ⟨hbounded, sorted_mergeSort _, fun before e after hsplit => ?_, ?_,
    perm_madeFrom hperm hle hlaid.apart hinside, ?_, ?_⟩
  · refine (Nat.lt_or_ge e.span.start (cursorBehind 0 before)).symm.imp_right fun hlt => ?_
    have hmem : e ∈ passedFrom 0 (orderedEdits text program) := hsplit ▸ mem_passedFrom_of_lt hlt
    obtain ⟨n, hn, he⟩ := List.mem_flatMap.1 (hpassed.mem_iff.1 hmem)
    obtain ⟨hlist, hreference, hin⟩ := hinner n hn e he
    have hmade := mem_madeFrom_of_inside hperm hle hlaid.apart hinside hsplit
      (List.mem_append_right _ (remove_mem_keptEdits hlist hn)) hin
    exact ⟨n, hn, hlist, hreference, hmade, hin⟩
  · exact (perm_made_passed 0 _).trans (List.mergeSort_perm _ _)
  · refine hpassed.trans (List.Perm.of_eq (congrArg program.children.flatMap (funext fun n => ?_)))
    unfold innerEdits isExportList
    simp only [beq_iff_eq]
  · exact replaced_applyInOrder
      (fun e he => hbounded e ((List.mergeSort_perm _ _).mem_iff.1 he)) 0

end Programs

/-- The code of every source that is accepted ends with the text of the source, in which the spans of
the edits that are made are replaced and all other characters are copied in their order; and no edit
is passed over but those of references in an export list, which is taken away. -/
theorem edited_of_ofSource {source : String} {form : LoaderForm} (h : ofSource source = .ok form) :
    ∃ program body, checkedProgram source.toList = .ok program ∧
      form.code = endLines (header program) ++ String.ofList body ∧
      Edited source.toList program body := by
  obtain ⟨program, hprogram, rfl⟩ := exists_program_of_ofSource h
  exact ⟨program, _, hprogram, rfl, edited_of_parse (parse_of_checkedProgram hprogram)⟩

/-- An imported name is exported in a list, and called behind it. -/
def listSource : String := "import a from './a.js';\nexport \x7ba\x7d; // both\na();\n"

/-- What becomes of it: the list is taken away with the reference in it. -/
def listCode : String :=
  "\"use strict\";\n" ++
    "Object.defineProperty(exports, \"a\", \x7b enumerable: true, get: function () " ++
      "\x7b return __dep0.default; \x7d \x7d);\n" ++
    "var __dep0 = require(\"./a.js\");\n" ++
    "\n // both\n(0, __dep0.default)();\n"

theorem listSource_edited : ∃ form, ofSource listSource = .ok form ∧
    form.code.toList = listCode.toList ∧
    ∃ program body, checkedProgram listSource.toList = .ok program ∧
      form.code = endLines (header program) ++ String.ofList body ∧
      Edited listSource.toList program body := by
  have hlowered : codeOf listSource.toList = some listCode.toList := by decide +kernel
  obtain ⟨form, hform, hcode⟩ := exists_form_of_codeOf hlowered
  exact ⟨form, hform, hcode, edited_of_ofSource hform⟩

end ModuleBundler.LoaderForm
