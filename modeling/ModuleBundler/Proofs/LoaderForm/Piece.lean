import ModuleBundler.Proofs.LoaderForm.Layout
import ModuleBundler.Proofs.LoaderForm.Placement

/-!
# Statement by statement

The edits of a statement stand where the statement does, so loader form can be written one statement after
the other: each has a piece of the text that it stands in, and what comes out of the piece follows from the
statement alone (`Pieces`).  What does not come through is what belongs to no statement: that two of them
stand apart with nothing but a line end, or a third one, between them.

* `lt_stop_of_mem_keptEdits` — an edit of a statement ends behind the beginning of the statement;
* `pieces_of_rows` — so what is written for statements one behind the other comes piece by piece;
* `inPieces_of_parse` — and so does what is written for a program (`InPieces`);
* **`inPieces_of_ofSource`** — the code of every source that is accepted is made so;
* **`inKeptPieces_of_ofSource`** — where no reference is written over, each form of a statement has a form
  that it comes out in (`KeptPiece`).
-/

namespace ModuleBundler.LoaderForm

open ModuleBundler.Syntax ModuleBundler.Text

/-! ## Pieces of a text -/

/-- Statements have pieces of a text, one behind the other, and something becomes of the piece of each. -/
inductive Pieces (R : Nat → Node → List Char → List Char → Prop) :
    Nat → List Node → List Char → List Char → Prop
  | nil (offset : Nat) : Pieces R offset [] [] []
  | cons {offset : Nat} {n : Node} {nodes : List Node} {piece out text outs : List Char} :
      R offset n piece out → Pieces R (offset + piece.length) nodes text outs →
      Pieces R offset (n :: nodes) (piece ++ text) (out ++ outs)

namespace Pieces

variable {R R' : Nat → Node → List Char → List Char → Prop} {offset : Nat} {nodes : List Node}
  {text outs : List Char}

theorem snoc (h : Pieces R offset nodes text outs) {n : Node} {piece out : List Char}
    (hn : R (offset + text.length) n piece out) :
    Pieces R offset (nodes ++ [n]) (text ++ piece) (outs ++ out) := by
  induction h with
  | nil offset =>
    have hone := Pieces.cons hn (.nil _)
    rw [List.append_nil, List.append_nil] at hone
    exact hone
  | cons hfirst _ ih =>
    rw [List.length_append, ← Nat.add_assoc] at hn
    rw [List.cons_append, List.append_assoc, List.append_assoc]
    exact .cons hfirst (ih hn)

theorem mono (h : Pieces R offset nodes text outs)
    (hR : ∀ offset n piece out, n ∈ nodes → R offset n piece out → R' offset n piece out) :
    Pieces R' offset nodes text outs := by
  induction h with
  | nil offset => exact .nil offset
  | cons hfirst _ ih =>
    refine .cons (hR _ _ _ _ List.mem_cons_self hfirst) (ih fun offset n piece out hn => ?_)
    exact hR offset n piece out (List.mem_cons_of_mem _ hn)

/-- Each piece is found in the text at its offset. -/
theorem located (h : Pieces R offset nodes text outs) {source rest : List Char}
    (hsource : source.drop offset = text ++ rest) : Pieces (fun offset n piece out =>
      R offset n piece out ∧ ∃ rest, source.drop offset = piece ++ rest) offset nodes text outs := by
  induction h with
  | nil offset => exact .nil offset
  | cons hfirst _ ih =>
    rw [List.append_assoc] at hsource
    refine .cons ⟨hfirst, _, hsource⟩ (ih ?_)
    rw [← List.drop_drop, hsource, List.drop_left]

end Pieces

/-! ## Edits piece by piece -/

/-- A statement has a piece of a text, which begins at an offset, and its edits are made there. -/
structure EditedPiece (text : List Char) (values : List NamedValue) (offset : Nat) (n : Node)
    (piece out : List Char) : Prop where
  placed : Placed offset (offset + piece.length) n
  edited : ∃ es, es.Pairwise Edit.Before ∧ es.Perm (keptEdits text values n) ∧
    Replaced offset piece es out

section Statements

variable {text : List Char} {values : List NamedValue} {lo hi : Nat} {n : Node} {e : Edit}

/-- What is edited in a statement itself ends behind the beginning of the statement. -/
theorem lt_stop_of_mem_ownEdits (h : Placed lo hi n) (he : e ∈ ownEdits text n) : lo < e.span.stop := by
  have hlead : n.Led lo hi → lo < (n.child 0).span.start := fun hled =>
    Nat.lt_of_le_of_lt hled.lo_le hled.lt
  have hwhole : n.Bounded lo hi → lo < n.span.stop := fun hbounded =>
    Nat.lt_of_le_of_lt hbounded.lo_le hbounded.lt
  cases h.stands with
  | plain hplain =>
    rw [ownEdits_of_plain hplain] at he
    cases he
  | request hlabel _ hbounded =>
    rcases ownEdits_of_request text hlabel with hnone | hone
    · rw [hnone] at he
      cases he
    · rw [hone] at he
      rw [List.mem_singleton.1 he]
      exact hwhole hbounded
  | list hlabel hbounded _ =>
    rw [ownEdits_of_list hlabel] at he
    rw [List.mem_singleton.1 he]
    exact hwhole hbounded
  | declaration hlabel hled =>
    rw [ownEdits_of_declaration hlabel] at he
    rw [List.mem_singleton.1 he]
    exact hlead hled
  | default offset hlabel hled =>
    obtain ⟨new, more, hedits, hmore⟩ := localEdits_of_default text hlabel
    rw [ownEdits_of_default hlabel, hedits] at he
    rcases List.mem_cons.1 he with rfl | he
    · exact hlead hled
    · rcases hmore with rfl | ⟨place, added, rfl, hplace⟩
      · cases he
      · obtain ⟨⟨hfrom, -⟩, -⟩ := insert_apart h hlabel hplace
        rw [List.mem_singleton.1 he]
        exact Nat.lt_of_lt_of_le (hlead hled) hfrom

/-- So does an edit of a reference in it. -/
theorem lt_stop_of_mem_keptEdits (h : Placed lo hi n) (he : e ∈ keptEdits text values n) :
    lo < e.span.stop := by
  unfold keptEdits at he
  rcases List.mem_append.1 he with hown | hreference
  · exact lt_stop_of_mem_ownEdits h hown
  · split at hreference
    · cases hreference
    · have hcovers := covers_of_reference hreference
      exact Nat.lt_of_le_of_lt (h.within_span hcovers).1 (h.start_lt_stop hcovers)

/-- Edits of statements one behind the other end behind the beginning of the first. -/
theorem lt_stop_of_rows {items : List Node} (h : Rows lo hi items)
    (he : e ∈ items.flatMap (keptEdits text values)) : lo < e.span.stop := by
  obtain ⟨n, hn, he⟩ := List.mem_flatMap.1 he
  obtain ⟨before, -, first, _, -, hbefore, hplaced, -⟩ := h.exists_split hn
  exact Nat.lt_of_le_of_lt (laid_rows text values hbefore).le (lt_stop_of_mem_keptEdits hplaced he)

/-- What is written for statements one behind the other comes piece by piece. -/
theorem pieces_of_rows (source : List Char) {items : List Node} (h : Rows lo hi items)
    {es : List Edit} {out : List Char} (hlength : lo + text.length = hi)
    (hsorted : es.Pairwise Edit.Before) (hperm : es.Perm (items.flatMap (keptEdits source values)))
    (hreplaced : Replaced lo text es out) :
    Pieces (fun offset n piece out => EditedPiece source values offset n piece out ∧
      n.Ended (offset + piece.length)) lo items text out := by
  induction h generalizing text out es with
  | nil =>
    obtain rfl : es = [] := List.perm_nil.1 hperm
    obtain rfl : text = [] := List.length_eq_zero_iff.1 (by omega)
    rw [hreplaced.eq_self]
    exact .nil lo
  | @snoc mid hi items n hrows hplaced hended ih =>
    have hlaid := laid_rows source values hrows
    have hown : Laid mid hi (keptEdits source values n) := laid_keptEdits hplaced
    rw [List.flatMap_append, List.flatMap_singleton] at hperm
    obtain ⟨es, es', rfl, hes, hes'⟩ := exists_append_of_sorted hsorted hperm
      (fun e he => (hlaid.bounded e he).2)
      fun e he => ⟨(hown.bounded e he).1, lt_stop_of_mem_keptEdits hplaced he⟩
    obtain ⟨hsorted, hsorted', -⟩ := List.pairwise_append.1 hsorted
    obtain ⟨text, piece, out, pieceOut, rfl, rfl, hmid, hbefore, hpiece⟩ := hreplaced.exists_split
      (fun e he => (hlaid.bounded e (hes.mem_iff.1 he)).2.2)
      (fun e he => (hown.bounded e (hes'.mem_iff.1 he)).1) hlaid.le (hlength ▸ hplaced.le)
    rw [List.length_append, ← Nat.add_assoc] at hlength
    refine (ih hmid hsorted hes hbefore).snoc ⟨⟨?_, es', hsorted', hes', ?_⟩, ?_⟩
    · rw [hlength, hmid]
      exact hplaced
    · rw [hmid]
      exact hpiece
    · rw [hlength]
      exact hended

end Statements

/-- There is one edit of a hashbang at most. -/
theorem eq_hashbangEdits_of_perm {program : Node} {es : List Edit}
    (h : es.Perm (hashbangEdits program)) : es = hashbangEdits program := by
  by_cases hbang : ((program.child 0).label == .hashbang) = true
  · have hone : hashbangEdits program = [.remove (program.child 0).span] := if_pos hbang
    rw [hone] at h ⊢
    exact List.perm_singleton.1 h
  · have hnone : hashbangEdits program = [] := if_neg hbang
    rw [hnone] at h ⊢
    exact List.perm_nil.1 h

/-- What is written for a program comes piece by piece: its text has a front, in which a hashbang is taken
out, then the pieces of its statements, and a rest, which is copied. -/
def InPieces (R : Nat → Node → List Char → List Char → Prop) (text : List Char) (program : Node)
    (body : List Char) : Prop :=
  ∃ preamble statements front pieces rest frontOut outs, program.children = preamble :: statements ∧
    text = front ++ (pieces ++ rest) ∧ body = frontOut ++ (outs ++ rest) ∧
      Replaced 0 front (hashbangEdits program) frontOut ∧ Pieces R front.length statements pieces outs

theorem InPieces.mono {R R' : Nat → Node → List Char → List Char → Prop} {text body : List Char}
    {program : Node} (h : InPieces R text program body)
    (hR : ∀ offset n piece out, n ∈ program.children → R offset n piece out → R' offset n piece out) :
    InPieces R' text program body := by
  obtain ⟨preamble, statements, front, pieces, rest, frontOut, outs, hchildren, htext, hbody, hfront,
    hpieces⟩ := h
  refine ⟨preamble, statements, front, pieces, rest, frontOut, outs, hchildren, htext, hbody, hfront,
    hpieces.mono fun offset n piece out hn => hR offset n piece out ?_⟩
  rw [hchildren]
  exact List.mem_cons_of_mem _ hn

/-- The pieces of a program are found in its text. -/
theorem InPieces.located {R : Nat → Node → List Char → List Char → Prop} {text body : List Char}
    {program : Node} (h : InPieces R text program body) : InPieces (fun offset n piece out =>
      R offset n piece out ∧ ∃ rest, text.drop offset = piece ++ rest) text program body := by
  obtain ⟨preamble, statements, front, pieces, rest, frontOut, outs, hchildren, htext, hbody, hfront,
    hpieces⟩ := h
  have hdrop : text.drop front.length = pieces ++ rest := by rw [htext, List.drop_left]
  exact ⟨preamble, statements, front, pieces, rest, frontOut, outs, hchildren, htext, hbody, hfront,
    hpieces.located hdrop⟩

/-- The edits of a program that was parsed are made piece by piece, and each statement ends in its
piece. -/
theorem inEndedPieces_of_parse {text : List Char} {program : Node} (h : parse text = .ok program) :
    InPieces (fun offset n piece out => EditedPiece text (imports program) offset n piece out ∧
      n.Ended (offset + piece.length)) text program (applyEdits text (edits text program)) := by
  have hedited := edited_of_parse h
  obtain ⟨preamble, statements, lo, hi, hprogram, hpreamble, hrows, hhi⟩ := rows_of_parse h
  have hchildren : program.children = preamble :: statements := by rw [hprogram]; rfl
  have hfront : Laid 0 lo (hashbangEdits program) := by
    rw [hprogram]
    exact laid_preamble program.span statements hpreamble
  have hlaid := laid_rows text (imports program) hrows
  have hperm := hedited.made
  rw [hchildren, List.flatMap_cons, (edits_preamble text _ hpreamble).1, List.nil_append] at hperm
  have hsorted := hedited.sorted.sublist (madeFrom_sublist 0 (orderedEdits text program))
  obtain ⟨es, es', front, pieces, rest, frontOut, outs, htext, hout, hlo, hlength, hes, hes', hsorted',
    hbefore, hstatements⟩ := hedited.replaced.exists_between hsorted hperm
      (fun e he => (hfront.bounded e he).2)
      (fun e he => ⟨(hlaid.bounded e he).1, lt_stop_of_rows hrows he, (hlaid.bounded e he).2.2⟩)
      hlaid.le hhi
  refine ⟨preamble, statements, front, pieces, rest, frontOut, outs, hchildren, htext, hout, ?_, ?_⟩
  · rw [← eq_hashbangEdits_of_perm hes]
    exact hbefore
  · rw [hlo]
    exact pieces_of_rows text hrows hlength hsorted' hes' hstatements

theorem inPieces_of_parse {text : List Char} {program : Node} (h : parse text = .ok program) :
    InPieces (EditedPiece text (imports program)) text program
      (applyEdits text (edits text program)) :=
  (inEndedPieces_of_parse h).mono fun _ _ _ _ _ => And.left

/-! ## Statements without references -/

/-- What becomes of the piece of a statement in which no reference is written over. -/
inductive KeptPiece (source : List Char) (offset : Nat) (n : Node) : List Char → List Char → Prop
  /-- A statement that is no import or export is copied. -/
  | copied {piece : List Char} (hplain : isModuleItem n = false) : KeptPiece source offset n piece piece
  /-- An import, an export list and an export of everything are taken out. -/
  | removed {before statement after : List Char}
      (hlabel : (∃ clause, n.label = .importDecl clause) ∨ n.label = .exportAll ∨
        n.label = .exportNames)
      (hstart : offset + before.length = n.span.start)
      (hstop : n.span.start + statement.length = n.span.stop) :
      KeptPiece source offset n (before ++ (statement ++ after)) (before ++ after)
  /-- The words in front of a declaration that is exported are taken out. -/
  | exported {before words after : List Char}
      (hlabel : n.label = .exportDecl ∨ ∃ place name, n.label = .exportDefault place ∧
        DefaultForm.of (n.child 0) = .declared name)
      (hstart : offset + before.length = n.span.start)
      (hstop : n.span.start + words.length = (n.child 0).span.start) :
      KeptPiece source offset n (before ++ (words ++ after)) (before ++ after)
  /-- So are those in front of a default function without a name, and the name is put in front of its
  parameters. -/
  | named {before words head after : List Char} {place params : Nat}
      (hlabel : n.label = .exportDefault place)
      (hform : DefaultForm.of (n.child 0) = .unnamedFunction params)
      (hstart : offset + before.length = n.span.start)
      (hstop : n.span.start + words.length = (n.child 0).span.start)
      (hparams : (n.child 0).span.start + head.length = params) :
      KeptPiece source offset n (before ++ (words ++ (head ++ after)))
        (before ++ (head ++
          (((if precededBy source params isBlank then "" else " ") ++ defaultName).toList ++ after)))
  /-- Any other default value becomes the value of a constant, with a semicolon if it had none. -/
  | value {before words value after : List Char} {place : Nat} {semicolon : String}
      (hlabel : n.label = .exportDefault place) (hform : DefaultForm.of (n.child 0) = .value)
      (hsemicolon : semicolon = if precededBy source n.span.stop (· == ';') then "" else ";")
      (hstart : offset + before.length = n.span.start)
      (hstop : n.span.start + words.length = (n.child 0).span.start)
      (hend : (n.child 0).span.start + value.length = n.span.stop) :
      KeptPiece source offset n (before ++ (words ++ (value ++ after)))
        (before ++ (("const " ++ defaultName ++ " = ").toList ++
          (value ++ (semicolon.toList ++ after))))

section Kept

variable {source : List Char} {values : List NamedValue} {offset : Nat} {n : Node}
  {piece out : List Char}

/-- A default export in its piece. -/
theorem keptPiece_of_default {place : Nat} (hlabel : n.label = .exportDefault place)
    (hplaced : Placed offset (offset + piece.length) n) {es : List Edit}
    (hsorted : es.Pairwise Edit.Before) (hperm : es.Perm (localEdits source n))
    (hreplaced : Replaced offset piece es out) : KeptPiece source offset n piece out := by
  have hdefault := hplaced.exportsDefault hlabel
  have hlt := hdefault.led.lt
  unfold localEdits at hperm
  rw [hlabel] at hperm
  dsimp only at hperm
  split at hperm
  · rename_i name hform
    obtain rfl := List.perm_singleton.1 hperm
    obtain ⟨before, words, after, rfl, rfl, hstart, hstop⟩ := hreplaced.of_singleton
    exact .exported (.inr ⟨place, name, hlabel, hform⟩) hstart hstop
  · rename_i params hform
    have hbehind := (hdefault.params params hform).1
    obtain rfl := eq_pair_of_perm hsorted hperm (Nat.lt_of_lt_of_le hlt hbehind)
    obtain ⟨before, words, head, after, rfl, rfl, hstart, hstop, hhead⟩ := hreplaced.of_insert
    exact .named hlabel hform hstart hstop hhead
  · rename_i hform
    split at hperm
    · rename_i hclosed
      obtain rfl := List.perm_singleton.1 hperm
      obtain ⟨before, words, behind, rfl, rfl, hstart, hstop⟩ := hreplaced.of_singleton
      obtain ⟨value, after, rfl, hend⟩ : ∃ value after, behind = value ++ after ∧
          (n.child 0).span.start + value.length = n.span.stop := by
        have hle := hdefault.value_le
        have hhi := hdefault.bounded.le_hi
        simp only [List.length_append] at hhi
        dsimp only at hstart hstop
        refine ⟨behind.take (n.span.stop - (n.child 0).span.start), behind.drop _,
          (List.take_append_drop _ _).symm, ?_⟩
        rw [List.length_take]
        omega
      show KeptPiece source offset n _ (before ++ (_ ++ (value ++ ("".toList ++ after))))
      exact .value hlabel hform (if_pos hclosed).symm hstart hstop hend
    · rename_i hopen
      obtain rfl := eq_pair_of_perm hsorted hperm (Nat.lt_of_lt_of_le hlt hdefault.value_le)
      obtain ⟨before, words, value, after, rfl, rfl, hstart, hstop, hend⟩ := hreplaced.of_insert
      exact .value hlabel hform (if_neg hopen).symm hstart hstop hend

/-- What becomes of a statement without references is one of the forms. -/
theorem keptPiece_of_edited {item : Item} (h : EditedPiece source values offset n piece out)
    (hmeans : Means n item) (hreferences : statementReferences values n = []) :
    KeptPiece source offset n piece out := by
  obtain ⟨es, hsorted, hperm, hreplaced⟩ := h.edited
  have hown : keptEdits source values n = ownEdits source n := by
    unfold keptEdits
    rw [hreferences, ite_self, List.append_nil]
  rw [hown] at hperm
  have hremoved : ownEdits source n = [.remove n.span] → (∃ clause, n.label = .importDecl clause) ∨
      n.label = .exportAll ∨ n.label = .exportNames → KeptPiece source offset n piece out := by
    intro hone hlabel
    rw [hone] at hperm
    obtain rfl := List.perm_singleton.1 hperm
    obtain ⟨before, statement, after, rfl, rfl, hstart, hstop⟩ := hreplaced.of_singleton
    exact .removed hlabel hstart hstop
  cases h.placed.stands with
  | plain hplain =>
    rw [ownEdits_of_plain hplain] at hperm
    obtain rfl := List.perm_nil.1 hperm
    rw [hreplaced.eq_self]
    exact .copied hplain
  | request hlabel =>
    have hone : ownEdits source n = [.remove n.span] := by
      refine (ownEdits_of_request source hlabel).resolve_left fun hnone => ?_
      unfold ownEdits at hnone
      have hrequest := (List.append_eq_nil_iff.1 hnone).1
      rw [List.map_eq_nil_iff, Option.toList_eq_nil_iff] at hrequest
      exact hmeans.requestOf_ne_none hlabel hrequest
    exact hremoved hone (hlabel.imp_right .inl)
  | list hlabel => exact hremoved (ownEdits_of_list hlabel) (.inr (.inr hlabel))
  | declaration hlabel =>
    rw [ownEdits_of_declaration hlabel] at hperm
    obtain rfl := List.perm_singleton.1 hperm
    obtain ⟨before, words, after, rfl, rfl, hstart, hstop⟩ := hreplaced.of_singleton
    exact .exported (.inl hlabel) hstart hstop
  | default _ hlabel =>
    rw [ownEdits_of_default hlabel] at hperm
    exact keptPiece_of_default hlabel h.placed hsorted hperm hreplaced

end Kept

/-! ## Every source -/

/-- The code of every source that is accepted is written piece by piece behind the header: the edits of a
statement are made in the piece of the statement. -/
theorem inPieces_of_ofSource {source : String} {form : LoaderForm} (h : ofSource source = .ok form) :
    ∃ program body, checkedProgram source.toList = .ok program ∧
      form.code = endLines (header program) ++ String.ofList body ∧
      InPieces (EditedPiece source.toList (imports program)) source.toList program body := by
  obtain ⟨program, hprogram, rfl⟩ := exists_program_of_ofSource h
  exact ⟨program, _, hprogram, rfl, inPieces_of_parse (parse_of_checkedProgram hprogram)⟩

/-- A statement ends at the end of its line, and the next one begins with a call of an imported name. -/
def calleeSource : String := "import \x7bf\x7d from './f.js';\nlet a = 1\nf()\n"

/-- What becomes of it: the pieces stand one behind the other, but are read as one statement. -/
def calleeCode : String :=
  "\"use strict\";\nvar __dep0 = require(\"./f.js\");\n\nlet a = 1\n(0, __dep0.f)()\n"

theorem calleeSource_inPieces : ∃ form, ofSource calleeSource = .ok form ∧
    form.code.toList = calleeCode.toList ∧
    ∃ program body, checkedProgram calleeSource.toList = .ok program ∧
      form.code = endLines (header program) ++ String.ofList body ∧
      InPieces (EditedPiece calleeSource.toList (imports program)) calleeSource.toList program
        body := by
  have hlowered : codeOf calleeSource.toList = some calleeCode.toList := by decide +kernel
  obtain ⟨form, hform, hcode⟩ := exists_form_of_codeOf hlowered
  exact ⟨form, hform, hcode, inPieces_of_ofSource hform⟩

/-- Where no reference is written over, each statement of a source that is accepted is copied, taken out,
or stripped of the words of its export, in its own piece of the text. -/
theorem inKeptPieces_of_ofSource {source : String} {form : LoaderForm}
    (h : ofSource source = .ok form)
    (hreferences : ∀ program, checkedProgram source.toList = .ok program →
      referenceEdits program = []) :
    ∃ program body, checkedProgram source.toList = .ok program ∧
      form.code = endLines (header program) ++ String.ofList body ∧
      InPieces (KeptPiece source.toList) source.toList program body := by
  obtain ⟨program, hprogram, rfl⟩ := exists_program_of_ofSource h
  have hparse := parse_of_checkedProgram hprogram
  obtain ⟨hlabel, items, hitems⟩ := exists_items hparse
  have hmeans : ∀ m ∈ program.children, ∃ item, Means m item :=
    forall_of_forall₂ (fun m item h => Exists.intro item h) hitems
  have hnone := hreferences program hprogram
  rw [referenceEdits_eq hlabel, List.flatMap_eq_nil_iff] at hnone
  refine ⟨program, _, hprogram, rfl, (inPieces_of_parse hparse).mono ?_⟩
  intro offset n piece out hn hpiece
  obtain ⟨item, hitem⟩ := hmeans n hn
  exact keptPiece_of_edited hpiece hitem (hnone n hn)

/-- Nothing but an export list keeps two statements apart; a declaration and a default value follow. -/
def exportsSource : String := "let a = 1\nexport \x7ba\x7d\n(a)\nexport let b\nexport default a\n"

/-- What becomes of it: the first two pieces that are left are read as one statement. -/
def exportsCode : String :=
  "\"use strict\";\n" ++
    "Object.defineProperty(exports, \"a\", \x7b enumerable: true, get: function () " ++
      "\x7b return a; \x7d \x7d);\n" ++
    "Object.defineProperty(exports, \"b\", \x7b enumerable: true, get: function () " ++
      "\x7b return b; \x7d \x7d);\n" ++
    "Object.defineProperty(exports, \"default\", \x7b enumerable: true, get: function () " ++
      "\x7b return __default; \x7d \x7d);\n" ++
    "let a = 1\n\n(a)\nlet b\nconst __default = a;\n"

theorem exportsSource_inKeptPieces : ∃ form, ofSource exportsSource = .ok form ∧
    form.code.toList = exportsCode.toList ∧
    ∃ program body, checkedProgram exportsSource.toList = .ok program ∧
      form.code = endLines (header program) ++ String.ofList body ∧
      InPieces (KeptPiece exportsSource.toList) exportsSource.toList program body := by
  have hlowered : codeOf exportsSource.toList = some exportsCode.toList := by decide +kernel
  have hnone : (checkedProgram exportsSource.toList).toOption.map referenceEdits = some [] := by
    decide +kernel
  obtain ⟨form, hform, hcode⟩ := exists_form_of_codeOf hlowered
  refine ⟨form, hform, hcode, inKeptPieces_of_ofSource hform fun program hprogram => ?_⟩
  rw [hprogram] at hnone
  exact Option.some.inj hnone

end ModuleBundler.LoaderForm
