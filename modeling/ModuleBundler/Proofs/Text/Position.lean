import ModuleBundler.Proofs.Text.Split
import ModuleBundler.Text.Position

/-!
# Positions tell offsets apart

What stands in front of an offset is some whole lines, each with its line feed, and the beginning of one
more line (`exists_lines`).  A position says how many lines there are, and how many characters of the
last one.

* `charsBefore_eq_some_iff` and `isBoundary_iff` — the offsets that cut no character in two;
* `Position.ofChars_lines` and `textBefore_lines` — the position behind some lines, and what stands in
  front of that position;
* `Position.before_ofChars` — every further character leads to a later position;
* **`positionAt_encodes`** — positions are in the order of the offsets, each offset can be read off its
  position, and what is no offset of a character stands for the end of the text.
-/

namespace ModuleBundler.Text

/-! ## Offsets -/

/-- An offset at which a character of a text begins, or the text ends. -/
def IsBoundary (source : String) (offset : Nat) : Prop := String.Pos.Raw.IsValid source ⟨offset⟩

/-- The number of bytes that characters fill. -/
def byteCount (chars : List Char) : Nat := (String.ofList chars).utf8ByteSize

theorem byteCount_append (first second : List Char) :
    byteCount (first ++ second) = byteCount first + byteCount second := by
  unfold byteCount
  rw [String.ofList_append, String.utf8ByteSize_append]

theorem byteCount_cons (c : Char) (rest : List Char) :
    byteCount (c :: rest) = c.utf8Size + byteCount rest := by
  unfold byteCount
  rw [String.ofList_cons, String.utf8ByteSize_append, String.utf8ByteSize_singleton]

/-- The characters in front of an offset are those that fill as many bytes as it says. -/
theorem charsBefore_eq_some_iff {text before : List Char} {offset : Nat} :
    charsBefore text offset = some before ↔
      byteCount before = offset ∧ ∃ after, text = before ++ after := by
  induction text generalizing offset before with
  | nil =>
    cases before with
    | nil => cases offset <;> simp [charsBefore, byteCount]
    | cons c rest => cases offset <;> simp [charsBefore]
  | cons c text ih =>
    have hc := c.utf8Size_pos
    cases offset with
    | zero =>
      cases before with
      | nil => simp [charsBefore, byteCount]
      | cons d before =>
        have hd := d.utf8Size_pos
        rw [byteCount_cons]
        refine iff_of_false (by simp [charsBefore]) fun h => ?_
        omega
    | succ offset =>
      unfold charsBefore
      cases before with
      | nil => split <;> simp [byteCount]
      | cons d before =>
        rw [byteCount_cons]
        split
        · rename_i hle
          simp only [Option.map_eq_some_iff, List.cons.injEq, ih, List.cons_append]
          constructor
          · rintro ⟨_, ⟨hcount, after, rfl⟩, rfl, rfl⟩
            exact ⟨by omega, after, rfl, rfl⟩
          · rintro ⟨hcount, after, rfl, rfl⟩
            exact ⟨before, ⟨by omega, after, rfl⟩, rfl, rfl⟩
        · rename_i hlt
          refine iff_of_false nofun ?_
          rintro ⟨hcount, after, htext⟩
          rw [List.cons_append] at htext
          rw [← (List.cons.inj htext).1] at hcount
          omega

theorem isBoundary_iff {source : String} {offset : Nat} :
    IsBoundary source offset ↔ ∃ before, charsBefore source.toList offset = some before := by
  unfold IsBoundary
  rw [String.Pos.Raw.isValid_iff_exists_append]
  simp only [charsBefore_eq_some_iff, String.Pos.Raw.ext_iff]
  constructor
  · rintro ⟨first, second, rfl, rfl⟩
    exact ⟨first.toList, by rw [byteCount, String.ofList_toList]; rfl, second.toList,
      String.toList_append⟩
  · rintro ⟨before, hcount, after, htext⟩
    refine ⟨String.ofList before, String.ofList after, ?_, hcount.symm⟩
    rw [← String.ofList_append, ← htext, String.ofList_toList]

/-- The position of an offset that cuts no character is that behind the characters in front of it. -/
theorem positionAt_of_charsBefore {source : String} {offset : Nat} {before : List Char}
    (h : charsBefore source.toList offset = some before) :
    positionAt source offset = Position.ofChars before := by
  unfold positionAt
  rw [h]
  rfl

/-- Any other offset stands for the end. -/
theorem positionAt_of_not_isBoundary {source : String} {offset : Nat}
    (h : ¬ IsBoundary source offset) :
    positionAt source offset = Position.ofChars source.toList := by
  rw [isBoundary_iff, not_exists] at h
  unfold positionAt
  rw [Option.eq_none_iff_forall_ne_some.2 h]
  rfl

/-- The characters in front of the end are all. -/
theorem charsBefore_utf8ByteSize (source : String) :
    charsBefore source.toList source.utf8ByteSize = some source.toList :=
  charsBefore_eq_some_iff.2
    ⟨by rw [byteCount, String.ofList_toList], [], (List.append_nil _).symm⟩

/-! ## Lines -/

/-- The lines of a text, with the one behind the last line feed. -/
def linesOf (text : List Char) : List (List Char) := splitAtChar '\n' text

/-- Lines, each with its line feed. -/
def feedLines (lines : List (List Char)) : List Char := lines.flatMap (· ++ ['\n'])

/-- A text is some whole lines and the beginning of one more. -/
theorem exists_lines (text : List Char) : ∃ full last, text = feedLines full ++ last ∧
    (∀ line ∈ full, '\n' ∉ line) ∧ '\n' ∉ last := by
  induction text with
  | nil => exact ⟨[], [], rfl, nofun, List.not_mem_nil⟩
  | cons c rest ih =>
    obtain ⟨full, last, rfl, hfull, hlast⟩ := ih
    by_cases hc : c = '\n'
    · exact ⟨[] :: full, last, by rw [hc]; rfl, List.forall_mem_cons.2 ⟨List.not_mem_nil, hfull⟩,
        hlast⟩
    · have hcons : ∀ {line : List Char}, '\n' ∉ line → '\n' ∉ c :: line := fun hline hmem =>
        (List.mem_cons.1 hmem).elim (fun h => hc h.symm) hline
      cases full with
      | nil => exact ⟨[], c :: last, rfl, nofun, hcons hlast⟩
      | cons line full =>
        obtain ⟨hline, hfull⟩ := List.forall_mem_cons.1 hfull
        exact ⟨(c :: line) :: full, last, rfl, List.forall_mem_cons.2 ⟨hcons hline, hfull⟩, hlast⟩

/-- A line starts behind whole lines and goes on in what follows. -/
theorem linesOf_append {full : List (List Char)} {last : List Char}
    (hfull : ∀ line ∈ full, '\n' ∉ line) (hlast : '\n' ∉ last) (after : List Char) :
    ∃ rest more, linesOf (feedLines full ++ last ++ after) = full ++ (last ++ rest) :: more := by
  obtain ⟨rest, more, hsplit⟩ := List.exists_cons_of_ne_nil (splitAtChar_ne_nil '\n' after)
  refine ⟨rest, more, ?_⟩
  unfold linesOf feedLines
  rw [List.append_assoc, splitAtChar_flatMap_concat hfull, splitAtChar_append hlast hsplit]

/-! ## Positions -/

namespace Position

/-- A position comes before another one: in a line above, or in the same line further to the left. -/
def Before (p q : Position) : Prop := p.line < q.line ∨ p.line = q.line ∧ p.column < q.column

variable {p q r : Position}

theorem Before.trans (h : p.Before q) (h' : q.Before r) : p.Before r := by
  unfold Before at *
  omega

theorem before_step (p : Position) (c : Char) : p.Before (p.step c) := by
  unfold step
  split
  · exact .inl (Nat.lt_succ_self _)
  · exact .inr ⟨rfl, Nat.lt_succ_self _⟩

/-- Characters lead to a later position. -/
theorem before_foldl (p : Position) (c : Char) (rest : List Char) :
    p.Before ((c :: rest).foldl step p) := by
  induction rest generalizing p c with
  | nil => exact before_step p c
  | cons d rest ih => exact (before_step p c).trans (ih (p.step c) d)

theorem before_ofChars (text : List Char) (c : Char) (rest : List Char) :
    (ofChars text).Before (ofChars (text ++ c :: rest)) := by
  unfold ofChars
  rw [List.foldl_append]
  exact before_foldl _ c rest

/-- Inside of a line, every character takes one column. -/
theorem foldl_step_line (p : Position) {line : List Char} (hline : '\n' ∉ line) :
    line.foldl step p = ⟨p.line, p.column + line.length⟩ := by
  induction line generalizing p with
  | nil => rfl
  | cons c rest ih =>
    obtain ⟨hc, hrest⟩ := not_or.1 (mt List.mem_cons.2 hline)
    have hstep : p.step c = ⟨p.line, p.column + 1⟩ := if_neg fun h => hc h.symm
    rw [List.foldl_cons, hstep, ih _ hrest, List.length_cons]
    exact congrArg (Position.mk p.line) (Nat.add_right_comm _ _ _)

/-- Every line feed leads to the beginning of a line. -/
theorem foldl_step_feedLines (n : Nat) {lines : List (List Char)}
    (hlines : ∀ line ∈ lines, '\n' ∉ line) :
    (feedLines lines).foldl step ⟨n, 1⟩ = ⟨n + lines.length, 1⟩ := by
  induction lines generalizing n with
  | nil => rfl
  | cons line rest ih =>
    obtain ⟨hline, hrest⟩ := List.forall_mem_cons.1 hlines
    have hfirst : (line ++ ['\n']).foldl step ⟨n, 1⟩ = ⟨n + 1, 1⟩ := by
      rw [List.foldl_append, foldl_step_line _ hline]
      rfl
    have hsplit : feedLines (line :: rest) = (line ++ ['\n']) ++ feedLines rest := rfl
    rw [hsplit, List.foldl_append, hfirst, ih (n + 1) hrest, List.length_cons]
    exact congrArg (Position.mk · 1) (Nat.add_right_comm _ _ _)

/-- The position behind whole lines and the beginning of a line counts both. -/
theorem ofChars_lines {full : List (List Char)} {last : List Char}
    (hfull : ∀ line ∈ full, '\n' ∉ line) (hlast : '\n' ∉ last) :
    ofChars (feedLines full ++ last) = ⟨full.length + 1, last.length + 1⟩ := by
  unfold ofChars
  rw [List.foldl_append, foldl_step_feedLines 1 hfull, foldl_step_line _ hlast]
  simp only [Position.mk.injEq]
  omega

end Position

/-! ## Offsets and positions -/

/-- What stands in front of a position: the lines above, and as many characters of its own line as its
column says. -/
def textBefore (text : List Char) (p : Position) : List Char :=
  feedLines ((linesOf text).take (p.line - 1)) ++
    ((linesOf text)[p.line - 1]?.getD []).take (p.column - 1)

/-- Positions of offsets are as good as the offsets: they are in the same order, they are in the text,
and the bytes in front of a position give the offset back.  All that is no offset of a character, or of
the end, has the position of the end. -/
structure PositionCode (source : String) (position : Nat → Position) : Prop where
  increasing : ∀ a b, IsBoundary source a → IsBoundary source b → a < b →
    (position a).Before (position b)
  line_mem : ∀ a, 1 ≤ (position a).line ∧ (position a).line ≤ (linesOf source.toList).length
  column_mem : ∀ a, ∀ line ∈ (linesOf source.toList)[(position a).line - 1]?,
    1 ≤ (position a).column ∧ (position a).column ≤ line.length + 1
  recovered : ∀ a, IsBoundary source a →
    textBefore source.toList (position a) <+: source.toList ∧
    byteCount (textBefore source.toList (position a)) = a
  clamped : ∀ a, ¬ IsBoundary source a → position a = position source.utf8ByteSize

/-- What the position behind the beginning of a text says about the text. -/
theorem ofChars_spec (before after : List Char) :
    textBefore (before ++ after) (Position.ofChars before) = before ∧
    1 ≤ (Position.ofChars before).line ∧
    (Position.ofChars before).line ≤ (linesOf (before ++ after)).length ∧
    ∀ line ∈ (linesOf (before ++ after))[(Position.ofChars before).line - 1]?,
      1 ≤ (Position.ofChars before).column ∧ (Position.ofChars before).column ≤ line.length + 1 := by
  obtain ⟨full, last, rfl, hfull, hlast⟩ := exists_lines before
  obtain ⟨rest, more, hlines⟩ := linesOf_append hfull hlast after
  unfold textBefore
  rw [Position.ofChars_lines hfull hlast, hlines]
  simp

/-- Every position of a text is that behind a beginning of it. -/
theorem exists_before (source : String) (offset : Nat) :
    ∃ before after, source.toList = before ++ after ∧
      positionAt source offset = Position.ofChars before := by
  by_cases h : IsBoundary source offset
  · obtain ⟨before, hbefore⟩ := isBoundary_iff.1 h
    obtain ⟨-, after, htext⟩ := charsBefore_eq_some_iff.1 hbefore
    exact ⟨before, after, htext, positionAt_of_charsBefore hbefore⟩
  · exact ⟨source.toList, [], (List.append_nil _).symm, positionAt_of_not_isBoundary h⟩

/-- A larger offset has a later position. -/
theorem positionAt_before {source : String} {a b : Nat} (ha : IsBoundary source a)
    (hb : IsBoundary source b) (hab : a < b) :
    (positionAt source a).Before (positionAt source b) := by
  obtain ⟨first, hfirst⟩ := isBoundary_iff.1 ha
  obtain ⟨second, hsecond⟩ := isBoundary_iff.1 hb
  obtain ⟨hcount, after, htext⟩ := charsBefore_eq_some_iff.1 hfirst
  obtain ⟨hcount', after', htext'⟩ := charsBefore_eq_some_iff.1 hsecond
  rw [positionAt_of_charsBefore hfirst, positionAt_of_charsBefore hsecond]
  -- both are beginnings of the text, and the one with more bytes is the longer one
  rcases List.prefix_or_prefix_of_prefix ⟨after, htext.symm⟩ ⟨after', htext'.symm⟩ with
    ⟨more, rfl⟩ | ⟨more, rfl⟩
  · cases more with
    | nil =>
      rw [List.append_nil] at hcount'
      omega
    | cons c rest => exact Position.before_ofChars first c rest
  · rw [byteCount_append] at hcount
    omega

/-- The positions of a text encode its offsets. -/
theorem positionAt_encodes (source : String) : PositionCode source (positionAt source) where
  increasing _ _ := positionAt_before
  line_mem a := by
    obtain ⟨before, after, htext, hposition⟩ := exists_before source a
    obtain ⟨-, hpos, hle, -⟩ := ofChars_spec before after
    rw [hposition, htext]
    exact ⟨hpos, hle⟩
  column_mem a := by
    obtain ⟨before, after, htext, hposition⟩ := exists_before source a
    rw [hposition, htext]
    exact (ofChars_spec before after).2.2.2
  recovered a ha := by
    obtain ⟨before, hbefore⟩ := isBoundary_iff.1 ha
    obtain ⟨hcount, after, htext⟩ := charsBefore_eq_some_iff.1 hbefore
    rw [positionAt_of_charsBefore hbefore, htext, (ofChars_spec before after).1]
    exact ⟨List.prefix_append _ _, hcount⟩
  clamped a ha := by
    rw [positionAt_of_not_isBoundary ha, positionAt_of_charsBefore (charsBefore_utf8ByteSize source)]

/-- An offset inside of a character, and one behind the end, stand for the end. -/
example : [0, 6, 7, 9, 10, 20].map (positionAt "let é;\n x") =
    [⟨1, 1⟩, ⟨1, 6⟩, ⟨1, 7⟩, ⟨2, 2⟩, ⟨2, 3⟩, ⟨2, 3⟩] := by decide

end ModuleBundler.Text
