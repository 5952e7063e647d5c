import Mathlib.Data.List.Basic
import ModuleBundler.Syntax.Lexer
import ModuleBundler.Text.Quoted

/-!
# Reading written text back

What loader form writes is program text, so the reader of program text says what it means.  This
file follows `Token.read` through the pieces that loader form is made of; `Begins` says that a text
begins with a token of some kind, wherever the text stands.

* `readHexDigits_hexDigits` — four written digits of a number read as the number;
* `readString_quoteChar` — a written character of a literal reads as that character;
* **`begins_quote`** — a quoted text is a string literal whose value is the text, so it can be told
  from what is behind it (`quote_append_inj`);
* **`begins_word`** — the characters of a name, up to one that ends it, are one word;
* `Spells.tokens_eq` — what is read piece by piece are the tokens of the whole text.
-/

namespace ModuleBundler.Syntax

open Text

/-! ## Hexadecimal digits -/

theorem hexValue?_hexDigit : ∀ d < 16, hexValue? (hexDigit d) = some d := by decide

theorem readHexDigits_hexDigits {n : Nat} (h : n < 0x10000) (rest : List Char) (offset : Nat) :
    readHexDigits 4 0 ⟨hexDigits 4 n ++ rest, offset⟩ = (some n, ⟨rest, offset + 4⟩) := by
  have hdigit : ∀ k : Nat, hexValue? (hexDigit (k % 16)) = some (k % 16) :=
    fun k => hexValue?_hexDigit _ (Nat.mod_lt k (by decide))
  have hvalue : (((0 * 16 + n / 16 / 16 / 16 % 16) * 16 + n / 16 / 16 % 16) * 16 + n / 16 % 16)
      * 16 + n % 16 = n := by omega
  simp only [hexDigits, List.nil_append, List.cons_append, readHexDigits, List.head?_cons,
    Option.bind_some, hdigit, Cursor.skip, List.drop_succ_cons, List.drop_zero, hvalue]

/-! ## Characters of a literal -/

section Literal

variable (fuel : Nat) (body : Cursor) (units : List StringUnit) (faults : List Fault)
  (rest : List Char) (offset : Nat)

theorem readString_escape {more : List StringUnit} {after : Cursor}
    (h : readEscape false ⟨rest, offset + 1⟩ = (some more, after)) :
    readString (fuel + 1) body '"' units faults ⟨'\\' :: rest, offset⟩ =
      readString fuel body '"' (more.reverse ++ units) faults after := by
  conv_lhs => unfold readString
  simp only [Cursor.skip, List.drop_succ_cons, List.drop_zero, h]
  rw [if_neg (by decide), if_neg (by decide), if_pos (by decide)]

theorem readString_plain {d : Char} (hquote : d ≠ '"') (hfeed : d ≠ '\n') (hreturn : d ≠ '\r')
    (hslash : d ≠ '\\') :
    readString (fuel + 1) body '"' units faults ⟨d :: rest, offset⟩ =
      readString fuel body '"' (.char d :: units) faults ⟨rest, offset + 1⟩ := by
  conv_lhs => unfold readString
  simp [hquote, hfeed, hreturn, hslash, Cursor.skip]

/-- A four digit escape of a code unit that is no half of a pair is that character. -/
theorem readEscape_hexDigits {d : Char} (h : d.toNat < 0xd800) :
    readEscape false ⟨'u' :: (hexDigits 4 d.toNat ++ rest), offset⟩ =
      (some [.char d], ⟨rest, offset + 5⟩) := by
  have hdigits := readHexDigits_hexDigits (n := d.toNat) (by omega) rest (offset + 1)
  have hhigh : isHighSurrogate d.toNat = false := by
    unfold isHighSurrogate
    simp only [Bool.and_eq_false_iff, decide_eq_false_iff_not]
    omega
  have hbrace : (hexDigits 4 d.toNat ++ rest).head? ≠ some '\x7b' := by
    have hdigit : ∀ k < 16, hexDigit k ≠ '\x7b' := by decide
    simp only [hexDigits, List.nil_append, List.cons_append, List.head?_cons]
    exact fun hsome => hdigit _ (Nat.mod_lt _ (by decide)) (Option.some.inj hsome)
  have hpoint : StringUnit.ofCodePoint d.toNat = .char d := by
    unfold StringUnit.ofCodePoint
    rw [if_neg (by simp only [Bool.and_eq_true, decide_eq_true_eq]; omega), Char.ofNat_toNat]
  have hescape : readUnicodeEscape true ⟨hexDigits 4 d.toNat ++ rest, offset + 1⟩ =
      (some d.toNat, ⟨rest, offset + 5⟩) := by
    unfold readUnicodeEscape
    rw [if_neg (by rw [beq_iff_eq]; exact hbrace), hdigits]
    dsimp only
    rw [hhigh]
    rfl
  unfold readEscape
  simp only [Cursor.skip, List.drop_succ_cons, List.drop_zero, hescape, hpoint]
  rfl

/-- A written character of a double-quoted literal reads as that character. -/
theorem readString_quoteChar (d : Char) :
    readString (fuel + 1) body '"' units faults ⟨quoteChar d ++ rest, offset⟩ =
      readString fuel body '"' (.char d :: units) faults
        ⟨rest, offset + (quoteChar d).length⟩ := by
  have hshort : ∀ {written meant : Char}, readEscape false ⟨written :: rest, offset + 1⟩ =
      (some [.char meant], ⟨rest, offset + 2⟩) →
      readString (fuel + 1) body '"' units faults ⟨'\\' :: written :: rest, offset⟩ =
        readString fuel body '"' (.char meant :: units) faults ⟨rest, offset + 2⟩ :=
    fun h => readString_escape fuel body units faults _ offset h
  unfold quoteChar
  split_ifs with hquote hslash hfeed hreturn htab hback hform hcode
  · rw [hquote]
    exact hshort rfl
  · rw [hslash]
    exact hshort rfl
  · rw [hfeed]
    exact hshort rfl
  · rw [hreturn]
    exact hshort rfl
  · rw [htab]
    exact hshort rfl
  · obtain rfl : d = Char.ofNat 8 := by rw [← hback, Char.ofNat_toNat]
    exact hshort rfl
  · obtain rfl : d = Char.ofNat 12 := by rw [← hform, Char.ofNat_toNat]
    exact hshort rfl
  · simp only [Bool.or_eq_true, decide_eq_true_eq] at hcode
    exact readString_escape fuel body units faults _ offset
      (readEscape_hexDigits rest (offset + 1) (by omega))
  · exact readString_plain fuel body units faults rest offset hquote hfeed hreturn hslash

/-- The characters of a literal, written one by one and closed by a quote, read as themselves. -/
theorem readString_quoteChars (text : List Char) (units : List StringUnit) (offset : Nat) :
    readString (fuel + text.length + 1) body '"' units faults
        ⟨quoteChars text ++ '"' :: rest, offset⟩ =
      ⟨.string (StringUnit.decode (units.reverse ++ text.map .char)).1
        (StringUnit.decode (units.reverse ++ text.map .char)).2
        (body.textTo ⟨'"' :: rest, offset + (quoteChars text).length⟩),
        ⟨rest, offset + (quoteChars text).length + 1⟩, faults.reverse⟩ := by
  induction text generalizing units offset with
  | nil =>
    rw [List.map_nil, List.append_nil]
    rfl
  | cons d text ih =>
    unfold quoteChars
    rw [List.append_assoc, List.length_cons, ← Nat.add_assoc, readString_quoteChar, ih,
      List.reverse_cons, List.append_assoc, List.singleton_append, List.map_cons,
      List.length_append, ← Nat.add_assoc]

end Literal

/-- Characters alone are the value of a string, and no half of a pair is among them. -/
theorem decode_chars (text : List Char) :
    StringUnit.decode (text.map .char) = (String.ofList text, true) := by
  unfold StringUnit.decode
  dsimp only
  rw [List.any_map, List.any_eq_false.2 (fun c _ => by simp), List.flatMap_map]
  simp

/-! ## Tokens -/

/-- A character stands for itself in front of a token: it is neither white space nor a part of what
opens or closes a comment. -/
def isSolid (c : Char) : Bool :=
  c != '/' && c != '*' && !isLineTerminator c && !isProgramBlank c

/-- A text begins with a token of a kind, wherever in a program it stands, and `rest` is behind the
token. -/
def Begins (text : List Char) (kind : Token.Kind) (rest : List Char) : Prop :=
  ∀ fuel offset, text.length < fuel → ∃ lexeme, Token.read fuel ⟨text, offset⟩ = lexeme ∧
    lexeme.token.kind = kind ∧ lexeme.next.rest = rest ∧ lexeme.faults = []

/-- A text begins with one token. -/
theorem Begins.unique {text rest rest' : List Char} {kind kind' : Token.Kind}
    (h : Begins text kind rest) (h' : Begins text kind' rest') : kind = kind' ∧ rest = rest' := by
  obtain ⟨lexeme, hread, hkind, hrest, -⟩ := h (text.length + 1) 0 (Nat.lt_succ_self _)
  obtain ⟨lexeme', hread', hkind', hrest', -⟩ := h' (text.length + 1) 0 (Nat.lt_succ_self _)
  obtain rfl : lexeme = lexeme' := hread.symm.trans hread'
  exact ⟨hkind.symm.trans hkind', hrest.symm.trans hrest'⟩

theorem skipTrivia_of_solid {c : Char} (h : isSolid c = true) (rest : List Char) (offset : Nat) :
    skipTrivia .between false none none (c :: rest) offset =
      ⟨⟨c :: rest, offset⟩, false, none, none⟩ := by
  unfold isSolid at h
  simp only [Bool.and_eq_true, bne_iff_ne, Bool.not_eq_true'] at h
  obtain ⟨⟨⟨hslash, hstar⟩, hterminator⟩, hblank⟩ := h
  unfold skipTrivia
  split
  · rename_i heq
    cases heq
  · rename_i heq
    exact absurd (List.cons.inj heq).1 hslash
  · rename_i heq
    exact absurd (List.cons.inj heq).1 hslash
  · rename_i heq
    exact absurd (List.cons.inj heq).1 hstar
  · rename_i heq
    obtain ⟨rfl, rfl⟩ := List.cons.inj heq
    dsimp only
    rw [hterminator, hblank]
    rfl

theorem begins_of_readKind {c : Char} {text rest : List Char} {kind : Token.Kind}
    (hc : isSolid c = true) (h : ∀ fuel offset, text.length + 1 < fuel →
      ∃ after, readKind fuel ⟨c :: text, offset⟩ = ⟨kind, ⟨rest, after⟩, []⟩) :
    Begins (c :: text) kind rest := by
  intro fuel offset hfuel
  obtain ⟨after, hkind⟩ := h fuel offset hfuel
  refine ⟨_, rfl, ?_⟩
  unfold Token.read
  rw [skipTrivia_of_solid hc]
  dsimp only
  rw [hkind]
  exact ⟨rfl, rfl, rfl⟩

/-- A space in front of a token changes nothing. -/
theorem Begins.space {text rest : List Char} {kind : Token.Kind} (h : Begins text kind rest) :
    Begins (' ' :: text) kind rest := by
  intro fuel offset hfuel
  exact h fuel (offset + 1) (Nat.lt_of_succ_lt hfuel)

theorem length_le_quoteChars (text : List Char) : text.length ≤ (quoteChars text).length := by
  have hpos : ∀ c, 1 ≤ (quoteChar c).length := by
    intro c
    unfold quoteChar
    split_ifs <;> exact Nat.succ_le_succ (Nat.zero_le _)
  induction text with
  | nil => exact Nat.le_refl _
  | cons c text ih =>
    unfold quoteChars
    rw [List.length_append, List.length_cons, Nat.add_comm]
    exact Nat.add_le_add (hpos c) ih

/-- A quoted text is a string literal with the text as its value. -/
theorem begins_quote (text : String) (rest : List Char) :
    Begins ((quote text).toList ++ rest)
      (.string text true (String.ofList (quoteChars text.toList))) rest := by
  unfold quote
  rw [String.toList_ofList, List.cons_append, List.append_assoc, List.singleton_append]
  refine begins_of_readKind (by decide) fun fuel offset hfuel =>
    ⟨offset + 1 + (quoteChars text.toList).length + 1, ?_⟩
  have hlength := length_le_quoteChars text.toList
  rw [List.length_append] at hfuel
  obtain ⟨more, rfl⟩ : ∃ more, fuel = more + text.toList.length + 1 :=
    ⟨fuel - text.toList.length - 1, by omega⟩
  have hread := readString_quoteChars more ⟨quoteChars text.toList ++ '"' :: rest, offset + 1⟩ []
    rest text.toList [] (offset + 1)
  have hraw : Cursor.textTo ⟨quoteChars text.toList ++ '"' :: rest, offset + 1⟩
      ⟨'"' :: rest, offset + 1 + (quoteChars text.toList).length⟩ =
      String.ofList (quoteChars text.toList) := by
    unfold Cursor.textTo
    rw [Nat.add_sub_cancel_left, List.take_left]
  rw [hraw, List.reverse_nil, List.nil_append, decode_chars, String.ofList_toList] at hread
  exact hread

/-- So a quoted text ends where no other one does. -/
theorem quote_append_inj {text text' : String} {rest rest' : List Char}
    (h : (quote text).toList ++ rest = (quote text').toList ++ rest') :
    text = text' ∧ rest = rest' := by
  have hbegins := begins_quote text rest
  rw [h] at hbegins
  obtain ⟨hkind, hrest⟩ := hbegins.unique (begins_quote text' rest')
  exact ⟨(Token.Kind.string.inj hkind).1, hrest⟩

/-! ## Words -/

/-- No character of a name stands at the beginning of a text, nor an escape of one. -/
def NameEnds : List Char → Prop
  | [] => True
  | c :: _ => continuesIdentifier c = false ∧ c ≠ '\\'

theorem nameEnds_cons {c : Char} (hends : continuesIdentifier c = false) (hslash : c ≠ '\\')
    (rest : List Char) : NameEnds (c :: rest) := ⟨hends, hslash⟩

/-- A character that begins no escape is read as it stands, or ends the name. -/
theorem readName_cons (fuel : Nat) {c : Char} (hslash : c ≠ '\\') (rest : List Char)
    (start escaped : Bool) (seen : List Char) (faults : List Fault) (offset : Nat) :
    readName (fuel + 1) start escaped seen faults ⟨c :: rest, offset⟩ =
      if continuesIdentifier c then
        readName fuel false escaped (c :: seen) faults ⟨rest, offset + 1⟩
      else ⟨(String.ofList seen.reverse, escaped), ⟨c :: rest, offset⟩, faults.reverse⟩ := by
  rw [readName]
  split
  · rename_i heq
    exact absurd (List.cons.inj heq).1 hslash
  · rename_i heq
    obtain ⟨rfl, -⟩ := List.cons.inj heq
    rfl
  · rename_i heq
    cases heq

/-- Characters of a name, up to the end of the name, are read as they stand. -/
theorem readName_chars (fuel : Nat) {name : List Char}
    (hname : ∀ d ∈ name, continuesIdentifier d = true) {rest : List Char} (hrest : NameEnds rest)
    (start : Bool) (seen : List Char) (offset : Nat) :
    readName (fuel + name.length + 1) start false seen [] ⟨name ++ rest, offset⟩ =
      ⟨(String.ofList (seen.reverse ++ name), false), ⟨rest, offset + name.length⟩, []⟩ := by
  induction name generalizing start seen offset with
  | nil =>
    rw [List.nil_append, List.append_nil]
    cases rest with
    | nil => rfl
    | cons c rest =>
      obtain ⟨hends, hslash⟩ := hrest
      rw [readName_cons _ hslash, hends]
      rfl
  | cons d name ih =>
    have hd := hname d List.mem_cons_self
    have hslash : d ≠ '\\' := by
      rintro rfl
      revert hd
      decide
    have hmore : ∀ e ∈ name, continuesIdentifier e = true :=
      fun e he => hname e (List.mem_cons_of_mem d he)
    have hread := ih hmore false (d :: seen) (offset + 1)
    rw [List.reverse_cons, List.append_assoc, List.singleton_append, Nat.add_assoc offset,
      Nat.add_comm 1] at hread
    rw [List.cons_append, readName_cons _ hslash, if_pos hd]
    exact hread

theorem isDigit_of_startsIdentifier {c : Char} (h : startsIdentifier c = true) :
    isDigit c = false := by
  unfold startsIdentifier isLatinLetter at h
  rw [Bool.eq_false_iff]
  intro hdigit
  simp only [isDigit, Bool.and_eq_true, decide_eq_true_eq, Char.le_def, UInt32.le_iff_toNat_le]
    at hdigit
  have hlow : c.toNat ≤ 57 := hdigit.2
  rw [if_pos (by omega)] at h
  simp only [Bool.or_eq_true, Bool.and_eq_true, decide_eq_true_eq, beq_iff_eq, Char.le_def,
    UInt32.le_iff_toNat_le] at h
  rcases h with ((h | h) | rfl) | rfl
  · exact absurd (Nat.le_trans h.1 hlow) (by decide)
  · exact absurd (Nat.le_trans h.1 hlow) (by decide)
  · exact absurd hdigit.1 (by decide)
  · exact absurd hdigit.2 (by decide)

theorem continuesIdentifier_of_startsIdentifier {c : Char} (h : startsIdentifier c = true) :
    continuesIdentifier c = true := by
  unfold startsIdentifier at h
  unfold continuesIdentifier
  split_ifs at h ⊢
  · simp only [Bool.or_eq_true] at h ⊢
    exact h.imp_left (Or.imp_left Or.inl)
  · rw [h, Bool.or_true, Bool.true_or]

/-- The code points of white space, and of what opens or closes a comment. -/
def gaps : List Nat :=
  [0x2f, 0x2a, 0x0a, 0x0d, 0x2028, 0x2029, 0x20, 0x09, 0x0b, 0x0c, 0x85, 0xa0, 0xfeff, 0x1680, 0x202f,
    0x205f, 0x3000] ++ List.range' 0x2000 12

theorem isSolid_of_notMem_gaps {c : Char} (h : c.toNat ∉ gaps) : isSolid c = true := by
  have hne : ∀ d : Char, d.toNat ∈ gaps → c ≠ d := by
    rintro d hd rfl
    exact h hd
  have hterminator : isLineTerminator c = false := by
    unfold isLineTerminator
    simp only [Bool.or_eq_false_iff, beq_eq_false_iff_ne]
    refine ⟨⟨⟨hne '\n' (by decide), hne '\r' (by decide)⟩, ?_⟩, ?_⟩ <;>
      exact fun heq => h (by rw [heq]; decide)
  have hblank : isProgramBlank c = false := by
    unfold gaps at h
    unfold isProgramBlank
    simp only [List.mem_append, List.mem_cons, List.not_mem_nil, or_false, not_or,
      List.mem_range'_1] at h
    simp only [Bool.or_eq_false_iff, beq_eq_false_iff_ne, Bool.and_eq_false_iff,
      decide_eq_false_iff_not]
    omega
  unfold isSolid
  rw [hterminator, hblank]
  simp only [Bool.and_eq_true, bne_iff_ne, Bool.not_false, and_true]
  exact ⟨hne '/' (by decide), hne '*' (by decide)⟩

/-- No name begins with white space, or with what opens or closes a comment. -/
theorem isSolid_of_startsIdentifier {c : Char} (h : startsIdentifier c = true) :
    isSolid c = true := by
  have hnone : ∀ k ∈ gaps, startsIdentifier (Char.ofNat k) = false := by decide +kernel
  refine isSolid_of_notMem_gaps fun hmem => ?_
  have hstart := hnone _ hmem
  rw [Char.ofNat_toNat, h] at hstart
  cases hstart

/-- A name is one word, if what is behind it ends it. -/
theorem begins_word {first : Char} (hstart : startsIdentifier first = true) {name : List Char}
    (hname : ∀ d ∈ name, continuesIdentifier d = true) {rest : List Char} (hrest : NameEnds rest) :
    Begins (first :: (name ++ rest)) (.word (String.ofList (first :: name)) false) rest := by
  refine begins_of_readKind (isSolid_of_startsIdentifier hstart) fun fuel offset hfuel =>
    ⟨offset + name.length + 1, ?_⟩
  rw [List.length_append] at hfuel
  obtain ⟨more, rfl⟩ : ∃ more, fuel = more + (first :: name).length + 1 :=
    ⟨fuel - name.length - 2, by rw [List.length_cons]; omega⟩
  have hfirst : ∀ d, startsIdentifier d = false → (first == d) = false := by
    intro d hd
    rw [beq_eq_false_iff_ne]
    rintro rfl
    rw [hstart] at hd
    cases hd
  have hall : ∀ d ∈ first :: name, continuesIdentifier d = true :=
    List.forall_mem_cons.2 ⟨continuesIdentifier_of_startsIdentifier hstart, hname⟩
  have hread := readName_chars more hall hrest true [] offset
  unfold readKind
  dsimp only
  rw [hfirst '"' (by decide), hfirst '\'' (by decide), hfirst '\x60' (by decide),
    isDigit_of_startsIdentifier hstart, hfirst '.' (by decide), hfirst '#' (by decide), hstart]
  rw [List.cons_append] at hread
  rw [hread]
  rfl

/-- A text is a name. -/
def IsName (text : String) : Prop :=
  ∃ first rest, text.toList = first :: rest ∧ startsIdentifier first = true ∧
    ∀ d ∈ rest, continuesIdentifier d = true

theorem isName_exports : IsName "exports" :=
  ⟨'e', "xports".toList, rfl, by decide, List.all_eq_true.1 (by decide)⟩

theorem IsName.begins {name : String} (h : IsName name) {rest : List Char} (hrest : NameEnds rest) :
    Begins (name.toList ++ rest) (.word name false) rest := by
  obtain ⟨first, more, hname, hstart, hmore⟩ := h
  have hbegins := begins_word hstart hmore hrest
  rw [← List.cons_append, ← hname, String.ofList_toList] at hbegins
  exact hbegins

/-! ## Punctuators -/

section Punctuators

variable (text : List Char)

theorem begins_leftParen : Begins ('(' :: text) (.punct .leftParen) text :=
  begins_of_readKind (by decide) fun _ offset _ => ⟨offset + 1, rfl⟩

theorem begins_rightParen : Begins (')' :: text) (.punct .rightParen) text :=
  begins_of_readKind (by decide) fun _ offset _ => ⟨offset + 1, rfl⟩

theorem begins_leftBracket : Begins ('[' :: text) (.punct .leftBracket) text :=
  begins_of_readKind (by decide) fun _ offset _ => ⟨offset + 1, rfl⟩

theorem begins_rightBracket : Begins (']' :: text) (.punct .rightBracket) text :=
  begins_of_readKind (by decide) fun _ offset _ => ⟨offset + 1, rfl⟩

theorem begins_comma : Begins (',' :: text) (.punct .comma) text :=
  begins_of_readKind (by decide) fun _ offset _ => ⟨offset + 1, rfl⟩

theorem begins_semicolon : Begins (';' :: text) (.punct .semicolon) text :=
  begins_of_readKind (by decide) fun _ offset _ => ⟨offset + 1, rfl⟩

theorem begins_assign : Begins ('=' :: ' ' :: text) (.punct .assign) (' ' :: text) :=
  begins_of_readKind (by decide) fun _ offset _ => ⟨offset + 1, rfl⟩

/-- A point in front of a name is a punctuator of its own. -/
theorem begins_dot {first : Char} (h : startsIdentifier first = true) :
    Begins ('.' :: first :: text) (.punct .dot) (first :: text) := by
  refine begins_of_readKind (by decide) fun fuel offset _ => ⟨offset + 1, ?_⟩
  have hdot : ('.' == first) = false := by
    rw [beq_eq_false_iff_ne]
    rintro rfl
    revert h
    decide
  have hpunct : punctAt? ⟨'.' :: first :: text, offset⟩ = some .dot := by
    have hdots : Cursor.startsWith ⟨'.' :: first :: text, offset⟩ Punct.dots.text.toList =
        false := by
      show ('.' == '.' && ('.' == first && _)) = false
      rw [hdot, Bool.false_and, Bool.and_false]
    unfold punctAt? Punct.all
    rw [List.find?_cons_of_neg (Bool.eq_false_iff.1 rfl),
      List.find?_cons_of_neg (by rw [hdots]; exact Bool.false_ne_true)]
    rfl
  unfold readKind
  dsimp only
  rw [hpunct, List.head?_cons, Option.any_some, isDigit_of_startsIdentifier h]
  rfl

end Punctuators

/-! ## The tokens of a text -/

/-- The kinds of the tokens from a cursor on, at most `n` of them. -/
def tokensFrom : Nat → Cursor → List Token.Kind
  | 0, _ => []
  | n + 1, c =>
    let lexeme := Token.read (c.rest.length + 1) c
    match lexeme.token.kind with
    | .eof => []
    | kind => kind :: tokensFrom n lexeme.next

/-- The kinds of the tokens of a text. -/
def tokens (text : String) : List Token.Kind := tokensFrom (text.toList.length + 1) ⟨text.toList, 0⟩

/-- A text is made of tokens of the given kinds. -/
inductive Spells : List Char → List Token.Kind → Prop
  | done : Spells [] []
  | token {text rest : List Char} {kind : Token.Kind} {kinds : List Token.Kind} :
      Begins text kind rest → kind ≠ .eof → Spells rest kinds → Spells text (kind :: kinds)

theorem Spells.space {text : List Char} {kinds : List Token.Kind} (h : Spells text kinds)
    (hne : kinds ≠ []) : Spells (' ' :: text) kinds := by
  cases h with
  | done => exact absurd rfl hne
  | token hbegins hkind hrest => exact .token hbegins.space hkind hrest

theorem tokensFrom_of_begins {text rest : List Char} {kind : Token.Kind}
    (h : Begins text kind rest) (hkind : kind ≠ .eof) (n offset : Nat) :
    ∃ after, tokensFrom (n + 1) ⟨text, offset⟩ = kind :: tokensFrom n ⟨rest, after⟩ := by
  obtain ⟨lexeme, hread, hkind', rfl, -⟩ := h (text.length + 1) offset (Nat.lt_succ_self _)
  refine ⟨lexeme.next.offset, ?_⟩
  conv_lhs => unfold tokensFrom
  dsimp only
  rw [hread, hkind']
  split
  · exact absurd rfl hkind
  · rfl

theorem Spells.tokensFrom_eq {text : List Char} {kinds : List Token.Kind} (h : Spells text kinds)
    {n : Nat} (hn : kinds.length < n) (offset : Nat) : tokensFrom n ⟨text, offset⟩ = kinds := by
  induction h generalizing n offset with
  | done =>
    obtain ⟨n, rfl⟩ := Nat.exists_eq_succ_of_ne_zero (Nat.ne_of_gt hn)
    rfl
  | token hbegins hkind _ ih =>
    obtain ⟨n, rfl⟩ := Nat.exists_eq_succ_of_ne_zero (Nat.ne_of_gt (Nat.zero_lt_of_lt hn))
    obtain ⟨after, hfrom⟩ := tokensFrom_of_begins hbegins hkind n offset
    rw [hfrom, ih (Nat.lt_of_succ_lt_succ hn)]

/-- A text begins with tokens of the given kinds, behind which another text follows. -/
inductive SpellsTo (stop : List Char) : List Char → List Token.Kind → Prop
  | done : SpellsTo stop stop []
  | token {text rest : List Char} {kind : Token.Kind} {kinds : List Token.Kind} :
      Begins text kind rest → kind ≠ .eof → SpellsTo stop rest kinds →
      SpellsTo stop text (kind :: kinds)

theorem SpellsTo.tokensFrom_eq {stop text : List Char} {kinds : List Token.Kind}
    (h : SpellsTo stop text kinds) (n offset : Nat) :
    ∃ behind, tokensFrom (kinds.length + n) ⟨text, offset⟩ = kinds ++ behind := by
  induction h generalizing offset with
  | done => exact ⟨_, rfl⟩
  | @token _ _ _ kinds hbegins hkind _ ih =>
    obtain ⟨after, hfrom⟩ := tokensFrom_of_begins hbegins hkind (kinds.length + n) offset
    obtain ⟨behind, hbehind⟩ := ih after
    refine ⟨behind, ?_⟩
    rw [List.length_cons, Nat.add_right_comm, hfrom, hbehind, List.cons_append]

/-- The first tokens of a text that begins with them. -/
theorem SpellsTo.tokens_eq {text : String} {stop : List Char} {kinds : List Token.Kind}
    (h : SpellsTo stop text.toList kinds) (hlength : kinds.length ≤ text.toList.length) :
    ∃ behind, tokens text = kinds ++ behind := by
  obtain ⟨n, hn⟩ := Nat.exists_eq_add_of_le (Nat.le_succ_of_le hlength)
  unfold tokens
  rw [← Nat.succ_eq_add_one, hn]
  exact h.tokensFrom_eq n 0

theorem Spells.tokens_eq {text : String} {kinds : List Token.Kind} (h : Spells text.toList kinds)
    (hlength : kinds.length ≤ text.toList.length) : tokens text = kinds :=
  h.tokensFrom_eq (Nat.lt_succ_of_le hlength) 0

end ModuleBundler.Syntax
