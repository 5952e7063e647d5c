import ModuleBundler.Proofs.Syntax.Lexing

/-!
# Property accesses read back

A property is written behind a point or as a literal in brackets, and `isIdentifier` decides which.
What it decides by are properties of characters, and not the names of the language.

* `isName_of_read` — a word that is read without an escape is a name, so a text is one word exactly if it
  is a name (`tokens_eq_word_iff`);
* `tokens_point`, `tokens_brackets` — both forms read the property, the first one of a name;
* **`readProperty_reads_iff`** — what is written for a property reads it exactly if a name that
  `isIdentifier` accepts is one; the two agree on all names of characters on which the classes agree
  (`Undisputed`), such as those of ASCII (`undisputed_of_ascii`);
* `not_readProperty_reads_of_superscript` — they do not agree on all names.
-/

namespace ModuleBundler.Syntax

open Text

/-! ## Progress -/

/-- What is read before the end of the text has characters. -/
theorem offset_lt_of_read {fuel : Nat} (hfuel : 0 < fuel) {c : Cursor}
    (h : (Token.read fuel c).token.kind ≠ .eof) : c.offset < (Token.read fuel c).next.offset := by
  have htrivia := skipTrivia_reaches .between false none none c.rest c.offset
  unfold Token.read at h ⊢
  dsimp only at h ⊢
  split at h
  · exact absurd rfl h
  · dsimp only at h ⊢
    cases hrest : (skipTrivia .between false none none c.rest c.offset).cursor.rest with
    | nil =>
      unfold readKind at h
      rw [hrest] at h
      exact absurd rfl h
    | cons d rest =>
      exact Nat.lt_of_le_of_lt htrivia.offset_le (reaches_readKind hfuel hrest).offset_le

theorem Begins.length_lt {text rest : List Char} {kind : Token.Kind} (h : Begins text kind rest)
    (hkind : kind ≠ .eof) : rest.length < text.length := by
  obtain ⟨lexeme, rfl, hlexeme, hrest, -⟩ := h (text.length + 1) 0 (Nat.lt_succ_self _)
  have hlt := offset_lt_of_read (Nat.succ_pos _) (hlexeme.trans_ne hkind)
  have htotal := (between_read (Nat.succ_pos text.length) ⟨text, 0⟩).total_eq
  rw [hrest] at htotal
  dsimp only at hlt htotal
  omega

/-- Each token has a character of its own. -/
theorem Spells.length_le {text : List Char} {kinds : List Token.Kind} (h : Spells text kinds) :
    kinds.length ≤ text.length := by
  induction h with
  | done => exact Nat.le_refl _
  | token hbegins hkind _ ih => exact Nat.lt_of_le_of_lt ih (hbegins.length_lt hkind)

/-- What is read piece by piece are the tokens of the text. -/
theorem Spells.tokens {text : String} {kinds : List Token.Kind} (h : Spells text.toList kinds) :
    tokens text = kinds := h.tokens_eq h.length_le

/-! ## Words are names -/

/-- A backslash begins an escape, if what is read behind an escape has one. -/
theorem readName_backslash_of {fuel : Nat} (hfuel : ∀ start chars faults c,
      (readName fuel start true chars faults c).value.2 = true) (start escaped : Bool)
    (chars : List Char) (faults : List Fault) (rest : List Char) (offset : Nat) :
    (readName (fuel + 1) start escaped chars faults ⟨'\\' :: rest, offset⟩).value.2 = true := by
  unfold readName
  split
  · dsimp only
    split
    · split
      · exact hfuel ..
      · split
        · exact hfuel ..
        · split <;> split <;> exact hfuel ..
    · exact hfuel ..
  · rename_i hslash heq
    exact absurd (List.cons.inj heq).1.symm hslash
  · rename_i heq
    cases heq

/-- A name with an escape stays one. -/
theorem readName_escaped (fuel : Nat) (start : Bool) (chars : List Char) (faults : List Fault)
    (c : Cursor) : (readName fuel start true chars faults c).value.2 = true := by
  induction fuel generalizing start chars faults c with
  | zero => rfl
  | succ fuel ih =>
    obtain ⟨text, offset⟩ := c
    cases text with
    | nil => rfl
    | cons d rest =>
      by_cases hslash : d = '\\'
      · rw [hslash]
        exact readName_backslash_of ih ..
      · unfold readName
        split
        · rename_i heq
          exact absurd (List.cons.inj heq).1 hslash
        · split
          · exact ih ..
          · rfl
        · rfl

/-- A backslash in a name begins an escape. -/
theorem readName_backslash (fuel : Nat) (start : Bool) (chars : List Char) (rest : List Char)
    (offset : Nat) :
    (readName (fuel + 1) start false chars [] ⟨'\\' :: rest, offset⟩).value.2 = true :=
  readName_backslash_of (readName_escaped fuel) ..

/-- Without an escape, a name is made of characters of the text. -/
theorem exists_of_readName {fuel : Nat} {start : Bool} {chars : List Char} {text : List Char}
    {offset : Nat} (h : (readName fuel start false chars [] ⟨text, offset⟩).value.2 = false) :
    ∃ name, (readName fuel start false chars [] ⟨text, offset⟩).value.1 =
      String.ofList (chars.reverse ++ name) ∧ ∀ d ∈ name, continuesIdentifier d = true := by
  have hnone : ∀ d ∈ ([] : List Char), continuesIdentifier d = true := fun d hd =>
    absurd hd List.not_mem_nil
  induction fuel generalizing start chars text offset with
  | zero => exact ⟨[], by rw [List.append_nil]; rfl, hnone⟩
  | succ fuel ih =>
    cases text with
    | nil => exact ⟨[], by rw [List.append_nil]; rfl, hnone⟩
    | cons d rest =>
      by_cases hslash : d = '\\'
      · rw [hslash, readName_backslash] at h
        cases h
      rw [readName_cons fuel hslash] at h ⊢
      split at h
      · rename_i hd
        obtain ⟨name, hvalue, hname⟩ := ih h
        rw [if_pos hd, hvalue, List.reverse_cons, List.append_assoc, List.singleton_append]
        exact ⟨d :: name, rfl, List.forall_mem_cons.2 ⟨hd, hname⟩⟩
      · rename_i hd
        rw [if_neg hd]
        exact ⟨[], by rw [List.append_nil], hnone⟩

/-- A word without an escape is a name. -/
theorem isName_of_readName {fuel : Nat} {first : Char} {rest : List Char} {offset : Nat} {w : String}
    (hfirst : (startsIdentifier first || first == '\\') = true)
    (h : (readName (fuel + 1) true false [] [] ⟨first :: rest, offset⟩).value = (w, false)) :
    IsName w := by
  have hslash : first ≠ '\\' := by
    rintro rfl
    rw [Prod.ext_iff, readName_backslash] at h
    cases h.2
  have hstart : startsIdentifier first = true := by simpa [hslash] using hfirst
  rw [readName_cons fuel hslash, if_pos (continuesIdentifier_of_startsIdentifier hstart)] at h
  obtain ⟨name, hvalue, hname⟩ := exists_of_readName (congrArg Prod.snd h)
  rw [h] at hvalue
  dsimp only at hvalue
  refine ⟨first, name, ?_, hstart, hname⟩
  rw [hvalue, String.toList_ofList]
  rfl

/-- A token of this kind is a literal, or was meant as one. -/
def Token.Kind.IsLiteral : Token.Kind → Prop
  | .string .. | .template .. | .number .. | .unknown => True
  | _ => False

theorem isLiteral_readString (fuel : Nat) (body : Cursor) (quote : Char) (units : List StringUnit)
    (faults : List Fault) (c : Cursor) :
    (readString fuel body quote units faults c).value.IsLiteral := by
  induction fuel generalizing units faults c with
  | zero => trivial
  | succ fuel ih =>
    unfold readString
    dsimp only
    split
    · trivial
    split
    · trivial
    split
    · trivial
    split
    · split <;> exact ih ..
    · exact ih ..

theorem isLiteral_readTemplate (fuel start : Nat) (body : Cursor) (closed opened : TemplatePart)
    (valid : Bool) (c : Cursor) :
    (readTemplate fuel start body closed opened valid c).value.IsLiteral := by
  induction fuel generalizing valid c with
  | zero => trivial
  | succ fuel ih =>
    unfold readTemplate
    split
    · trivial
    · trivial
    · trivial
    · exact ih ..
    · exact ih ..

theorem isLiteral_endNumber (start : Cursor) (form : NumberForm) (faults : List Fault) (c : Cursor) :
    (endNumber start form faults c).value.IsLiteral := by
  unfold endNumber
  split
  · split <;> trivial
  · trivial

theorem isLiteral_readFraction (start c : Cursor) (needsDigit : Bool) :
    (readFraction start c needsDigit).value.IsLiteral := isLiteral_endNumber ..

theorem isLiteral_readBased (start : Cursor) (form : NumberForm) (isDigitHere : Char → Bool) :
    (readBased start form isDigitHere).value.IsLiteral := by
  unfold readBased
  dsimp only
  split
  · split
    · split
      · trivial
      · split <;> exact isLiteral_endNumber ..
    · trivial
  · trivial

theorem isLiteral_readLegacyOctal (start : Cursor) : (readLegacyOctal start).value.IsLiteral := by
  unfold readLegacyOctal
  dsimp only
  split
  · split
    · exact isLiteral_readFraction ..
    · exact isLiteral_endNumber ..
    · exact isLiteral_endNumber ..
  · exact isLiteral_endNumber ..

theorem isLiteral_readNumber (c : Cursor) : (readNumber c).value.IsLiteral := by
  have hdecimal : ∀ integral, (readNumber.readDecimal c integral).value.IsLiteral := by
    intro integral
    unfold readNumber.readDecimal
    dsimp only
    split
    · exact isLiteral_readFraction ..
    · exact isLiteral_endNumber ..
    · exact isLiteral_endNumber ..
  unfold readNumber
  split
  case h_7 =>
    split
    · exact isLiteral_readLegacyOctal c
    · exact hdecimal _
  case h_8 => exact hdecimal _
  all_goals exact isLiteral_readBased ..

/-- Only behind the last character nothing is read. -/
theorem readKind_ne_eof {fuel : Nat} {c : Cursor} (hrest : c.rest ≠ []) :
    (readKind fuel c).value ≠ .eof := by
  have hliteral : ∀ {kind : Token.Kind}, kind.IsLiteral → kind ≠ .eof := by
    rintro kind hkind rfl
    exact hkind
  unfold readKind
  split
  · rename_i heq
    exact absurd heq hrest
  split
  · exact hliteral (isLiteral_readString ..)
  split
  · exact hliteral (isLiteral_readTemplate ..)
  split
  · exact hliteral (isLiteral_readNumber _)
  split
  · exact hliteral (isLiteral_readFraction ..)
  split
  · split
    · exact Token.Kind.noConfusion
    · dsimp only
      split <;> exact Token.Kind.noConfusion
  split
  · exact Token.Kind.noConfusion
  · split <;> exact Token.Kind.noConfusion

/-- What is read as a word is read like a name. -/
theorem readKind_of_word {fuel : Nat} {c : Cursor} {w : String} {escaped : Bool}
    (h : (readKind fuel c).value = .word w escaped) : ∃ d rest, c.rest = d :: rest ∧
      (startsIdentifier d || d == '\\') = true ∧
      (readName fuel true false [] [] c).value = (w, escaped) ∧
      (readKind fuel c).next = (readName fuel true false [] [] c).next := by
  have hword : ∀ {kind : Token.Kind}, kind = .word w escaped → ¬ kind.IsLiteral := by
    rintro kind rfl
    exact id
  unfold readKind at h ⊢
  split at h
  · cases h
  rename_i d rest htext
  split at h
  · exact absurd (isLiteral_readString ..) (hword h)
  split at h
  · exact absurd (isLiteral_readTemplate ..) (hword h)
  split at h
  · exact absurd (isLiteral_readNumber _) (hword h)
  split at h
  · exact absurd (isLiteral_readFraction ..) (hword h)
  split at h
  · split at h
    · cases h
    · dsimp only at h
      split at h <;> cases h
  split at h
  · rename_i hstring htick hdigit hpoint hsign hfirst
    obtain ⟨hname, hescaped⟩ := Token.Kind.word.inj h
    refine ⟨d, rest, htext, hfirst, Prod.ext hname hescaped, ?_⟩
    rw [if_neg hstring, if_neg htick, if_neg hdigit, if_neg hpoint, if_neg hsign, if_pos hfirst]
  · split at h <;> cases h

/-- What is read as a word without an escape is a name. -/
theorem isName_of_readKind {fuel : Nat} (hfuel : 0 < fuel) {c : Cursor} {w : String}
    (h : (readKind fuel c).value = .word w false) : IsName w := by
  obtain ⟨fuel, rfl⟩ := Nat.exists_eq_succ_of_ne_zero (Nat.ne_of_gt hfuel)
  obtain ⟨text, offset⟩ := c
  obtain ⟨d, rest, rfl, hfirst, hname, -⟩ := readKind_of_word h
  exact isName_of_readName hfirst hname

theorem readRegex_ne_word (slash : Token) (next : Cursor) {w : String} {escaped : Bool} :
    (slash.readRegex next).token.kind ≠ .word w escaped := by
  unfold Token.readRegex readRegexBody
  dsimp only
  split <;> exact Token.Kind.noConfusion

theorem readTemplateTail_ne_word (fuel : Nat) (brace : Token) (next : Cursor) {w : String}
    {escaped : Bool} : (brace.readTemplateTail fuel next).token.kind ≠ .word w escaped := by
  intro h
  have hliteral := isLiteral_readTemplate fuel brace.span.start next .tail .middle true next
  unfold Token.readTemplateTail at h
  dsimp only at h
  rw [h] at hliteral
  exact hliteral

/-- A word stands on characters of names. -/
theorem isNamePart_of_read {fuel : Nat} (hfuel : 0 < fuel) {c : Cursor} {w : String} {escaped : Bool}
    (h : (Token.read fuel c).token.kind = .word w escaped) {k : Nat}
    (hlo : (Token.read fuel c).token.span.start ≤ k) (hhi : k < (Token.read fuel c).token.span.stop) :
    ∃ x, c.rest[k - c.offset]? = some x ∧ isNamePart x = true := by
  have htrivia := skipTrivia_reaches .between false none none c.rest c.offset
  unfold Token.read at h hlo hhi
  dsimp only at h hlo hhi
  split at h
  · cases h
  rename_i hterminated
  rw [hterminated] at hlo hhi
  dsimp only at h hlo hhi
  obtain ⟨d, rest, hrest, hfirst, -, hnext⟩ := readKind_of_word h
  have hname := (Cursor.NamesTo.skip_one hrest (isNamePart_of_first (continues_of_begins hfirst))).trans
    (namesTo_readName hfuel hrest hfirst)
  rw [← hnext] at hname
  obtain ⟨x, hx, hpart⟩ := hname.getElem? hlo hhi
  refine ⟨x, ?_, hpart⟩
  -- the name begins where the trivia end
  rw [htrivia.rest_eq, List.getElem?_drop] at hx
  rw [← hx]
  congr 1
  have hle := htrivia.offset_le
  dsimp only at hle ⊢
  omega

theorem isName_of_read {fuel : Nat} (hfuel : 0 < fuel) {c : Cursor} {w : String}
    (h : (Token.read fuel c).token.kind = .word w false) : IsName w := by
  unfold Token.read at h
  dsimp only at h
  split at h
  · cases h
  · exact isName_of_readKind hfuel h

/-- A word among the tokens of a text is a name, unless it has an escape. -/
theorem isName_of_mem_tokens {text w : String} (h : .word w false ∈ tokens text) : IsName w := by
  have hfrom : ∀ n c, .word w false ∈ tokensFrom n c → IsName w := by
    intro n
    induction n with
    | zero => exact fun c hmem => absurd hmem List.not_mem_nil
    | succ n ih =>
      intro c hmem
      unfold tokensFrom at hmem
      dsimp only at hmem
      split at hmem
      · exact absurd hmem List.not_mem_nil
      · rcases List.mem_cons.1 hmem with hkind | hmem
        · exact isName_of_read (Nat.succ_pos _) hkind.symm
        · exact ih _ hmem
  exact hfrom _ _ h

/-- A text is read as one word, and as that text, exactly if it is a name. -/
theorem tokens_eq_word_iff {text : String} : tokens text = [.word text false] ↔ IsName text := by
  constructor
  · intro h
    exact isName_of_mem_tokens (h ▸ List.mem_singleton_self _)
  · intro h
    have hends : NameEnds [] := trivial
    have hword := h.begins hends
    rw [List.append_nil] at hword
    exact Spells.tokens (.token hword (by simp) .done)

/-! ## Both forms of an access -/

/-- Tokens read a property of an object: by its name behind a point, or by a literal in brackets. -/
def ReadsProperty (object name : String) (kinds : List Token.Kind) : Prop :=
  kinds = [.word object false, .punct .dot, .word name false] ∨
    ∃ raw, kinds =
      [.word object false, .punct .leftBracket, .string name true raw, .punct .rightBracket]

/-- Behind a point, no bracket opens. -/
theorem read_point_ne_leftBracket {fuel offset : Nat} {rest : List Char}
    (h : rest.head?.any isDigit = false) :
    (Token.read fuel ⟨'.' :: rest, offset⟩).token.kind ≠ .punct .leftBracket := by
  have hkind : (readKind fuel ⟨'.' :: rest, offset⟩).value ≠ .punct .leftBracket := by
    intro hbracket
    unfold readKind at hbracket
    dsimp only at hbracket
    rw [h] at hbracket
    cases hp : punctAt? ⟨'.' :: rest, offset⟩ with
    | none =>
      rw [hp] at hbracket
      cases hbracket
    | some p =>
      rw [hp] at hbracket
      obtain rfl : p = .leftBracket := Token.Kind.punct.inj hbracket
      unfold punctAt? at hp
      have hfound := List.find?_some hp
      exact absurd (Bool.and_eq_true_iff.1 hfound).1 Bool.false_ne_true
  unfold Token.read
  rw [skipTrivia_of_solid (by decide)]
  exact hkind

section Access

variable {object : String} (hobject : IsName object)

include hobject

/-- A property by its name, behind a point. -/
theorem tokens_point {name : String} (h : IsName name) :
    tokens (object ++ "." ++ name) = [.word object false, .punct .dot, .word name false] := by
  have hends : NameEnds [] := trivial
  have hword := h.begins hends
  obtain ⟨first, more, hname, hstart, -⟩ := h
  have hlist : (object ++ "." ++ name).toList = object.toList ++ '.' :: first :: more := by
    rw [String.toList_append, String.toList_append, hname, List.append_assoc]
    rfl
  refine Spells.tokens ?_
  rw [hlist]
  rw [List.append_nil, hname] at hword
  exact .token (hobject.begins (nameEnds_cons (by decide) (by decide) _)) (by simp) <|
    .token (begins_dot _ hstart) (by decide) <| .token hword (by simp) .done

/-- A property by a literal in brackets. -/
theorem tokens_brackets (name : String) : ∃ raw, tokens (object ++ "[" ++ quote name ++ "]") =
    [.word object false, .punct .leftBracket, .string name true raw, .punct .rightBracket] := by
  have hlist : (object ++ "[" ++ quote name ++ "]").toList =
      object.toList ++ '[' :: ((quote name).toList ++ [']']) := by
    simp only [String.toList_append, List.append_assoc]
    rfl
  refine ⟨String.ofList (quoteChars name.toList), Spells.tokens ?_⟩
  rw [hlist]
  exact .token (hobject.begins (nameEnds_cons (by decide) (by decide) _)) (by simp) <|
    .token (begins_leftBracket _) (by decide) <| .token (begins_quote name _) (by simp) <|
    .token (begins_rightBracket _) (by decide) .done

end Access

/-! ## Where the classes of characters agree -/

/-- Names of properties and names of the language have the same rules for a character. -/
structure Undisputed (c : Char) : Prop where
  starts : (c == '$' || c == '_' || isAlphabetic c) = startsIdentifier c
  continues : (c == '$' || c == '_' || c.toNat == 0x200c || c.toNat == 0x200d || isAlphanumeric c) =
    continuesIdentifier c

theorem undisputed_of_ascii {c : Char} (h : c.toNat < 0x80) : Undisputed c := by
  have hjoiners : (c.toNat == 0x200c) = false ∧ (c.toNat == 0x200d) = false := by
    constructor <;> rw [beq_eq_false_iff_ne] <;> omega
  constructor
  · unfold isAlphabetic startsIdentifier
    rw [if_pos h, if_pos h, Bool.or_comm, Bool.or_assoc]
  · unfold isAlphanumeric isAlphabetic isNumeric continuesIdentifier
    rw [if_pos h, if_pos h, if_pos h, hjoiners.1, hjoiners.2, Bool.or_false, Bool.or_false,
      Bool.or_comm, ← Bool.or_assoc]

/-- Made of such characters, the names that may stand behind a point are those of the language. -/
theorem isIdentifier_iff_isName {name : String} (h : ∀ c ∈ name.toList, Undisputed c) :
    isIdentifier name = true ↔ IsName name := by
  unfold isIdentifier IsName
  cases hname : name.toList with
  | nil =>
    refine ⟨fun hfalse => absurd hfalse Bool.false_ne_true, ?_⟩
    rintro ⟨first, rest, hcons, -⟩
    cases hcons
  | cons c rest =>
    rw [hname] at h
    obtain ⟨hfirst, hrest⟩ := List.forall_mem_cons.1 h
    dsimp only
    rw [Bool.and_eq_true, hfirst.starts, List.all_eq_true]
    constructor
    · rintro ⟨hstart, hall⟩
      exact ⟨c, rest, rfl, hstart, fun d hd => (hrest d hd).continues ▸ hall d hd⟩
    · rintro ⟨first, more, hcons, hstart, hmore⟩
      obtain ⟨rfl, rfl⟩ := List.cons.inj hcons
      exact ⟨hstart, fun d hd => (hrest d hd).continues ▸ hmore d hd⟩

/-- No digit stands first in a name that may stand behind a point. -/
theorem head_of_isIdentifier {name : String} (h : isIdentifier name = true) :
    name.toList.head?.any isDigit = false := by
  unfold isIdentifier at h
  cases hname : name.toList with
  | nil => rfl
  | cons c rest =>
    rw [hname] at h
    have hfirst := (Bool.and_eq_true_iff.1 h).1
    rw [List.head?_cons, Option.any_some, Bool.eq_false_iff]
    intro hdigit
    have hlow : c.toNat < 0x80 := by
      simp only [isDigit, Bool.and_eq_true, decide_eq_true_eq, Char.le_def, UInt32.le_iff_toNat_le]
        at hdigit
      exact Nat.lt_of_le_of_lt hdigit.2 (by decide)
    rw [(undisputed_of_ascii hlow).starts] at hfirst
    rw [isDigit_of_startsIdentifier hfirst] at hdigit
    cases hdigit

/-! ## What is written for a property -/

/-- What is written behind a point reads a property only if it is a name. -/
theorem isName_of_readsProperty {object name : String} (hobject : IsName object)
    (hpoint : isIdentifier name = true)
    (h : ReadsProperty object name (tokens (object ++ "." ++ name))) : IsName name := by
  rcases h with hreads | ⟨raw, hreads⟩
  · exact isName_of_mem_tokens (by rw [hreads]; simp)
  · -- the first token is the object, and the second one begins with the point
    exfalso
    have hlist : (object ++ "." ++ name).toList = object.toList ++ '.' :: name.toList := by
      rw [String.toList_append, String.toList_append, List.append_assoc]
      rfl
    have hfirst : Begins (object ++ "." ++ name).toList (.word object false)
        ('.' :: name.toList) := by
      rw [hlist]
      exact hobject.begins (nameEnds_cons (by decide) (by decide) _)
    obtain ⟨after, hfrom⟩ :=
      tokensFrom_of_begins hfirst (by simp) (object ++ "." ++ name).toList.length 0
    unfold tokens at hreads
    rw [hfrom, hlist, List.length_append, List.length_cons, ← Nat.add_assoc] at hreads
    unfold tokensFrom at hreads
    dsimp only at hreads
    split at hreads
    · cases hreads
    · exact read_point_ne_leftBracket (head_of_isIdentifier hpoint)
        (List.cons.inj (List.cons.inj hreads).2).1

theorem readProperty_of_isIdentifier {name : String} (h : isIdentifier name = true)
    (object : String) : readProperty object name = object ++ "." ++ name := if_pos h

/-- What is written for a property of an object reads it exactly if a name that may stand behind a point
is one of the language.  The names of undisputed characters that may stand behind a point are those that
are read as one word. -/
theorem readProperty_reads_iff {object : String} (hobject : IsName object) (name : String) :
    (ReadsProperty object name (tokens (readProperty object name)) ↔
      (isIdentifier name = true → IsName name)) ∧
    ((∀ c ∈ name.toList, Undisputed c) →
      (isIdentifier name = true ↔ tokens name = [.word name false])) := by
  refine ⟨?_, fun h => (isIdentifier_iff_isName h).trans tokens_eq_word_iff.symm⟩
  by_cases hpoint : isIdentifier name = true
  · rw [readProperty_of_isIdentifier hpoint]
    exact ⟨fun hreads _ => isName_of_readsProperty hobject hpoint hreads,
      fun h => Or.inl (tokens_point hobject (h hpoint))⟩
  · have hbrackets : readProperty object name = object ++ "[" ++ quote name ++ "]" := if_neg hpoint
    rw [hbrackets]
    exact iff_of_true (Or.inr (tokens_brackets hobject name)) fun h => absurd h hpoint

/-- The superscript two is numeric, but no part of a name. -/
theorem not_isName_superscript : ¬ IsName "a²" := by
  rintro ⟨first, rest, hname, -, hrest⟩
  obtain ⟨-, rfl⟩ := List.cons.inj (show ['a', '²'] = first :: rest from hname)
  exact absurd (hrest '²' List.mem_cons_self) (by decide +kernel)

/-- The letter ï is undisputed. -/
theorem exports_reads : IsName "exports" ∧
    ((ReadsProperty "exports" "naïve" (tokens (readProperty "exports" "naïve")) ↔
        (isIdentifier "naïve" = true → IsName "naïve")) ∧
      ((∀ c ∈ "naïve".toList, Undisputed c) →
        (isIdentifier "naïve" = true ↔ tokens "naïve" = [.word "naïve" false]))) :=
  ⟨isName_exports, readProperty_reads_iff isName_exports "naïve"⟩

/-- Names that may stand behind a point are not all names of the language, and names of the language may
not all stand behind one.  For the name `a²`, what is written does not read the property. -/
theorem not_readProperty_reads_of_superscript :
    (¬ ∀ name, isIdentifier name = true → IsName name) ∧
    (¬ ∀ name, tokens name = [.word name false] → isIdentifier name = true) ∧
    ¬ ∀ name, ReadsProperty "exports" name (tokens (readProperty "exports" name)) := by
  have hpoint : isIdentifier "a²" = true := by decide +kernel
  have hword : tokens "a·" = [.word "a·" false] := by decide +kernel
  have hbrackets : isIdentifier "a·" = false := by decide +kernel
  refine ⟨fun h => not_isName_superscript (h _ hpoint), fun h => ?_, fun h => ?_⟩
  · rw [h _ hword] at hbrackets
    cases hbrackets
  · have hreads := h "a²"
    rw [readProperty_of_isIdentifier hpoint] at hreads
    exact not_isName_superscript (isName_of_readsProperty isName_exports hpoint hreads)

end ModuleBundler.Syntax
