import Mathlib.Data.List.Induction
import ModuleBundler.Proofs.Syntax.Reading

/-!
# Quoted texts stand alone

A quoted text is the JSON string of the text, in which the two line separators have been replaced by
their escapes.  The replacements are made in text that is escaped already, so that they could meet
backslashes; they do not, because no escape contains a line separator and none is made of one before it
is replaced.

* `quote_eq_replaced` — a quoted text is what the two replacements leave of a JSON string;
* `readJsonString_quote` — a reader of JSON strings reads the text back, as `begins_quote` says of
  program text, and stops at the closing quote;
* `backslashes_of_quoteChars` — each quote between the delimiters has an odd number of backslashes in
  front of it;
* **`quote_selfDelimiting`** — all that other text has to know of a quoted one.
-/

namespace ModuleBundler.Text

open Syntax

/-! ## Characters of a literal -/

/-- What a letter behind a backslash stands for in JSON, if it is one of the short escapes. -/
def shortEscape? : Char → Option Char
  | '"' => some '"'
  | '\\' => some '\\'
  | '/' => some '/'
  | 'b' => some (Char.ofNat 8)
  | 'f' => some (Char.ofNat 12)
  | 'n' => some '\n'
  | 'r' => some '\r'
  | 't' => some '\t'
  | _ => none

/-- A character that can stand in a literal: it ends no line and is no control character. -/
def InLine (c : Char) : Prop := 0x20 ≤ c.toNat ∧ isLineTerminator c = false

instance (c : Char) : Decidable (InLine c) := inferInstanceAs (Decidable (_ ∧ _))

/-- How a character is written: as a short escape, as four digits, or as it is. -/
inductive Written : Char → List Char → Prop
  | short {c letter : Char} : shortEscape? letter = some c → InLine letter →
      Written c ['\\', letter]
  | digits {c : Char} : c.toNat < 0xd800 → Written c ('\\' :: 'u' :: hexDigits 4 c.toNat)
  | bare {c : Char} : c ≠ '"' → c ≠ '\\' → InLine c → Written c [c]

/-- Every character is written in one of these ways. -/
theorem written_quoteChar (c : Char) : Written c (quoteChar c) := by
  have hshort : ∀ letter : Char, shortEscape? letter = some c → InLine letter →
      Written c ['\\', letter] := fun _ => .short
  unfold quoteChar
  split_ifs with hquote hslash hfeed hreturn htab hback hform hcode
  · exact hshort '"' (congrArg some hquote.symm) (by decide)
  · exact hshort '\\' (congrArg some hslash.symm) (by decide)
  · exact hshort 'n' (congrArg some hfeed.symm) (by decide)
  · exact hshort 'r' (congrArg some hreturn.symm) (by decide)
  · exact hshort 't' (congrArg some htab.symm) (by decide)
  · exact hshort 'b' (congrArg some (by rw [← hback, Char.ofNat_toNat])) (by decide)
  · exact hshort 'f' (congrArg some (by rw [← hform, Char.ofNat_toNat])) (by decide)
  · simp only [Bool.or_eq_true, decide_eq_true_eq] at hcode
    exact .digits (by omega)
  · simp only [Bool.or_eq_true, decide_eq_true_eq, not_or] at hcode
    refine .bare hquote hslash ⟨by omega, ?_⟩
    simp only [isLineTerminator, Bool.or_eq_false_iff, beq_eq_false_iff_ne]
    exact ⟨⟨⟨hfeed, hreturn⟩, hcode.1.2⟩, hcode.2⟩

theorem inLine_of_ascii {c : Char} (hlow : 0x20 ≤ c.toNat) (hhigh : c.toNat < 0x80) : InLine c := by
  refine ⟨hlow, ?_⟩
  have hne : ∀ d : Char, d.toNat < 0x20 → c ≠ d := by
    rintro d hd rfl
    omega
  simp only [isLineTerminator, Bool.or_eq_false_iff, beq_eq_false_iff_ne]
  exact ⟨⟨⟨hne '\n' (by decide), hne '\r' (by decide)⟩, by omega⟩, by omega⟩

/-- The digits of an escape are printable characters of ASCII, and no backslashes. -/
theorem mem_hexDigits {k n : Nat} {d : Char} (h : d ∈ hexDigits k n) :
    0x20 ≤ d.toNat ∧ d.toNat < 0x80 ∧ d ≠ '\\' ∧ d ≠ '"' := by
  have hdigit : ∀ v < 16, 0x20 ≤ (hexDigit v).toNat ∧ (hexDigit v).toNat < 0x80 ∧
      hexDigit v ≠ '\\' ∧ hexDigit v ≠ '"' := by decide
  induction k generalizing n with
  | zero => exact absurd h List.not_mem_nil
  | succ k ih =>
    rcases List.mem_append.1 h with h | h
    · exact ih h
    · rw [List.mem_singleton.1 h]
      exact hdigit _ (Nat.mod_lt _ (by decide))

/-- What is written of a character stays on its line. -/
theorem Written.inLine {c : Char} {written : List Char} (h : Written c written) :
    ∀ d ∈ written, InLine d := by
  have hslash : InLine '\\' := by decide
  cases h with
  | short _ hletter => exact List.forall_mem_cons.2 ⟨hslash, List.forall_mem_singleton.2 hletter⟩
  | digits _ =>
    refine List.forall_mem_cons.2 ⟨hslash, List.forall_mem_cons.2 ⟨by decide, fun d hd => ?_⟩⟩
    obtain ⟨hlow, hhigh, -⟩ := mem_hexDigits hd
    exact inLine_of_ascii hlow hhigh
  | bare _ _ hc => exact List.forall_mem_singleton.2 hc

theorem inLine_quoteChars (text : List Char) : ∀ d ∈ quoteChars text, InLine d := by
  induction text with
  | nil => exact fun d hd => absurd hd List.not_mem_nil
  | cons c rest ih => exact List.forall_mem_append.2 ⟨(written_quoteChar c).inLine, ih⟩

/-! ## Quotes between the delimiters -/

/-- The number of backslashes at the end of a text. -/
def backslashes (text : List Char) : Nat := (text.reverse.takeWhile (· == '\\')).length

theorem backslashes_concat (text : List Char) (c : Char) :
    backslashes (text ++ [c]) = if c = '\\' then backslashes text + 1 else 0 := by
  unfold backslashes
  rw [List.reverse_concat, List.takeWhile_cons]
  by_cases hc : c = '\\'
  · rw [if_pos hc, if_pos (beq_iff_eq.2 hc), List.length_cons]
  · rw [if_neg hc, if_neg (by simpa using hc), List.length_nil]

/-- An even number of backslashes in front of a text does not change which of its characters are
escaped. -/
theorem backslashes_append {before : List Char} (h : backslashes before % 2 = 0)
    (text : List Char) : backslashes (before ++ text) % 2 = backslashes text % 2 := by
  induction text using List.reverseRecOn with
  | nil => rw [List.append_nil, h]; rfl
  | append_singleton text c ih =>
    rw [← List.append_assoc, backslashes_concat, backslashes_concat]
    split
    · omega
    · rfl

/-- Behind what is written of a character, the next one is not escaped. -/
theorem Written.even {c : Char} {written : List Char} (h : Written c written) :
    backslashes written % 2 = 0 := by
  cases h with
  | @short letter _ _ =>
    rw [show ['\\', letter] = ['\\'] ++ [letter] from rfl, backslashes_concat]
    split <;> rfl
  | digits _ =>
    have hdigit : hexDigit (c.toNat % 16) ≠ '\\' :=
      (mem_hexDigits (k := 1) (n := c.toNat) List.mem_cons_self).2.2.1
    rw [show hexDigits 4 c.toNat = hexDigits 3 (c.toNat / 16) ++ [hexDigit (c.toNat % 16)] from rfl,
      ← List.cons_append, ← List.cons_append, backslashes_concat, if_neg hdigit]
  | bare _ hc _ =>
    rw [← List.nil_append [c], backslashes_concat, if_neg hc]

/-- A quote is written with a backslash in front of it, and in no other way. -/
theorem Written.eq_of_quote {c : Char} {written : List Char} (h : Written c written)
    (hquote : '"' ∈ written) : written = ['\\', '"'] := by
  cases h with
  | short _ _ =>
    rcases List.mem_cons.1 hquote with heq | hmem
    · cases heq
    · rw [List.mem_singleton.1 hmem]
  | digits _ =>
    rcases List.mem_cons.1 hquote with heq | hmem
    · cases heq
    · rcases List.mem_cons.1 hmem with heq | hmem
      · cases heq
      · exact absurd rfl (mem_hexDigits hmem).2.2.2
  | bare hc _ _ => exact absurd (List.mem_singleton.1 hquote).symm hc

/-- Each quote inside of a literal is escaped: an odd number of backslashes stands in front of it. -/
theorem backslashes_of_quoteChars {text before after : List Char}
    (h : quoteChars text = before ++ '"' :: after) : backslashes before % 2 = 1 := by
  induction text generalizing before with
  | nil => cases before <;> cases h
  | cons c rest ih =>
    have hc := written_quoteChar c
    rw [quoteChars] at h
    -- the quote is written of a later character, or of this one
    have hlater : ∀ more, quoteChars rest = more ++ '"' :: after →
        backslashes (quoteChar c ++ more) % 2 = 1 :=
      fun more hmore => (backslashes_append hc.even more).trans (ih hmore)
    rcases List.append_eq_append_iff.1 h with ⟨more, rfl, hrest⟩ | ⟨more, hwritten, hmore⟩
    · exact hlater more hrest
    · cases more with
      | nil =>
        rw [← List.append_nil before, ← hwritten, ← List.append_nil (quoteChar c)]
        exact hlater [] hmore.symm
      | cons d more =>
        obtain ⟨rfl, -⟩ := List.cons.inj hmore
        have hpair := hc.eq_of_quote (by rw [hwritten]; simp)
        rw [hpair] at hwritten
        rcases before with _ | ⟨first, _ | ⟨second, before⟩⟩
        · cases hwritten
        · obtain ⟨rfl, -⟩ := List.cons.inj hwritten
          rfl
        · cases before <;> cases (List.cons.inj (List.cons.inj hwritten).2).2

/-! ## JSON strings -/

/-- Where a reader of a JSON string stands, behind its first quote. -/
inductive JsonPoint where
  /-- In front of a character, an escape or the last quote. -/
  | between
  /-- Behind a backslash; a first half of a surrogate pair may stand before it. -/
  | escape (half : Option Nat)
  /-- Inside of a four digit escape: what its digits are worth so far, and how many are missing. -/
  | digits (half : Option Nat) (value missing : Nat)
  /-- Behind the first half of a surrogate pair. -/
  | half (high : Nat)

/-- What the digits of an escape stand for, and where the reader stands behind them. -/
def endDigits (half : Option Nat) (value : Nat) : Option (JsonPoint × List Char) :=
  match half with
  | none =>
    if isHighSurrogate value then some (.half value, [])
    else if isLowSurrogate value then none
    else some (.between, [Char.ofNat value])
  | some high =>
    if isLowSurrogate value then
      some (.between, [Char.ofNat ((high - 0xd800) * 0x400 + (value - 0xdc00) + 0x10000)])
    else none

/-- Reads one character that does not end the string. -/
def jsonStep : JsonPoint → Char → Option (JsonPoint × List Char)
  | .between, c =>
    if c = '\\' then some (.escape none, [])
    else if c.toNat < 0x20 then none
    else some (.between, [c])
  | .escape half, c =>
    if c = 'u' then some (.digits half 0 4, [])
    else if half.isSome then none
    else (shortEscape? c).map fun d => (.between, [d])
  | .digits half value missing, c =>
    (hexValue? c).bind fun d =>
      if missing = 1 then endDigits half (value * 16 + d)
      else some (.digits half (value * 16 + d) (missing - 1), [])
  | .half high, c => if c = '\\' then some (.escape (some high), []) else none

/-- Reads on in a JSON string: what it stands for from here on, and the text behind it. -/
def readJson : JsonPoint → List Char → Option (List Char × List Char)
  | _, [] => none
  | .between, '"' :: rest => some ([], rest)
  | point, c :: rest =>
    (jsonStep point c).bind fun (next, meant) =>
      (readJson next rest).map fun (more, behind) => (meant ++ more, behind)

/-- Reads a JSON string at the beginning of a text. -/
def readJsonString : List Char → Option (List Char × List Char)
  | '"' :: rest => readJson .between rest
  | _ => none

section Reading

variable (rest : List Char)

theorem readJson_cons {point : JsonPoint} {c : Char} (h : point ≠ .between ∨ c ≠ '"') :
    readJson point (c :: rest) = (jsonStep point c).bind fun (next, meant) =>
      (readJson next rest).map fun (more, behind) => (meant ++ more, behind) := by
  rw [readJson]
  rintro rfl rfl
  rcases h with h | h <;> exact h rfl

/-- A step that stands for nothing yet. -/
theorem readJson_onward {point next : JsonPoint} {c : Char} (h : point ≠ .between ∨ c ≠ '"')
    (hstep : jsonStep point c = some (next, [])) :
    readJson point (c :: rest) = readJson next rest := by
  rw [readJson_cons rest h, hstep]
  exact Option.map_id'

/-- A step that comes to the end of a character. -/
theorem readJson_char {point : JsonPoint} {c d : Char} (h : point ≠ .between ∨ c ≠ '"')
    (hstep : jsonStep point c = some (.between, [d])) :
    readJson point (c :: rest) =
      (readJson .between rest).map fun (more, behind) => (d :: more, behind) := by
  rw [readJson_cons rest h, hstep]
  rfl

/-- The digit of an escape is worth what it was written for. -/
theorem readJson_digit {value n missing : Nat} (hmissing : missing ≠ 1) :
    readJson (.digits none value missing) (hexDigit (n % 16) :: rest) =
      readJson (.digits none (value * 16 + n % 16) (missing - 1)) rest := by
  refine readJson_onward rest (.inl (by simp)) ?_
  simp only [jsonStep, hexValue?_hexDigit _ (Nat.mod_lt n (by decide)), Option.bind_some,
    if_neg hmissing]

/-- What is written of a character is read as the character. -/
theorem readJson_written {c : Char} {written : List Char} (h : Written c written) :
    readJson .between (written ++ rest) =
      (readJson .between rest).map fun (more, behind) => (c :: more, behind) := by
  have hslash : jsonStep .between '\\' = some (.escape none, []) := rfl
  cases h with
  | @short letter hletter _ =>
    have hstep : jsonStep (.escape none) letter = some (.between, [c]) := by
      have hu : letter ≠ 'u' := by
        rintro rfl
        cases hletter
      rw [jsonStep, if_neg hu, if_neg (by simp), hletter]
      rfl
    rw [List.cons_append, readJson_onward _ (.inr (by decide)) hslash]
    exact readJson_char rest (.inl (by simp)) hstep
  | digits hc =>
    have hvalue : (((0 * 16 + c.toNat / 16 / 16 / 16 % 16) * 16 + c.toNat / 16 / 16 % 16) * 16
        + c.toNat / 16 % 16) * 16 + c.toNat % 16 = c.toNat := by omega
    have hlast : endDigits none c.toNat = some (.between, [c]) := by
      have hhigh : isHighSurrogate c.toNat = false := by simp [isHighSurrogate]; omega
      have hlow : isLowSurrogate c.toNat = false := by simp [isLowSurrogate]; omega
      simp only [endDigits, hhigh, hlow, Bool.false_eq_true, if_false, Char.ofNat_toNat]
    simp only [hexDigits, List.nil_append, List.cons_append]
    rw [readJson_onward _ (.inr (by decide)) hslash, readJson_onward _ (.inl (by simp)) rfl,
      readJson_digit _ (by decide), readJson_digit _ (by decide), readJson_digit _ (by decide)]
    refine readJson_char rest (.inl (by simp)) ?_
    simp only [jsonStep, hexValue?_hexDigit _ (Nat.mod_lt c.toNat (by decide)), Option.bind_some,
      hvalue]
    exact hlast
  | bare hquote hback hc =>
    refine readJson_char rest (.inr hquote) ?_
    rw [jsonStep, if_neg hback, if_neg (Nat.not_lt.2 hc.1)]

theorem readJson_quoteChars (text : List Char) :
    readJson .between (quoteChars text ++ '"' :: rest) = some (text, rest) := by
  induction text with
  | nil => rfl
  | cons c text ih =>
    rw [quoteChars, List.append_assoc, readJson_written _ (written_quoteChar c), ih]
    rfl

/-- A quoted text is a JSON string that stands for the text. -/
theorem readJsonString_quote (text : String) :
    readJsonString ((quote text).toList ++ rest) = some (text.toList, rest) := by
  have hquote : (quote text).toList ++ rest = '"' :: (quoteChars text.toList ++ '"' :: rest) := by
    unfold quote
    rw [String.toList_ofList, List.cons_append, List.append_assoc, List.singleton_append]
  rw [hquote]
  exact readJson_quoteChars rest text.toList

end Reading

/-! ## Replacements in a JSON string -/

/-- How a character is written in a JSON string: the two line separators are copied. -/
def jsonChar (c : Char) : List Char :=
  if c = '"' then ['\\', '"']
  else if c = '\\' then ['\\', '\\']
  else if c = '\n' then ['\\', 'n']
  else if c = '\r' then ['\\', 'r']
  else if c = '\t' then ['\\', 't']
  else if c.toNat = 8 then ['\\', 'b']
  else if c.toNat = 12 then ['\\', 'f']
  else if c.toNat < 0x20 then '\\' :: 'u' :: hexDigits 4 c.toNat
  else [c]

/-- A text as a JSON string. -/
def jsonString (text : String) : List Char := '"' :: (text.toList.flatMap jsonChar ++ ['"'])

/-- A text with each occurrence of a character replaced by other text. -/
def replaceChar (old : Char) (new text : List Char) : List Char :=
  text.flatMap fun c => if c = old then new else [c]

/-- A text with the two line separators replaced by escapes, one behind the other. -/
def replaceSeparators (text : List Char) : List Char :=
  replaceChar (Char.ofNat 0x2029) ['\\', 'u', '2', '0', '2', '9']
    (replaceChar (Char.ofNat 0x2028) ['\\', 'u', '2', '0', '2', '8'] text)

theorem replaceSeparators_append (before after : List Char) :
    replaceSeparators (before ++ after) = replaceSeparators before ++ replaceSeparators after := by
  unfold replaceSeparators replaceChar
  rw [List.flatMap_append, List.flatMap_append]

theorem replaceSeparators_flatMap (write : Char → List Char) (text : List Char) :
    replaceSeparators (text.flatMap write) = text.flatMap fun c => replaceSeparators (write c) := by
  induction text with
  | nil => rfl
  | cons c rest ih =>
    rw [List.flatMap_cons, replaceSeparators_append, ih, List.flatMap_cons]

theorem replaceChar_of_notMem {old : Char} (new : List Char) {text : List Char} (h : old ∉ text) :
    replaceChar old new text = text := by
  have hcopy : text.flatMap (fun c => if c = old then new else [c]) = text.flatMap ([·]) :=
    List.flatMap_congr fun c hc => if_neg (ne_of_mem_of_not_mem hc h)
  exact hcopy.trans (List.flatMap_singleton' text)

/-- What stays on its line has no line separator. -/
theorem replaceSeparators_of_inLine {text : List Char} (h : ∀ d ∈ text, InLine d) :
    replaceSeparators text = text := by
  have hnot : ∀ d : Char, isLineTerminator d = true → d ∉ text := by
    intro d hd hmem
    rw [(h d hmem).2] at hd
    cases hd
  unfold replaceSeparators
  rw [replaceChar_of_notMem _ (hnot (Char.ofNat 0x2028) (by decide)),
    replaceChar_of_notMem _ (hnot (Char.ofNat 0x2029) (by decide))]

theorem quoteChar_eq_replaced (c : Char) : quoteChar c = replaceSeparators (jsonChar c) := by
  by_cases hline : c = Char.ofNat 0x2028
  · rw [hline]
    decide
  by_cases hparagraph : c = Char.ofNat 0x2029
  · rw [hparagraph]
    decide
  have hne : ∀ n : Nat, c ≠ Char.ofNat n → c.toNat ≠ n := by
    rintro n hn rfl
    exact hn (Char.ofNat_toNat c).symm
  have hjson : quoteChar c = jsonChar c := by
    unfold quoteChar jsonChar
    simp only [hne _ hline, hne _ hparagraph, decide_false, Bool.or_false, decide_eq_true_eq]
  rw [← hjson, replaceSeparators_of_inLine (written_quoteChar c).inLine]

theorem quoteChars_eq_flatMap (text : List Char) : quoteChars text = text.flatMap quoteChar := by
  induction text with
  | nil => rfl
  | cons c rest ih => rw [quoteChars, List.flatMap_cons, ih]

/-- A quoted text is its JSON string with the line separators replaced, whatever stands next to
them. -/
theorem quote_eq_replaced (text : String) :
    (quote text).toList = replaceSeparators (jsonString text) := by
  have hends : ∀ more, replaceSeparators ('"' :: more) = '"' :: replaceSeparators more := fun _ => rfl
  unfold quote jsonString
  rw [String.toList_ofList, hends, replaceSeparators_append, replaceSeparators_flatMap,
    quoteChars_eq_flatMap, List.flatMap_congr fun c _ => quoteChar_eq_replaced c]
  rfl

/-! ## Quoted texts in other text -/

/-- A quoted text is told from any text behind it: as a token of a program and as a JSON string it
stands for the text and ends with its last character.  So no two texts are quoted alike, whatever
follows.  It stays on one line, and each quote between its delimiters is escaped. -/
theorem quote_selfDelimiting (text : String) (behind : List Char) :
    (quote text).toList = replaceSeparators (jsonString text) ∧
    (∃ raw, Begins ((quote text).toList ++ behind) (.string text true raw) behind) ∧
    readJsonString ((quote text).toList ++ behind) = some (text.toList, behind) ∧
    (∀ text' behind', (quote text).toList ++ behind = (quote text').toList ++ behind' →
      text = text' ∧ behind = behind') ∧
    ∃ body, (quote text).toList = '"' :: (body ++ ['"']) ∧
      (∀ d ∈ body, 0x20 ≤ d.toNat ∧ isLineTerminator d = false) ∧
      ∀ before after, body = before ++ '"' :: after → backslashes before % 2 = 1 := by
  refine ⟨quote_eq_replaced text, ⟨_, begins_quote text behind⟩, readJsonString_quote behind text,
    fun _ _ h => quote_append_inj h, quoteChars text.toList, ?_, inLine_quoteChars _, ?_⟩
  · unfold quote
    rw [String.toList_ofList]
  · exact fun before after => backslashes_of_quoteChars

end ModuleBundler.Text
