import ModuleBundler.Syntax.Fault
import ModuleBundler.Syntax.Token
import ModuleBundler.Text.CharClass

/-!
# Reading one token

`Token.read` reads the token at a `Cursor` and leaves the cursor behind it.  White space and
comments are passed first (`skipTrivia`).  Which token stands at a slash or at a closing brace
depends on the grammar, so the reader answers with the punctuator there and the parser asks again
with `Token.readRegex` or `Token.readTemplateTail`.

Malformed characters never stop the reader: it records faults, in the order in which it meets
them, and answers with a token, which is `Token.Kind.unknown` when nothing else fits.

Readers that loop are structural on the remaining characters, or take a bound `fuel` on the
number of steps where one step reads several characters.
-/

namespace ModuleBundler.Syntax

open Text

/-- What is left of a program text, and the offset at which it begins. -/
structure Cursor where
  rest : List Char
  offset : Nat
deriving DecidableEq

/-- A result, the cursor behind it, and the faults met on the way. -/
structure Reading (α : Type) where
  value : α
  next : Cursor
  faults : List Fault

namespace Cursor

/-- The cursor `n` characters further. -/
def skip (c : Cursor) (n : Nat) : Cursor := ⟨c.rest.drop n, c.offset + n⟩

/-- The fault of a cursor at which a digit was due. -/
def unexpected (c : Cursor) : Fault :=
  match c.rest with
  | [] => ⟨.unexpectedEnd, c.offset⟩
  | d :: _ => ⟨.invalidCharacter d, c.offset⟩

def skipWhile (p : Char → Bool) (c : Cursor) : Cursor :=
  go c.rest c.offset
where
  go : List Char → Nat → Cursor
    | [], n => ⟨[], n⟩
    | d :: rest, n => if p d then go rest (n + 1) else ⟨d :: rest, n⟩

/-- The characters between a cursor and a later one. -/
def textTo (c later : Cursor) : String := String.ofList (c.rest.take (later.offset - c.offset))

def startsWith (c : Cursor) (chars : List Char) : Bool := chars.isPrefixOf c.rest

end Cursor

/-! ## White space and comments -/

/-- What `skipTrivia` is in the middle of. -/
inductive TriviaMode where
  | between
  | lineComment
  | blockComment (start : Nat)

/-- The place behind white space and comments. -/
structure TriviaEnd where
  cursor : Cursor
  afterNewline : Bool
  /-- The offset of a block comment that the text never closes. -/
  unterminated : Option Nat
  /-- The span of the first comment passed. -/
  comment : Option Span

/-- Passes white space, line ends and comments.  `opened` is where the first comment began and
`comment` its span once it is closed. -/
def skipTrivia (mode : TriviaMode) (newline : Bool) (opened : Option Nat) (comment : Option Span) :
    List Char → Nat → TriviaEnd
  | [], n =>
    match mode with
    | .between => ⟨⟨[], n⟩, newline, none, comment⟩
    | .lineComment => ⟨⟨[], n⟩, newline, none, comment <|> opened.map (⟨·, n⟩)⟩
    | .blockComment start => ⟨⟨[], n⟩, newline, some start, comment⟩
  | '/' :: '/' :: rest, n =>
    match mode with
    | .between => skipTrivia .lineComment newline (opened <|> some n) comment rest (n + 2)
    | _ => skipTrivia mode newline opened comment ('/' :: rest) (n + 1)
  | '/' :: '*' :: rest, n =>
    match mode with
    | .between => skipTrivia (.blockComment n) newline (opened <|> some n) comment rest (n + 2)
    | _ => skipTrivia mode newline opened comment ('*' :: rest) (n + 1)
  | '*' :: '/' :: rest, n =>
    match mode with
    | .between => ⟨⟨'*' :: '/' :: rest, n⟩, newline, none, comment⟩
    | .lineComment => skipTrivia .lineComment newline opened comment ('/' :: rest) (n + 1)
    | .blockComment _ =>
      skipTrivia .between newline opened (comment <|> opened.map (⟨·, n + 2⟩)) rest (n + 2)
  | c :: rest, n =>
    match mode with
    | .between =>
      if isLineTerminator c then skipTrivia .between true opened comment rest (n + 1)
      else if isProgramBlank c then skipTrivia .between newline opened comment rest (n + 1)
      else ⟨⟨c :: rest, n⟩, newline, none, comment⟩
    | .lineComment =>
      if isLineTerminator c then
        skipTrivia .between true opened (comment <|> opened.map (⟨·, n⟩)) rest (n + 1)
      else skipTrivia .lineComment newline opened comment rest (n + 1)
    | .blockComment start =>
      skipTrivia (.blockComment start) (newline || isLineTerminator c) opened comment rest (n + 1)

/-! ## Escapes -/

/-- Reads up to `n` hexadecimal digits; the value is absent when there are fewer. -/
def readHexDigits : Nat → Nat → Cursor → Option Nat × Cursor
  | 0, value, c => (some value, c)
  | n + 1, value, c =>
    match c.rest.head?.bind hexValue? with
    | some d => readHexDigits n (value * 16 + d) (c.skip 1)
    | none => (none, c)

/-- Reads the digits of a braced code point; the value is absent beyond the last code point. -/
def readCodePointDigits (value : Nat) : List Char → Nat → Option Nat × Cursor
  | [], n => (some value, ⟨[], n⟩)
  | d :: rest, n =>
    match hexValue? d with
    | some v =>
      if value * 16 + v > 0x10ffff then (none, ⟨rest, n + 1⟩)
      else readCodePointDigits (value * 16 + v) rest (n + 1)
    | none => (some value, ⟨d :: rest, n⟩)

/-- Reads a code point in braces. -/
def readBracedCodePoint (c : Cursor) : Option Nat × Cursor :=
  let open1 := c.skip 1
  match open1.rest.head?.bind hexValue? with
  | none => (none, open1)
  | some _ =>
    match readCodePointDigits 0 open1.rest open1.offset with
    | (none, after) => (none, after)
    | (some value, after) =>
      if after.rest.head? == some '\x7d' then (some value, after.skip 1) else (none, after)

def isHighSurrogate (n : Nat) : Bool := 0xd800 ≤ n && n ≤ 0xdbff

def isLowSurrogate (n : Nat) : Bool := 0xdc00 ≤ n && n ≤ 0xdfff

/-- Reads what follows the letter of a Unicode escape.  Two escapes that form a surrogate pair
are one code point when `pairs` allows it. -/
def readUnicodeEscape (pairs : Bool) (c : Cursor) : Option Nat × Cursor :=
  if c.rest.head? == some '\x7b' then readBracedCodePoint c
  else
    match readHexDigits 4 0 c with
    | (none, after) => (none, after)
    | (some high, after) =>
      if isHighSurrogate high && after.startsWith ['\\', 'u'] then
        match readHexDigits 4 0 (after.skip 2) with
        | (none, broken) => (none, broken)
        | (some low, behind) =>
          if isLowSurrogate low then
            (if pairs then some ((high - 0xd800) * 0x400 + (low - 0xdc00) + 0x10000) else none,
              behind)
          else (some high, after)
      else (some high, after)

/-! ## Names -/

/-- Reads the rest of a name, escapes included.  `chars` holds the characters so far, last
first; `start` tells that none of them has been read yet. -/
def readName (fuel : Nat) (start escaped : Bool) (chars : List Char) (faults : List Fault)
    (c : Cursor) : Reading (String × Bool) :=
  match fuel with
  | 0 => ⟨(String.ofList chars.reverse, escaped), c, faults.reverse⟩
  | fuel + 1 =>
    match c.rest with
    | '\\' :: _ =>
      let c := c.skip 1
      let malformed (after : Cursor) :=
        readName fuel false true chars (⟨.invalidUnicodeEscape, c.offset⟩ :: faults) after
      if c.rest.head? == some 'u' then
        match readUnicodeEscape false (c.skip 1) with
        | (none, after) => malformed after
        | (some value, after) =>
          if 0xd800 ≤ value && value ≤ 0xdfff then malformed after
          else
            let d := Char.ofNat value
            if (if start then startsIdentifier d else continuesIdentifier d) then
              readName fuel false true (d :: chars) faults after
            else
              readName fuel false true chars (⟨.invalidCharacter d, after.offset⟩ :: faults) after
      else malformed c
    | d :: _ =>
      if continuesIdentifier d then
        readName fuel false escaped (d :: chars) faults (c.skip 1)
      else ⟨(String.ofList chars.reverse, escaped), c, faults.reverse⟩
    | [] => ⟨(String.ofList chars.reverse, escaped), c, faults.reverse⟩

/-! ## Numbers -/

/-- Reads digits with single separators between them, after a first digit. -/
def readMoreDigits (isDigitHere : Char → Bool) : List Char → Nat → Cursor × List Fault
  | [], n => (⟨[], n⟩, [])
  | '_' :: d :: rest, n =>
    if isDigitHere d then readMoreDigits isDigitHere rest (n + 2)
    else (⟨d :: rest, n + 1⟩, [⟨.invalidCharacter d, n + 1⟩])
  | '_' :: [], n => (⟨[], n + 1⟩, [⟨.unexpectedEnd, n + 1⟩])
  | d :: rest, n =>
    if isDigitHere d then readMoreDigits isDigitHere rest (n + 1) else (⟨d :: rest, n⟩, [])

def readDigits (isDigitHere : Char → Bool) (c : Cursor) : Cursor × List Fault :=
  match c.rest with
  | d :: rest =>
    if isDigitHere d then readMoreDigits isDigitHere rest (c.offset + 1) else (c, [c.unexpected])
  | [] => (c, [c.unexpected])

def readExponent (c : Cursor) : Bool × Cursor × List Fault :=
  match c.rest with
  | 'e' :: _ | 'E' :: _ =>
    let c := c.skip 1
    let c := if c.rest.head? == some '+' || c.rest.head? == some '-' then c.skip 1 else c
    let (after, faults) := readDigits isDigit c
    (true, after, faults)
  | _ => (false, c, [])

/-- Closes a number: an identifier or a digit must not follow it at once. -/
def endNumber (start : Cursor) (form : NumberForm) (faults : List Fault) (c : Cursor) :
    Reading Token.Kind :=
  match c.rest with
  | d :: _ =>
    if isDigit d || startsIdentifier d then
      ⟨.unknown, (c.skip 1).skipWhile startsIdentifier, faults ++ [⟨.invalidNumberEnd, c.offset⟩]⟩
    else ⟨.number form (start.textTo c), c, faults⟩
  | [] => ⟨.number form (start.textTo c), c, faults⟩

/-- Reads a fraction's digits and exponent, behind the point. -/
def readFraction (start c : Cursor) (needsDigit : Bool) : Reading Token.Kind :=
  let (c, faults) :=
    match c.rest with
    | d :: _ =>
      if needsDigit || isDigit d then readDigits isDigit c
      else if d == '_' then (c.skip 1, [(c.skip 1).unexpected])
      else (c, [])
    | [] => if needsDigit then readDigits isDigit c else (c, [])
  let (_, c, more) := readExponent c
  endNumber start .float (faults ++ more) c

/-- Reads a number in the base that the letter behind its zero names. -/
def readBased (start : Cursor) (form : NumberForm) (isDigitHere : Char → Bool) :
    Reading Token.Kind :=
  let c := start.skip 2
  match c.rest with
  | d :: rest =>
    if isDigitHere d then
      let (c, faults) := readMoreDigits isDigitHere rest (c.offset + 1)
      if !faults.isEmpty then ⟨.unknown, c, faults⟩
      else if c.rest.head? == some 'n' then endNumber start .bigint [] (c.skip 1)
      else endNumber start form [] c
    else ⟨.unknown, c, [c.unexpected]⟩
  | [] => ⟨.unknown, c, [c.unexpected]⟩

/-- Reads a number whose zero another digit follows: octal unless it holds an eight or a nine. -/
def readLegacyOctal (start : Cursor) : Reading Token.Kind :=
  let c := start.skipWhile isDigit
  if (start.rest.take (c.offset - start.offset)).any fun d => d == '8' || d == '9' then
    match c.rest with
    | '.' :: _ => readFraction start (c.skip 1) false
    | 'e' :: _ =>
      let (_, c, faults) := readExponent c
      endNumber start .exponential faults c
    | _ => endNumber start .decimal [] c
  else endNumber start .octal [] c

/-- Reads the number at the cursor, which stands at a digit. -/
def readNumber (c : Cursor) : Reading Token.Kind :=
  match c.rest with
  | '0' :: 'b' :: _ | '0' :: 'B' :: _ => readBased c .binary fun d => d == '0' || d == '1'
  | '0' :: 'o' :: _ | '0' :: 'O' :: _ => readBased c .octal fun d => '0' ≤ d && d ≤ '7'
  | '0' :: 'x' :: _ | '0' :: 'X' :: _ => readBased c .hex fun d => (hexValue? d).isSome
  | '0' :: d :: rest =>
    if isDigit d then readLegacyOctal c
    else readDecimal c (⟨d :: rest, c.offset + 1⟩, [])
  | _ => readDecimal c (readDigits isDigit c)
where
  /-- Reads on behind the integral digits of a decimal number. -/
  readDecimal (start : Cursor) (integral : Cursor × List Fault) : Reading Token.Kind :=
    let (c, faults) := integral
    match c.rest with
    | '.' :: _ =>
      let fraction := readFraction start (c.skip 1) false
      { fraction with faults := faults ++ fraction.faults }
    | 'n' :: _ => endNumber start .bigint faults (c.skip 1)
    | _ =>
      let (exponent, c, more) := readExponent c
      endNumber start (if exponent then .exponential else .decimal) (faults ++ more) c

/-! ## Strings and templates -/

/-- A unit of a string's value: a character, or half of a surrogate pair on its own. -/
inductive StringUnit where
  | char (c : Char)
  | surrogate (n : Nat)
deriving DecidableEq

/-- The unit of a code point. -/
def StringUnit.ofCodePoint (n : Nat) : StringUnit :=
  if 0xd800 ≤ n && n ≤ 0xdfff then .surrogate n else .char (Char.ofNat n)

/-- A string's value, and whether it is free of lone surrogates.  When it is not, each lone
surrogate is written as the replacement character and its four digits, and so is the replacement
character itself, which keeps distinct values distinct. -/
def StringUnit.decode (units : List StringUnit) : String × Bool :=
  let isLone : StringUnit → Bool
    | .surrogate _ => true
    | .char _ => false
  let lone := units.any isLone
  let write : StringUnit → List Char
    | .surrogate n => Char.ofNat 0xfffd :: hexDigits 4 n
    | .char c => if lone && c.toNat == 0xfffd then c :: hexDigits 4 0xfffd else [c]
  (String.ofList (units.flatMap write), !lone)

def isOctalDigit (c : Char) : Bool := '0' ≤ c && c ≤ '7'

/-- Reads an octal escape of at most three digits below 256. -/
def readOctalEscape (c : Cursor) : Nat × Cursor :=
  let width := match c.rest.head? with
    | some d => if d ≤ '3' then 3 else 2
    | none => 0
  let digits := (c.rest.take width).takeWhile isOctalDigit
  (digits.foldl (fun value d => value * 8 + (d.toNat - 48)) 0, c.skip digits.length)

/-- Reads an escape behind its backslash: the units it stands for, absent when it is malformed,
and the cursor behind it. -/
def readEscape (inTemplate : Bool) (c : Cursor) : Option (List StringUnit) × Cursor :=
  let after := c.skip 1
  let one (n : Nat) : Option (List StringUnit) × Cursor := (some [.char (Char.ofNat n)], after)
  match c.rest with
  | [] => (some [], c)
  | d :: _ =>
    if d == '\r' then (some [], if after.rest.head? == some '\n' then after.skip 1 else after)
    else if isLineTerminator d then (some [], after)
    else if d == 'b' then one 8
    else if d == 'f' then one 12
    else if d == 'n' then one 10
    else if d == 'r' then one 13
    else if d == 't' then one 9
    else if d == 'v' then one 11
    else if d == 'x' then
      match readHexDigits 2 0 after with
      | (some n, behind) => (some [.char (Char.ofNat n)], behind)
      | (none, behind) => (none, behind)
    else if d == 'u' then
      match readUnicodeEscape true after with
      | (some n, behind) => (some [.ofCodePoint n], behind)
      | (none, behind) => (none, behind)
    else if d == '0' && !(after.rest.head?.any isDigit) then one 0
    else if inTemplate && isDigit d then (none, after)
    else if isOctalDigit d then
      let (n, behind) := readOctalEscape c
      (some [.char (Char.ofNat n)], behind)
    else (some [.char d], after)

/-- Reads a string literal; its text begins at `body`, behind the opening quote. -/
def readString (fuel : Nat) (body : Cursor) (quote : Char) (units : List StringUnit)
    (faults : List Fault) (c : Cursor) : Reading Token.Kind :=
  let unterminated (c : Cursor) : Reading Token.Kind :=
    ⟨.unknown, c, (⟨.unterminatedString, body.offset - 1⟩ :: faults).reverse⟩
  match fuel with
  | 0 => unterminated c
  | fuel + 1 =>
    match c.rest with
    | [] => unterminated c
    | d :: _ =>
      if d == quote then
        let (value, wellFormed) := StringUnit.decode units.reverse
        ⟨.string value wellFormed (body.textTo c), c.skip 1, faults.reverse⟩
      else if d == '\n' || d == '\r' then unterminated (c.skip 1)
      else if d == '\\' then
        match readEscape false (c.skip 1) with
        | (some more, after) => readString fuel body quote (more.reverse ++ units) faults after
        | (none, after) =>
          readString fuel body quote units (⟨.invalidEscape, c.offset⟩ :: faults) after
      else readString fuel body quote (.char d :: units) faults (c.skip 1)

/-- Reads a part of a template; `closed` is the part it is when the template ends with it and
`opened` the part it is when an expression follows. -/
def readTemplate (fuel : Nat) (start : Nat) (body : Cursor) (closed opened : TemplatePart)
    (valid : Bool) (c : Cursor) : Reading Token.Kind :=
  match fuel with
  | 0 => ⟨.unknown, c, [⟨.unterminatedString, start⟩]⟩
  | fuel + 1 =>
    match c.rest with
    | [] => ⟨.unknown, c, [⟨.unterminatedString, start⟩]⟩
    | '\x60' :: _ => ⟨.template closed (body.textTo c) valid, c.skip 1, []⟩
    | '$' :: '\x7b' :: _ => ⟨.template opened (body.textTo c) valid, c.skip 2, []⟩
    | '\\' :: _ =>
      let (units, after) := readEscape true (c.skip 1)
      readTemplate fuel start body closed opened (valid && units.isSome) after
    | _ :: _ => readTemplate fuel start body closed opened valid (c.skip 1)

/-! ## Regular expressions -/

/-- Finds the end of a regular expression's pattern; `none` when the line or the text ends
first. -/
def endOfPattern (escaped inClass : Bool) : List Char → Nat → Option Cursor
  | [], _ => none
  | c :: rest, n =>
    if isLineTerminator c then none
    else if escaped then endOfPattern false inClass rest (n + 1)
    else if c == '/' && !inClass then some ⟨c :: rest, n⟩
    else if c == '[' then endOfPattern false true rest (n + 1)
    else if c == ']' then endOfPattern false false rest (n + 1)
    else endOfPattern (c == '\\') inClass rest (n + 1)

/-- The faults of regular expression flags, each at its flag. -/
def flagFaults (seen : List Char) : List Char → Nat → List Fault
  | [], _ => []
  | c :: rest, n =>
    if !"dgimsuvy".toList.contains c then
      ⟨.regexFlagUnknown c, n⟩ :: flagFaults seen rest (n + 1)
    else if seen.contains c then ⟨.regexFlagTwice c, n⟩ :: flagFaults seen rest (n + 1)
    else flagFaults (c :: seen) rest (n + 1)

/-- Reads a regular expression behind its opening slash at offset `start`. -/
def readRegexBody (start : Nat) (c : Cursor) : Reading Token.Kind :=
  match endOfPattern false false c.rest c.offset with
  | none =>
    let behind := c.skipWhile fun d => !isLineTerminator d
    ⟨.unknown, behind, [⟨.unterminatedRegex, start⟩]⟩
  | some close =>
    let flags := close.skip 1
    let behind := flags.skipWhile continuesIdentifier
    ⟨.regex (c.textTo close) (flags.textTo behind), behind,
      flagFaults [] (flags.rest.take (behind.offset - flags.offset)) flags.offset⟩

/-! ## Tokens -/

/-- A token that was read, the cursor behind it, the faults of the way, and the first comment
passed before it. -/
structure Lexeme where
  token : Token
  next : Cursor
  faults : List Fault
  comment : Option Span

/-- The longest punctuator at the cursor.  A question mark and a point before a digit are a
conditional and a number. -/
def punctAt? (c : Cursor) : Option Punct :=
  Punct.all.find? fun p =>
    c.startsWith p.text.toList
      && !(p == .questionDot && (c.rest.drop 2).head?.any isDigit)

/-- Reads the token that begins at the cursor, where no white space or comment stands. -/
def readKind (fuel : Nat) (c : Cursor) : Reading Token.Kind :=
  match c.rest with
  | [] => ⟨.eof, c, []⟩
  | d :: rest =>
    if d == '"' || d == '\'' then readString fuel (c.skip 1) d [] [] (c.skip 1)
    else if d == '\x60' then readTemplate fuel c.offset (c.skip 1) .whole .head true (c.skip 1)
    else if isDigit d then readNumber c
    else if d == '.' && rest.head?.any isDigit then readFraction c (c.skip 1) true
    else if d == '#' then
      if c.offset == 0 && rest.head? == some '!' then
        ⟨.hashbang, c.skipWhile fun e => !isLineTerminator e, []⟩
      else
        let c := c.skip 1
        if c.rest.head?.any fun e => startsIdentifier e || e == '\\' then
          let name := readName fuel true false [] [] c
          ⟨.privateName name.value.1, name.next, name.faults⟩
        else ⟨.unknown, c, [c.unexpected]⟩
    else if startsIdentifier d || d == '\\' then
      let name := readName fuel true false [] [] c
      ⟨.word name.value.1 name.value.2, name.next, name.faults⟩
    else
      match punctAt? c with
      | some p => ⟨.punct p, c.skip p.text.length, []⟩
      | none => ⟨.unknown, c.skip 1, [⟨.invalidCharacter d, c.offset⟩]⟩

def Token.read (fuel : Nat) (c : Cursor) : Lexeme :=
  let trivia := skipTrivia .between false none none c.rest c.offset
  let start := trivia.cursor
  match trivia.unterminated with
  | some opened =>
    ⟨⟨.eof, ⟨start.offset, start.offset⟩, trivia.afterNewline⟩, start,
      [⟨.unterminatedComment, opened⟩], trivia.comment⟩
  | none =>
    let reading := readKind fuel start
    ⟨⟨reading.value, ⟨start.offset, reading.next.offset⟩, trivia.afterNewline⟩, reading.next,
      reading.faults, trivia.comment⟩

/-- Reads the regular expression whose slash, or slash and equals sign, is the given token. -/
def Token.readRegex (slash : Token) (next : Cursor) : Lexeme :=
  let body : Cursor :=
    if slash.isPunct .slashAssign then ⟨'=' :: next.rest, next.offset - 1⟩ else next
  let reading := readRegexBody slash.span.start body
  ⟨⟨reading.value, ⟨slash.span.start, reading.next.offset⟩, slash.afterNewline⟩, reading.next,
    reading.faults, none⟩

/-- Reads the part of a template behind the closing brace that is the given token. -/
def Token.readTemplateTail (fuel : Nat) (brace : Token) (next : Cursor) : Lexeme :=
  let reading := readTemplate fuel brace.span.start next .tail .middle true next
  ⟨⟨reading.value, ⟨brace.span.start, reading.next.offset⟩, brace.afterNewline⟩, reading.next,
    reading.faults, none⟩

end ModuleBundler.Syntax
