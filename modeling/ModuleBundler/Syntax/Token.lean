import ModuleBundler.Syntax.Span

/-!
# Tokens of a program text

A `Token` is a piece of program text with its kind, its span, and whether a line ends between it
and the token before it.  Words are not split into names and keywords by the type: which words
are reserved depends on the place, so `Token.Kind.word` carries the decoded text and the
predicates below classify it.

* `Punct` lists the punctuators, `Punct.text` spells them.
* `isReservedWord`, `isContextualWord`, `isRestrictedWord` classify words.
* `Token.Kind.describe` names a token in a fault.
-/

namespace ModuleBundler.Syntax

/-! ## Punctuators -/

inductive Punct where
  | leftBrace | rightBrace | leftParen | rightParen | leftBracket | rightBracket
  | dot | dots | questionDot | question | colon | semicolon | comma | arrow | at
  | less | greater | lessEq | greaterEq | eq2 | notEq | eq3 | notEq2
  | plus | minus | star | slash | percent | star2 | plus2 | minus2
  | shiftLeft | shiftRight | shiftRightUnsigned
  | amp | pipe | caret | bang | tilde | amp2 | pipe2 | question2
  | assign | plusAssign | minusAssign | starAssign | slashAssign | percentAssign | star2Assign
  | shiftLeftAssign | shiftRightAssign | shiftRightUnsignedAssign
  | ampAssign | pipeAssign | caretAssign | amp2Assign | pipe2Assign | question2Assign
deriving DecidableEq

def Punct.text : Punct → String
  | .leftBrace => "\x7b" | .rightBrace => "\x7d" | .leftParen => "(" | .rightParen => ")"
  | .leftBracket => "[" | .rightBracket => "]" | .dot => "." | .dots => "..."
  | .questionDot => "?." | .question => "?" | .colon => ":" | .semicolon => ";" | .comma => ","
  | .arrow => "=>" | .at => "@" | .less => "<" | .greater => ">" | .lessEq => "<="
  | .greaterEq => ">=" | .eq2 => "==" | .notEq => "!=" | .eq3 => "===" | .notEq2 => "!=="
  | .plus => "+" | .minus => "-" | .star => "*" | .slash => "/" | .percent => "%"
  | .star2 => "**" | .plus2 => "++" | .minus2 => "--" | .shiftLeft => "<<" | .shiftRight => ">>"
  | .shiftRightUnsigned => ">>>" | .amp => "&" | .pipe => "|" | .caret => "^" | .bang => "!"
  | .tilde => "~" | .amp2 => "&&" | .pipe2 => "||" | .question2 => "??" | .assign => "="
  | .plusAssign => "+=" | .minusAssign => "-=" | .starAssign => "*=" | .slashAssign => "/="
  | .percentAssign => "%=" | .star2Assign => "**=" | .shiftLeftAssign => "<<="
  | .shiftRightAssign => ">>=" | .shiftRightUnsignedAssign => ">>>=" | .ampAssign => "&="
  | .pipeAssign => "|=" | .caretAssign => "^=" | .amp2Assign => "&&=" | .pipe2Assign => "||="
  | .question2Assign => "??="

/-- The punctuators longest spelling first, so that the first match is the longest one. -/
def Punct.all : List Punct :=
  [.shiftRightUnsignedAssign,
   .dots, .eq3, .notEq2, .star2Assign, .shiftLeftAssign, .shiftRightAssign, .shiftRightUnsigned,
   .amp2Assign, .pipe2Assign, .question2Assign,
   .questionDot, .arrow, .lessEq, .greaterEq, .eq2, .notEq, .star2, .plus2, .minus2, .shiftLeft,
   .shiftRight, .amp2, .pipe2, .question2, .plusAssign, .minusAssign, .starAssign, .slashAssign,
   .percentAssign, .ampAssign, .pipeAssign, .caretAssign,
   .leftBrace, .rightBrace, .leftParen, .rightParen, .leftBracket, .rightBracket, .dot,
   .question, .colon, .semicolon, .comma, .at, .less, .greater, .plus, .minus, .star, .slash,
   .percent, .amp, .pipe, .caret, .bang, .tilde, .assign]

def Punct.isAssignment : Punct → Bool
  | .assign | .plusAssign | .minusAssign | .starAssign | .slashAssign | .percentAssign
  | .star2Assign | .shiftLeftAssign | .shiftRightAssign | .shiftRightUnsignedAssign
  | .ampAssign | .pipeAssign | .caretAssign | .amp2Assign | .pipe2Assign | .question2Assign =>
    true
  | _ => false

/-! ## Words -/

/-- Words that are never identifiers outside `await` and `yield`. -/
def isReservedWord (word : String) : Bool :=
  word ∈ ["await", "break", "case", "catch", "class", "const", "continue", "debugger", "default",
    "delete", "do", "else", "enum", "export", "extends", "false", "finally", "for", "function",
    "if", "import", "in", "instanceof", "new", "null", "return", "super", "switch", "this",
    "throw", "true", "try", "typeof", "var", "void", "while", "with", "yield"]

/-- Words that strict code reserves, `await` and `yield` apart. -/
def isRestrictedWord (word : String) : Bool :=
  word ∈ ["implements", "interface", "let", "package", "private", "protected", "public", "static"]

/-- Words with a meaning in some place and identifiers elsewhere. -/
def isContextualWord (word : String) : Bool :=
  word ∈ ["abstract", "accessor", "any", "as", "assert", "asserts", "async", "bigint", "boolean",
    "constructor", "declare", "defer", "from", "get", "global", "infer", "intrinsic", "is",
    "keyof", "meta", "module", "namespace", "never", "number", "object", "of", "out", "override",
    "readonly", "require", "satisfies", "set", "source", "string", "symbol", "target", "type",
    "undefined", "unique", "unknown", "using"]

/-- Whether a word is known to the grammar anywhere. -/
def isKeyword (word : String) : Bool :=
  isReservedWord word || isRestrictedWord word || isContextualWord word

/-- Whether a word may be read as an identifier reference; whether `await` and `yield` are
allowed at the place is decided later. -/
def isIdentifierWord (word : String) : Bool :=
  !isReservedWord word || word == "await" || word == "yield"

/-! ## Tokens -/

/-- Which part of a template a template token is. -/
inductive TemplatePart where
  | whole | head | middle | tail
deriving DecidableEq

inductive NumberForm where
  | decimal | float | binary | octal | hex | exponential | bigint
deriving DecidableEq

inductive Token.Kind where
  /-- Stands after the last token. -/
  | eof
  /-- Stands for characters that form no token; a fault has been recorded for them. -/
  | unknown
  /-- A line that starts with a number sign and an exclamation mark at offset zero. -/
  | hashbang
  /-- A name or a keyword; `escaped` tells that its spelling has an escape. -/
  | word (text : String) (escaped : Bool)
  /-- A punctuator. -/
  | punct (p : Punct)
  /-- A number as written. -/
  | number (form : NumberForm) (raw : String)
  /-- A string literal's value and its text between the quotes; `wellFormed` excludes lone
  surrogates. -/
  | string (value : String) (wellFormed : Bool) (raw : String)
  /-- A part of a template as written; `valid` excludes malformed escapes. -/
  | template (part : TemplatePart) (raw : String) (valid : Bool)
  /-- A regular expression literal. -/
  | regex (pattern flags : String)
  /-- A private name without its number sign. -/
  | privateName (text : String)
deriving DecidableEq

structure Token where
  kind : Token.Kind
  span : Span
  /-- A line ends between the previous token and this one. -/
  afterNewline : Bool
deriving DecidableEq

/-- The name of a kind of token in a fault. -/
def Token.Kind.describe : Token.Kind → String
  | .eof => "EOF"
  | .unknown => "Unknown"
  | .hashbang => "#!"
  | .word text _ => if isKeyword text then text else "Identifier"
  | .punct .greater | .punct .greaterEq | .punct .shiftRight | .punct .shiftRightUnsigned
  | .punct .shiftRightAssign | .punct .shiftRightUnsignedAssign => ">"
  | .punct p => p.text
  | .number .decimal _ => "decimal"
  | .number .float _ => "float"
  | .number .binary _ => "binary"
  | .number .octal _ => "octal"
  | .number .hex _ => "hex"
  | .number .exponential _ => "exponential"
  | .number .bigint _ => "bigint"
  | .string _ _ _ => "string"
  | .template .whole _ _ => "$\x7b\x7d"
  | .template .head _ _ => "$\x7b"
  | .template .middle _ _ => "$\x7bexpr\x7d"
  | .template .tail _ _ => "\x7d"
  | .regex _ _ => "/regexp/"
  | .privateName _ => "#identifier"

/-- The token is the unescaped or escaped word `text`. -/
def Token.isWord (t : Token) (text : String) : Bool :=
  match t.kind with
  | .word w _ => w == text
  | _ => false

def Token.isPunct (t : Token) (p : Punct) : Bool := t.kind == .punct p

/-- The token is a word written with an escape. -/
def Token.isEscaped (t : Token) : Bool :=
  match t.kind with
  | .word _ escaped => escaped
  | _ => false

end ModuleBundler.Syntax
