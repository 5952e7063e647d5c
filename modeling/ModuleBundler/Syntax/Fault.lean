import ModuleBundler.Syntax.Span

/-!
# Faults of a program text

A `Fault` is a reason to refuse a program (`Cause`) together with the character offset it points
at.  `Cause.message` is the only place that words a reason.

The causes come in three groups, in the order in which a program is examined: the characters of
a token, the grammar, and the early errors that need scopes or enclosing nodes.
-/

namespace ModuleBundler.Syntax

/-- Why a program is refused. -/
inductive Cause where
  -- characters of a token
  | invalidCharacter (c : Char)
  | invalidNumberEnd
  | unexpectedEnd
  | unterminatedString
  | unterminatedComment
  | unterminatedRegex
  | invalidUnicodeEscape
  | invalidEscape
  | regexFlagUnknown (flag : Char)
  | regexFlagTwice (flag : Char)
  -- grammar
  | unexpectedToken
  | expectedToken (wanted found : String)
  | semicolonMissing
  | escapedKeyword
  | emptyParentheses
  | trailingComma (place : String)
  | invalidTarget
  | coverInitializer
  | spreadNotLast
  | commaAfterRest
  | commaAfterRestBinding
  | restParameterNotLast
  | restBindingNotLast
  | invalidRestBinding
  | missingConstInitializer
  | missingPatternInitializer
  | lexicalInSingleStatement
  | classInSingleStatement
  | asyncFunctionInSingleStatement
  | generatorInSingleStatement
  | functionNameMissing
  | functionBodyMissing
  | returnOutsideFunction
  | newlineAfterThrow
  | catchOrFinallyMissing
  | newlineBeforeArrow
  | awaitOutsideAsync
  | yieldOutsideGenerator
  | awaitAsIdentifier
  | yieldAsIdentifier
  | forAwaitWithoutOf
  | asyncAsLoopTarget
  | mixedCoalesce
  | unparenthesizedPower
  | taggedOptionalChain
  | newOptionalChain
  | newImportCall
  | newMetaProperty
  | importMetaProperty
  | importCallEmpty
  | importCallArguments
  | bareSuper
  | regexFlagsConflict
  | templateEscape
  | getterParameters
  | setterParameters
  | setterRestParameter
  | modifierMisplaced (modifier : String)
  | constructorAccessor
  | constructorAsync
  | constructorGenerator
  | constructorField
  | staticPrototype
  | privateConstructor
  | exportOfString
  | exportOfReservedWord
  | exportLoneSurrogate
  | identifierExpected
  | identifierReserved (word : String)
  | duplicateExport (name : String)
  | duplicateDefaultExport
  | flowPragma
  -- early errors
  | redeclared (name : String)
  | undefinedExport (name : String)
  | reservedWord (word : String)
  | strictAssignment (name : String)
  | argumentsForbidden (place : String)
  | legacyOctal
  | leadingZeroDecimal
  | illegalBreak
  | illegalContinue
  | undefinedLabel
  | labelAcrossFunction
  | continueToNonLoop
  | labelRedeclared (name : String)
  | functionInStatementPosition
  | loopHeadDeclarations (loop : String)
  | loopHeadInitializer (loop : String)
  | withStatement
  | deleteOfName
  | deleteOfPrivate
  | moduleItemNested (item : String)
  | classNameMissing
  | duplicateConstructor
  | privateUndeclared (name : String)
  | privateOutsideClass (name : String)
  | superCallInBaseClass
  | superCallMisplaced
  | superMisplaced
  | newTargetMisplaced
  | useStrictWithParameters
  | inParameters (word : String)
deriving DecidableEq

def Cause.message : Cause → String
  | .invalidCharacter c => s!"Invalid Character `{c}`"
  | .invalidNumberEnd => "Invalid characters after number"
  | .unexpectedEnd => "Unexpected end of file"
  | .unterminatedString => "Unterminated string"
  | .unterminatedComment => "Unterminated multiline comment"
  | .unterminatedRegex => "Unterminated regular expression"
  | .invalidUnicodeEscape => "Invalid Unicode escape sequence"
  | .invalidEscape => "Invalid escape sequence"
  | .regexFlagUnknown flag => s!"Unexpected flag {flag} in regular expression literal"
  | .regexFlagTwice flag => s!"Flag {flag} is mentioned twice in regular expression literal"
  | .unexpectedToken => "Unexpected token"
  | .expectedToken wanted found => s!"Expected `{wanted}` but found `{found}`"
  | .semicolonMissing =>
    "Expected a semicolon or an implicit semicolon after a statement, but found none"
  | .escapedKeyword => "Keywords cannot contain escape characters"
  | .emptyParentheses => "Empty parenthesized expression"
  | .trailingComma place => s!"{place} may not have a trailing comma."
  | .invalidTarget => "Cannot assign to this expression"
  | .coverInitializer => "Invalid assignment in object literal"
  | .spreadNotLast => "Spread must be last element"
  | .commaAfterRest => "Unexpected trailing comma after rest element"
  | .commaAfterRestBinding =>
    "A rest parameter or binding pattern may not have a trailing comma."
  | .restParameterNotLast => "A rest parameter must be last in a parameter list"
  | .restBindingNotLast => "A rest element must be last in a destructuring pattern"
  | .invalidRestBinding => "Invalid rest element"
  | .missingConstInitializer => "Missing initializer in const declaration"
  | .missingPatternInitializer => "Missing initializer in destructuring declaration"
  | .lexicalInSingleStatement =>
    "Lexical declaration cannot appear in a single-statement context"
  | .classInSingleStatement => "Invalid class declaration"
  | .asyncFunctionInSingleStatement =>
    "Async functions can only be declared at the top level or inside a block"
  | .generatorInSingleStatement =>
    "Generators can only be declared at the top level or inside a block"
  | .functionNameMissing => "Expected function name"
  | .functionBodyMissing => "Expected function body"
  | .returnOutsideFunction => "A 'return' statement can only be used within a function body."
  | .newlineAfterThrow => "Illegal newline after throw"
  | .catchOrFinallyMissing => "Missing catch or finally clause"
  | .newlineBeforeArrow => "Line terminator not permitted before arrow"
  | .awaitOutsideAsync =>
    "`await` is only allowed within async functions and at the top levels of modules"
  | .yieldOutsideGenerator => "A 'yield' expression is only allowed in a generator body."
  | .awaitAsIdentifier => "Cannot use `await` as an identifier in an async context"
  | .yieldAsIdentifier => "Cannot use `yield` as an identifier in a generator context"
  | .forAwaitWithoutOf => "await can only be used in conjunction with `for...of` statements"
  | .asyncAsLoopTarget => "The left-hand side of a `for...of` statement may not be `async`"
  | .mixedCoalesce => "Logical expressions and coalesce expressions cannot be mixed"
  | .unparenthesizedPower => "Unexpected exponentiation expression"
  | .taggedOptionalChain => "Tagged template expressions are not permitted in an optional chain"
  | .newOptionalChain => "Invalid optional chain from new expression."
  | .newImportCall => "Cannot use new with dynamic import"
  | .newMetaProperty => "The only valid meta property for new is new.target"
  | .importMetaProperty => "The only valid meta property for import is import.meta"
  | .importCallEmpty => "import() requires a specifier."
  | .importCallArguments =>
    "Dynamic imports can only accept a module specifier and an optional set of attributes as arguments"
  | .bareSuper => "'super' can only be used with function calls or in property accesses"
  | .regexFlagsConflict =>
    "The 'u' and 'v' regular expression flags cannot be enabled at the same time"
  | .templateEscape => "Bad escape sequence in untagged template literal"
  | .getterParameters => "A 'get' accessor must not have any formal parameters."
  | .setterParameters => "A 'set' accessor must have exactly one parameter."
  | .setterRestParameter => "A 'set' accessor cannot have rest parameter."
  | .modifierMisplaced modifier => s!"'{modifier}' modifier cannot be used here."
  | .constructorAccessor => "Constructor can't have get/set modifier"
  | .constructorAsync => "Constructor can't be an async method"
  | .constructorGenerator => "Constructor can't be a generator"
  | .constructorField => "Classes can't have a field named 'constructor'"
  | .staticPrototype => "Classes may not have a static property named prototype"
  | .privateConstructor => "Classes can't have an element named '#constructor'"
  | .exportOfString =>
    "A string literal cannot be used as an exported binding without `from`"
  | .exportOfReservedWord =>
    "A reserved word cannot be used as an exported binding without `from`"
  | .exportLoneSurrogate => "An export name cannot include a unicode lone surrogate"
  | .identifierExpected => "Identifier expected."
  | .identifierReserved word =>
    s!"Identifier expected. '{word}' is a reserved word that cannot be used here."
  | .duplicateExport name => s!"Duplicated export '{name}'"
  | .duplicateDefaultExport => "Duplicated default export"
  | .flowPragma => "Flow is not supported"
  | .redeclared name => s!"Identifier `{name}` has already been declared"
  | .undefinedExport name => s!"Export '{name}' is not defined"
  | .reservedWord word => s!"The keyword '{word}' is reserved"
  | .strictAssignment name => s!"Cannot assign to '{name}' in strict mode"
  | .argumentsForbidden place => s!"'arguments' is not allowed in {place}"
  | .legacyOctal => "'0'-prefixed octal literals and octal escape sequences are deprecated"
  | .leadingZeroDecimal => "Decimals with leading zeros are not allowed in strict mode"
  | .illegalBreak => "Illegal break statement"
  | .illegalContinue => "Illegal continue statement: no surrounding iteration statement"
  | .undefinedLabel => "Use of undefined label"
  | .labelAcrossFunction => "Jump target cannot cross function boundary."
  | .continueToNonLoop =>
    "A `continue` statement can only jump to a label of an enclosing `for`, `while` or `do while` statement."
  | .labelRedeclared name => s!"Label `{name}` has already been declared"
  | .functionInStatementPosition => "Invalid function declaration"
  | .loopHeadDeclarations loop =>
    s!"Only a single declaration is allowed in a `for...{loop}` statement"
  | .loopHeadInitializer loop =>
    s!"for-{loop} loop variable declaration may not have an initializer"
  | .withStatement => "'with' statements are not allowed"
  | .deleteOfName => "Delete of an unqualified identifier in strict mode."
  | .deleteOfPrivate => "Private fields can not be deleted"
  | .moduleItemNested item =>
    s!"'{item}' declaration can only be used at the top level of a module"
  | .classNameMissing => "A class name is required."
  | .duplicateConstructor => "Multiple constructor implementations are not allowed."
  | .privateUndeclared name => s!"Private field '{name}' must be declared in an enclosing class"
  | .privateOutsideClass name =>
    s!"Private identifier '#{name}' is not allowed outside class bodies"
  | .superCallInBaseClass => "'super' can only be referenced in a derived class."
  | .superCallMisplaced =>
    "Super calls are not permitted outside constructors or in nested functions inside constructors."
  | .superMisplaced =>
    "'super' can only be referenced in members of derived classes or object literal expressions."
  | .newTargetMisplaced => "Unexpected new.target expression"
  | .useStrictWithParameters =>
    "Illegal 'use strict' directive in function with non-simple parameter list"
  | .inParameters word => s!"{word} expression not allowed in formal parameter"

/-- A cause and the character offset it points at. -/
structure Fault where
  cause : Cause
  offset : Nat
deriving DecidableEq

end ModuleBundler.Syntax
