/-!
# Diagnostics

Everything that can be wrong with the text of a module, by cause. `Diagnostic.message` is the only
place that holds the wording.

* `LexicalError` — the text has no tokens at a place.
* `GrammarError` — the tokens form no module.
* `EarlyError` — the module breaks a rule that the grammar does not express.
* `Diagnostic` — any of them.
-/

namespace Awaitless.Script

/-- The text has no tokens at a place. -/
inductive LexicalError where
  | unexpectedCharacter (c : Char)
  | unexpectedEnd
  | unterminatedString
  | unterminatedComment
  | unterminatedRegex
  | invalidEscape
  | invalidUnicodeEscape
  | invalidNumberEnd
  | unknownRegexFlag (flag : Char)
  | repeatedRegexFlag (flag : Char)
deriving Repr, DecidableEq, Inhabited

def LexicalError.message : LexicalError → String
  | .unexpectedCharacter c => "Invalid Character `" ++ c.toString ++ "`"
  | .unexpectedEnd => "Unexpected end of file"
  | .unterminatedString => "Unterminated string"
  | .unterminatedComment => "Unterminated multiline comment"
  | .unterminatedRegex => "Unterminated regular expression"
  | .invalidEscape => "Invalid escape sequence"
  | .invalidUnicodeEscape => "Invalid Unicode escape sequence"
  | .invalidNumberEnd => "Invalid characters after number"
  | .unknownRegexFlag f => "Unexpected flag " ++ f.toString ++ " in regular expression literal"
  | .repeatedRegexFlag f =>
    "Flag " ++ f.toString ++ " is mentioned twice in regular expression literal"

/-- The tokens form no module. -/
inductive GrammarError where
  | unexpectedToken
  /-- A merge has left both sides of a change in the text. -/
  | mergeMark
  /-- The text is in a typed dialect which is not read. -/
  | typedDialect
  | expected (wanted found : String)
  | expectedOneOf (separator closing found : String)
  | missingSemicolon
  | escapedKeyword
  | expectedIdentifier
  | reservedIdentifier (word : String)
  | asyncIdentifier (word : String)
  | generatorIdentifier (word : String)
  -- declarations
  | missingConstInitializer
  | missingPatternInitializer
  | missingUsingInitializer
  | usingPattern
  | exportedUsing
  | usingInCase
  | usingInForIn
  | awaitUsingInForIn
  | lexicalInSingleStatement
  | classInSingleStatement
  | asyncInSingleStatement
  | generatorInSingleStatement
  -- functions and classes
  | missingFunctionName
  | missingFunctionBody
  | restParameterNotLast
  | restElementNotLast
  | restPattern
  | restInitializer
  | trailingCommaAfterRest
  | getterParameters
  | setterParameters
  | setterRest
  | severalSuperclasses
  | repeatedExtends
  | extendsAfterImplements
  | repeatedImplements
  | privateConstructor
  | constructorAccessor
  | constructorGenerator
  | constructorAsync
  | constructorField
  | staticPrototype
  | optionalAccessor
  | abstractMethodBody (name : String)
  | abstractAccessorBody (name : String)
  | abstractInitializer (name : String)
  -- modifiers and decorators
  | misplacedModifier (word : String)
  | modifiersHere
  | repeatedModifier (word : String)
  | repeatedAccess
  | constantMember
  | fieldModifier (word : String)
  | accessorModifier (word : String)
  | parameterModifier
  | misplacedDecorators
  | decoratorsAfterExport
  | decoratorParentheses
  -- statements
  | missingSwitchClause
  | missingHandler
  | newlineAfterThrow
  | returnOutsideFunction
  | awaitWithoutOf
  | asyncBeforeOf
  | letBeforeOf
  -- expressions
  | yieldOutsideGenerator
  | awaitOutsideAsync
  | newlineBeforeArrow
  | emptyParentheses
  | trailingCommaInParentheses
  | invalidTarget
  | spreadNotLast
  | restTarget
  | defaultOperator
  | shorthandInitializer
  | mixedCoalesce
  | unaryBeforePower
  | newDynamicImport
  | newOptionalChain
  | newMetaProperty
  | importMetaProperty
  | importWithoutSource
  | importArguments
  | taggedOptionalChain
  | missingOptionalName
  | lonelySuper
  | privateOperand
  | badTemplateEscape
  | markup
  | elementEnd (name : String)
  | groupEnd
  | emptyAttribute
  | typeAssertion
  | typeSatisfaction
  -- modules
  | unexpectedExport
  | importAlias
  | repeatedAttribute (name : String)
  | attributeValue
  | deferredDefault
  | deferredNames
  | sourcePhaseClause
  | exportedString
  | exportedReservedWord
  | loneSurrogateInName
  | repeatedExport (name : String)
  | severalDefaultExports
deriving Repr, DecidableEq, Inhabited

def GrammarError.message : GrammarError → String
  | .unexpectedToken => "Unexpected token"
  | .mergeMark => "Encountered diff marker"
  | .typedDialect => "Flow is not supported"
  | .expected wanted found => "Expected `" ++ wanted ++ "` but found `" ++ found ++ "`"
  | .expectedOneOf separator closing found =>
    "Expected `" ++ separator ++ "` or `" ++ closing ++ "` but found `" ++ found ++ "`"
  | .missingSemicolon =>
    "Expected a semicolon or an implicit semicolon after a statement, but found none"
  | .escapedKeyword => "Keywords cannot contain escape characters"
  | .expectedIdentifier => "Identifier expected."
  | .reservedIdentifier word =>
    "Identifier expected. '" ++ word ++ "' is a reserved word that cannot be used here."
  | .asyncIdentifier word => "Cannot use `" ++ word ++ "` as an identifier in an async context"
  | .generatorIdentifier word =>
    "Cannot use `" ++ word ++ "` as an identifier in a generator context"
  | .missingConstInitializer => "Missing initializer in const declaration"
  | .missingPatternInitializer => "Missing initializer in destructuring declaration"
  | .missingUsingInitializer => "Using declarations must have an initializer."
  | .usingPattern => "Using declarations may not have binding patterns."
  | .exportedUsing => "Using declarations cannot be exported directly."
  | .usingInCase => "Using declaration cannot appear in the bare case statement."
  | .usingInForIn =>
    "The left-hand side of a for...in statement cannot be a using declaration."
  | .awaitUsingInForIn =>
    "The left-hand side of a for...in statement cannot be an await using declaration."
  | .lexicalInSingleStatement =>
    "Lexical declaration cannot appear in a single-statement context"
  | .classInSingleStatement => "Invalid class declaration"
  | .asyncInSingleStatement =>
    "Async functions can only be declared at the top level or inside a block"
  | .generatorInSingleStatement =>
    "Generators can only be declared at the top level or inside a block"
  | .missingFunctionName => "Expected function name"
  | .missingFunctionBody => "Expected function body"
  | .restParameterNotLast => "A rest parameter must be last in a parameter list"
  | .restElementNotLast => "A rest element must be last in a destructuring pattern"
  | .restPattern => "Invalid rest element"
  | .restInitializer => "A rest element cannot have an initializer."
  | .trailingCommaAfterRest =>
    "A rest parameter or binding pattern may not have a trailing comma."
  | .getterParameters => "A 'get' accessor must not have any formal parameters."
  | .setterParameters => "A 'set' accessor must have exactly one parameter."
  | .setterRest => "A 'set' accessor cannot have rest parameter."
  | .severalSuperclasses => "Classes can only extend a single class."
  | .repeatedExtends => "'extends' clause already seen"
  | .extendsAfterImplements => "'extends' clause must precede 'implements' clause"
  | .repeatedImplements => "'implements' clause already seen"
  | .privateConstructor => "Classes can't have an element named '#constructor'"
  | .constructorAccessor => "Constructor can't have get/set modifier"
  | .constructorGenerator => "Constructor can't be a generator"
  | .constructorAsync => "Constructor can't be an async method"
  | .constructorField => "Classes can't have a field named 'constructor'"
  | .staticPrototype => "Classes may not have a static property named 'prototype'"
  | .optionalAccessor => "An accessor property cannot be declared optional."
  | .abstractMethodBody name =>
    "Method '" ++ name ++ "' cannot have an implementation because it is marked abstract."
  | .abstractAccessorBody name =>
    "Accessor '" ++ name ++ "' cannot have an implementation because it is marked abstract."
  | .abstractInitializer name =>
    "Property '" ++ name ++ "' cannot have an initializer because it is marked abstract."
  | .misplacedModifier word => "'" ++ word ++ "' modifier cannot be used here."
  | .modifiersHere => "Modifiers cannot appear here."
  | .repeatedModifier word => "'" ++ word ++ "' modifier already seen."
  | .repeatedAccess => "Accessibility modifier already seen."
  | .constantMember => "A class member cannot have the 'const' keyword."
  | .fieldModifier word =>
    "'" ++ word ++ "' modifier can only appear on a property declaration or index signature."
  | .accessorModifier word =>
    "'accessor' modifier cannot be used with '" ++ word ++ "' modifier."
  | .parameterModifier => "Parameter modifiers can only be used in TypeScript files."
  | .misplacedDecorators => "Decorators are not valid here."
  | .decoratorsAfterExport =>
    "Decorators may not appear after 'export' or 'export default' if they also appear before " ++
      "'export'."
  | .decoratorParentheses =>
    "Expression must be enclosed in parentheses to be used as a decorator."
  | .missingSwitchClause => "Expected switch clause"
  | .missingHandler => "Missing catch or finally clause"
  | .newlineAfterThrow => "Illegal newline after throw"
  | .returnOutsideFunction =>
    "A 'return' statement can only be used within a function body."
  | .awaitWithoutOf => "await can only be used in conjunction with `for...of` statements"
  | .asyncBeforeOf => "The left-hand side of a `for...of` statement may not be `async`"
  | .letBeforeOf =>
    "The left-hand side of a `for...of` statement may not start with `let`"
  | .yieldOutsideGenerator =>
    "A 'yield' expression is only allowed in a generator body."
  | .awaitOutsideAsync =>
    "`await` is only allowed within async functions and at the top levels of modules"
  | .newlineBeforeArrow => "Line terminator not permitted before arrow"
  | .emptyParentheses => "Empty parenthesized expression"
  | .trailingCommaInParentheses =>
    "Parenthesized expressions may not have a trailing comma."
  | .invalidTarget => "Cannot assign to this expression"
  | .spreadNotLast => "Spread must be last element"
  | .restTarget => "Invalid rest operator's argument."
  | .defaultOperator =>
    "Only '=' operator can be used for specifying default value."
  | .shorthandInitializer => "Invalid assignment in object literal"
  | .mixedCoalesce => "Logical expressions and coalesce expressions cannot be mixed"
  | .unaryBeforePower => "Unexpected exponentiation expression"
  | .newDynamicImport => "Cannot use new with dynamic import"
  | .newOptionalChain => "Invalid optional chain from new expression."
  | .newMetaProperty => "The only valid meta property for new is new.target"
  | .importMetaProperty => "The only valid meta property for import is import.meta"
  | .importWithoutSource => "import() requires a specifier."
  | .importArguments =>
    "Dynamic imports can only accept a module specifier and an optional set of attributes as " ++
      "arguments"
  | .taggedOptionalChain =>
    "Tagged template expressions are not permitted in an optional chain"
  | .missingOptionalName => "Identifier expected after '?.'"
  | .lonelySuper =>
    "'super' can only be used with function calls or in property accesses"
  | .privateOperand => "Unexpected private identifier"
  | .badTemplateEscape => "Bad escape sequence in untagged template literal"
  | .markup => "Unexpected JSX expression"
  | .elementEnd name => "Expected corresponding JSX closing tag for '" ++ name ++ "'."
  | .groupEnd => "Expected corresponding closing tag for JSX fragment."
  | .emptyAttribute =>
    "JSX attributes must only be assigned a non-empty 'expression'."
  | .typeAssertion =>
    "Type assertion expressions can only be used in TypeScript files."
  | .typeSatisfaction =>
    "Type satisfaction expressions can only be used in TypeScript files."
  | .unexpectedExport => "Unexpected export."
  | .importAlias => "'import ... =' can only be used in TypeScript files."
  | .repeatedAttribute name => "Identifier `" ++ name ++ "` has already been declared"
  | .attributeValue =>
    "Only string literals are allowed as module attribute values."
  | .deferredDefault => "Default imports are not allowed in a deferred import."
  | .deferredNames => "Named imports are not allowed in a deferred import."
  | .sourcePhaseClause =>
    "Only a single default import is allowed in a source phase import."
  | .exportedString =>
    "A string literal cannot be used as an exported binding without `from`"
  | .exportedReservedWord =>
    "A reserved word cannot be used as an exported binding without `from`"
  | .loneSurrogateInName => "An export name cannot include a unicode lone surrogate"
  | .repeatedExport name => "Duplicated export '" ++ name ++ "'"
  | .severalDefaultExports => "A module cannot have multiple default exports."

/-- The module breaks a rule that the grammar does not express. -/
inductive EarlyError where
  | redeclared (name : String)
  | undefinedExport (name : String)
  | reservedWord (word : String)
  | assignedRestricted (name : String)
  | withStatement
  | deletedIdentifier
  | deletedPrivateName
  | octalLiteral
  | leadingZero
  | decimalEscape
  | strayBreak
  | strayContinue
  | undefinedLabel
  | labelAcrossFunction
  | labelOfNoLoop
  | repeatedLabel (label : String)
  | strayNewTarget
  | superOutsideMember
  | superCallWithoutHeritage
  | straySuperCall
  | awaitInStaticBlock
  | awaitInParameters
  | yieldInParameters
  | nestedImport
  | nestedExport
  | severalConstructors
  | undeclaredPrivateName (name : String)
  | strayPrivateName (name : String)
  | severalInHead (loop : String)
  | initializerInHead (loop : String)
  | missingClassName
  | reservedClassName (name : String)
  | functionInSingleStatement
  | strictDirective
  | argumentsInField
  | argumentsInStaticBlock
  | computedPattern
  | privateOfSuper
  | exclusiveRegexFlags
  | abstractField
deriving Repr, DecidableEq, Inhabited

def EarlyError.message : EarlyError → String
  | .redeclared name => "Identifier `" ++ name ++ "` has already been declared"
  | .undefinedExport name => "Export '" ++ name ++ "' is not defined"
  | .reservedWord word => "The keyword '" ++ word ++ "' is reserved"
  | .assignedRestricted name => "Cannot assign to '" ++ name ++ "' in strict mode"
  | .withStatement => "'with' statements are not allowed"
  | .deletedIdentifier => "Delete of an unqualified identifier in strict mode."
  | .deletedPrivateName =>
    "The operand of a 'delete' operator cannot be a private identifier."
  | .octalLiteral =>
    "'0'-prefixed octal literals and octal escape sequences are deprecated"
  | .leadingZero => "Decimals with leading zeros are not allowed in strict mode"
  | .decimalEscape => "Invalid escape sequence"
  | .strayBreak => "Illegal break statement"
  | .strayContinue => "Illegal continue statement: no surrounding iteration statement"
  | .undefinedLabel => "Use of undefined label"
  | .labelAcrossFunction => "Jump target cannot cross function boundary."
  | .labelOfNoLoop =>
    "A `continue` statement can only jump to a label of an enclosing `for`, `while` or " ++
      "`do while` statement."
  | .repeatedLabel label => "Label `" ++ label ++ "` has already been declared"
  | .strayNewTarget => "Unexpected new.target expression"
  | .superOutsideMember =>
    "'super' can only be referenced in members of derived classes or object literal expressions."
  | .superCallWithoutHeritage => "'super' can only be referenced in a derived class."
  | .straySuperCall =>
    "Super calls are not permitted outside constructors or in nested functions inside " ++
      "constructors."
  | .awaitInStaticBlock => "Cannot use await in class static initialization block"
  | .awaitInParameters => "await expression not allowed in formal parameter"
  | .yieldInParameters => "yield expression not allowed in formal parameter"
  | .nestedImport =>
    "'import statement' declaration can only be used at the top level of a module"
  | .nestedExport =>
    "'export statement' declaration can only be used at the top level of a module"
  | .severalConstructors => "Multiple constructor implementations are not allowed."
  | .undeclaredPrivateName name =>
    "Private field '" ++ name ++ "' must be declared in an enclosing class"
  | .strayPrivateName name =>
    "Private identifier '" ++ name ++ "' is not allowed outside class bodies"
  | .severalInHead loop =>
    "Only a single declaration is allowed in a `" ++ loop ++ "` statement"
  | .initializerInHead loop =>
    loop ++ " loop variable declaration may not have an initializer"
  | .missingClassName => "A class name is required."
  | .reservedClassName name => "Class name cannot be '" ++ name ++ "'"
  | .functionInSingleStatement => "Invalid function declaration"
  | .strictDirective =>
    "Illegal 'use strict' directive in function with non-simple parameter list"
  | .argumentsInField => "'arguments' is not allowed in class field initializer"
  | .argumentsInStaticBlock => "'arguments' is not allowed in static initialization block"
  | .computedPattern => "Invalid left-hand side in assignment"
  | .privateOfSuper => "Private fields cannot be accessed on super"
  | .exclusiveRegexFlags =>
    "The 'u' and 'v' regular expression flags cannot be enabled at the same time"
  | .abstractField => "Abstract properties can only appear within an abstract class."

/-- Anything that can be wrong with the text of a module. -/
inductive Diagnostic where
  | lexical (error : LexicalError)
  | grammar (error : GrammarError)
  | early (error : EarlyError)
deriving Repr, DecidableEq, Inhabited

def Diagnostic.message : Diagnostic → String
  | .lexical e => e.message
  | .grammar e => e.message
  | .early e => e.message

end Awaitless.Script
