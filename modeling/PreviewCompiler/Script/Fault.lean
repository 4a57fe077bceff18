import PreviewCompiler.Script.Source

namespace PreviewCompiler.Script

/-- One way in which a script is not valid; `Cause.message` is its wording. -/
inductive Cause where
  | endOfFile
  | expected (wanted found : String)
  | unexpected (found wanted : String)
  | unexpectedHint (first second : String)
  | expressionExpected
  | identifierExpected
  | semicolonMissing
  | statementEndExpected
  | lineEndExpected
  | unexpectedCharacter (c : Char)
  | unterminatedString
  | unterminatedComment
  | unterminatedTemplate
  | unterminatedRegex
  | unterminatedMarkup
  | invalidStringEscape
  | invalidUnicodeEscape
  | unicodeEscapeExpected
  | badEscape (wanted : String)
  | escapedReservedWord (word : String)
  | identifierAfterNumber
  | exponentDigitsMissing
  | digitExpected (radix : Nat)
  | separatorMisplaced
  | legacyOctal
  | legacyDecimal
  | legacyComment
  | conflictMarker
  | regexFlagTwice (flag : Char)
  | regexFlagUnknown
  | strictName
  | awaitName
  | strictBinding
  | reservedShorthand
  | reservedImport
  | argumentsInField
  | assignTarget
  | assignReference
  | notSimpleTarget
  | notPattern
  | notExpression
  | assignShorthand
  | restNotLast
  | restParameterNotLast
  | restTrailingComma
  | restInitializer
  | restOptional
  | dotsNeedIdentifier
  | patternWithoutInitializer
  | constWithoutInitializer
  | optionalInitializer
  | optionalPattern
  | trailingComma
  | importTrailingComma
  | emptyDeclarations
  | loopVariableCount
  | loopVariableInitializer
  | loopVariableTyped
  | loopPatternIn
  | emptyParens
  | spreadInParens
  | arrowNotAllowed
  | arrowLineBreak
  | nullishMixed
  | unaryBeforePower
  | deleteIdentifier
  | deleteOperand
  | awaitStar
  | awaitOutsideAsync
  | awaitInParameter
  | yieldInParameter
  | templateInChain
  | newOnChain
  | newTargetMisplaced
  | superMisplaced
  | importMisplaced
  | hashSpace
  | returnMisplaced
  | breakMisplaced
  | breakLabel
  | continueMisplaced
  | continueLabel
  | labelTwice (label : String)
  | throwLineBreak
  | awaitLoop
  | declarationMisplaced
  | catchExpected
  | defaultTwice
  | withInStrict
  | moduleItemMisplaced
  | labelledFunction
  | importNameIsString (name : String)
  | exportNameIsString
  | exportNeedsFrom (name : String)
  | constructorTwice
  | constructorAsync
  | constructorGenerator
  | constructorAccessor
  | constructorProperty
  | constructorPrivate
  | getterParameter
  | setterParameter
  | methodReadonly
  | extendsTwice
  | superclassCount
  | implementsTwice
  | extendsAfterImplements
  | modifierTwice (word : String)
  | modifierOrder (first second : String)
  | decoratorMisplaced
  | attributeEmpty
  | attributeValue
  | closingTag (name : String)
  | closingFragment
  | typeExpected
  | typeParametersEmpty
  | typeArgumentsEmpty
  | memberOptional
  | computedComma
  | modifierMisplaced
  | parameterProperty
  | ambientBody
  | ambientInitializer
  | abstractMisplaced
  | abstractBody
  | abstractOutsideClass
  | nonNullMisplaced (name : String)
  | typeModifierTwice
  | interfaceExtends
  | stringExpected
  | lineBreakMisplaced
  | asyncModifier
  | tooDeep
  | notLowered (construct : String)
  deriving DecidableEq, Repr

def Cause.message : Cause → String
  | endOfFile => "Unexpected eof"
  | expected wanted found => "Expected '" ++ wanted ++ "', got '" ++ found ++ "'"
  | unexpected found wanted => "Unexpected token `" ++ found ++ "`. Expected " ++ wanted
  | unexpectedHint first second =>
    "Unexpected token. Did you mean " ++ first ++ " or " ++ second ++ "?"
  | expressionExpected => "Expression expected"
  | identifierExpected => "Expected ident"
  | semicolonMissing => "Expected a semicolon"
  | statementEndExpected => "Expected ';', '\x7d' or <eof>"
  | lineEndExpected => "Expected ';' or line break"
  | unexpectedCharacter c => "Unexpected character '" ++ c.toString ++ "'"
  | unterminatedString => "Unterminated string constant"
  | unterminatedComment => "Unterminated block comment"
  | unterminatedTemplate => "Unterminated template"
  | unterminatedRegex => "Unterminated regexp literal"
  | unterminatedMarkup => "Unterminated JSX contents"
  | invalidStringEscape => "Invalid string escape"
  | invalidUnicodeEscape => "Invalid unicode escape"
  | unicodeEscapeExpected => "Expected unicode escape"
  | badEscape wanted => "Bad character escape sequence, expected " ++ wanted
  | escapedReservedWord word => "Unexpected escape sequence in reserved word: " ++ word
  | identifierAfterNumber => "Identifier cannot follow number"
  | exponentDigitsMissing => "Expected +, - or decimal digit after e"
  | digitExpected radix => "Expected a digit with radix " ++ toString radix
  | separatorMisplaced => "A numeric separator is only allowed between two digits"
  | legacyOctal => "Legacy octal escape is not permitted in strict mode"
  | legacyDecimal => "Legacy decimal escape is not permitted in strict mode"
  | legacyComment => "Legacy comments cannot be used in module code"
  | conflictMarker => "Merge conflict marker encountered."
  | regexFlagTwice flag => "Duplicated regular expression flag '" ++ flag.toString ++ "'."
  | regexFlagUnknown => "Unknown regular expression flags."
  | strictName => "Invalid identifier in strict mode"
  | awaitName => "`await` cannot be used as an identifier in an async context"
  | strictBinding =>
    "'eval' and 'arguments' cannot be used as a binding identifier in strict mode"
  | reservedShorthand => "Cannot use a reserved word as a shorthand property"
  | reservedImport => "cannot import as reserved word"
  | argumentsInField => "'arguments' is only allowed in functions and class methods"
  | assignTarget => "Invalid assignment target"
  | assignReference =>
    "The left-hand side of an assignment expression must be a variable or a property access."
  | notSimpleTarget => "Cannot assign to this"
  | notPattern => "Not a pattern"
  | notExpression => "Not an expression"
  | assignShorthand => "assignment property is invalid syntax"
  | restNotLast => "Rest element must be final element"
  | restParameterNotLast => "A rest parameter must be last in a parameter list"
  | restTrailingComma => "Trailing comma isn't permitted after a rest element"
  | restInitializer => "A rest parameter cannot have an initializer"
  | restOptional => "A rest parameter cannot be optional"
  | dotsNeedIdentifier => "`...` must be followed by an identifier in declaration contexts"
  | patternWithoutInitializer => "Destructuring bindings require initializers"
  | constWithoutInitializer => "'const' declarations must be initialized"
  | optionalInitializer => "Parameter cannot have question mark and initializer"
  | optionalPattern =>
    "A binding pattern parameter cannot be optional in an implementation signature."
  | trailingComma => "Trailing comma is not allowed"
  | importTrailingComma => "Trailing comma is disallowed inside import(...) arguments"
  | emptyDeclarations => "Variable declaration list cannot be empty"
  | loopVariableCount => "Expected one variable binding"
  | loopVariableInitializer => "Unexpected initializer in for in/of loop"
  | loopVariableTyped =>
    "The left-hand side of a 'for...of' statement cannot use a type annotation"
  | loopPatternIn =>
    "The left-hand side of a 'for...in' statement cannot be a destructuring pattern"
  | emptyParens => "Parenthesized expression cannot be empty"
  | spreadInParens => "Parenthesized expression cannot contain spread operator"
  | arrowNotAllowed => "An arrow function is not allowed here"
  | arrowLineBreak => "Unexpected line break between arrow head and arrow"
  | nullishMixed =>
    "Nullish coalescing operator(??) requires parens when mixing with logical operators"
  | unaryBeforePower => "** cannot be applied to unary operator"
  | deleteIdentifier => "'delete' cannot be called on an identifier in strict mode"
  | deleteOperand => "The operand of a delete operator must be a property reference."
  | awaitStar =>
    "await* has been removed from the async functions proposal. Use Promise.all() instead."
  | awaitOutsideAsync => "await isn't allowed in non-async function"
  | awaitInParameter => "`await` expressions cannot be used in a parameter initializer."
  | yieldInParameter => "'yield' cannot be used as a parameter within generator"
  | templateInChain => "Tagged template literal is not allowed in optional chain"
  | newOnChain => "Constructor in/after an optional chain is not allowed."
  | newTargetMisplaced =>
    "'new.target' is only allowed in the body of a function declaration, function expression, or class."
  | superMisplaced => "Invalid access to super"
  | importMisplaced => "Invalid import"
  | hashSpace => "Unexpected space between # and identifier"
  | returnMisplaced => "Return statement is not allowed here"
  | breakMisplaced =>
    "A 'break' statement can only be used within an enclosing iteration or switch statement"
  | breakLabel => "A 'break' statement can only jump to a label of an enclosing statement"
  | continueMisplaced =>
    "A 'continue' statement can only target a label of an enclosing iteration statement"
  | continueLabel => "Jump target cannot cross function boundary"
  | labelTwice label => "Label " ++ label ++ " is already declared"
  | throwLineBreak => "LineBreak cannot follow 'throw'"
  | awaitLoop => "for await syntax is valid only for for-of statement"
  | declarationMisplaced => "Declaration is not allowed"
  | catchExpected => "Expected a catch or finally block after try"
  | defaultTwice => "A switch block cannot have multiple defaults"
  | withInStrict => "With statement are not allowed in strict mode"
  | moduleItemMisplaced => "'import', and 'export' are not permitted here"
  | labelledFunction => "Function cannot be labelled in strict mode"
  | importNameIsString name =>
    "A string literal cannot be used as an imported binding.\n- Did you mean `import \x7b \""
      ++ name ++ "\" as foo \x7d`?"
  | exportNameIsString =>
    "A string literal cannot be used as an exported binding without `from`."
  | exportNeedsFrom name => "`" ++ name ++ "` cannot be used without `from` clause"
  | constructorTwice => "A class may only have one constructor"
  | constructorAsync => "Constructor can't be an async function"
  | constructorGenerator => "Constructor can't be a generator function"
  | constructorAccessor => "Class constructor can't be an accessor"
  | constructorProperty => "Classes may not have a non-static field named 'constructor'"
  | constructorPrivate => "Classes can't have a private field named '#constructor'"
  | getterParameter => "A `get` accessor cannot have parameters"
  | setterParameter => "A `set` accessor must have exactly one parameter"
  | methodReadonly => "A method cannot be readonly"
  | extendsTwice => "`extends` clause already seen."
  | superclassCount => "Classes can only extend a single class"
  | implementsTwice => "`implements` clause already seen"
  | extendsAfterImplements => "'extends' clause must precede 'implements' clause."
  | modifierTwice word => "'" ++ word ++ "' modifier already seen."
  | modifierOrder first second =>
    "'" ++ first ++ "' modifier must precede '" ++ second ++ "' modifier."
  | decoratorMisplaced => "Decorators are not valid here"
  | attributeEmpty => "JSX attributes must only be assigned a non-empty expression"
  | attributeValue => "JSX value should be either an expression or a quoted JSX text"
  | closingTag name => "Expected corresponding JSX closing tag for <" ++ name ++ ">"
  | closingFragment => "Expected corresponding JSX closing tag for <>"
  | typeExpected => "Type expected"
  | typeParametersEmpty => "Type parameter list cannot be empty"
  | typeArgumentsEmpty => "Type argument list cannot be empty."
  | memberOptional => "An object member cannot be declared optional"
  | computedComma => "A comma expression is not allowed in a computed property name"
  | modifierMisplaced => "Modifiers cannot appear here"
  | parameterProperty => "A parameter property is only allowed in a constructor implementation"
  | ambientBody => "An implementation cannot be declared in ambient contexts"
  | ambientInitializer =>
    "A parameter initializer is only allowed in a function or constructor implementation"
  | abstractMisplaced =>
    "The `abstract` modifier can only be used on a class or method declaration"
  | abstractBody => "Abstract method cannot have an implementation."
  | abstractOutsideClass => "Abstract methods can only appear within an abstract class."
  | nonNullMisplaced name => "Typescript non-null assertion operator is not allowed with '" ++ name ++ "'"
  | typeModifierTwice =>
    "The 'type' modifier cannot be used on a named import when 'import type' is used on its import statement."
  | interfaceExtends => "`extends` clause already seen."
  | stringExpected => "String literal expected"
  | lineBreakMisplaced => "Line break not permitted here"
  | asyncModifier => "`async` modifier cannot be used here"
  | tooDeep => "Nesting too deep"
  | notLowered construct => construct ++ " cannot be lowered"

structure Fault where
  span : Span
  cause : Cause
  deriving DecidableEq, Repr

end PreviewCompiler.Script
