/-!
# Syntax faults

What can be wrong with the text of a script, and how each fault is worded. A fault names its cause
and the byte offset it points at.

## Main definitions

* `Cause` — the causes of a fault
* `Cause.message` — the wording of a cause
* `Fault` — a cause and the place it was found at
-/

namespace ScriptLint.Syntax

/-- Why a text is no script. -/
inductive Cause where
  -- tokens that are missing or in the wrong place
  | expressionExpected
  | unexpectedEnd
  | expected (want got : String)
  | unexpected (got want : String)
  | statementEndExpected
  | semicolonExpected
  | nameExpected
  | namelessDeclaration
  -- the text of tokens
  | unterminatedString
  | unterminatedTemplate
  | unterminatedRegex
  | unterminatedComment
  | unexpectedCharacter (c : Char)
  | escapeExpected
  | invalidNameCharacter
  | badEscape (want : String)
  | escapedKeyword (word : String)
  | nameAfterNumber
  | digitExpected (radix : Nat)
  | exponentExpected
  | misplacedSeparator
  | legacyOctal
  | legacyDecimal
  | duplicateFlag (flag : Char)
  | unknownFlags
  | legacyComment
  | conflictMarker
  | spaceAfterHash
  -- names
  | strictName (word : String)
  | awaitName
  | evalBinding
  | argumentsOutsideFunction
  -- declarations
  | constWithoutValue
  | patternWithoutValue
  | loopInitializer
  | severalBindings
  | usingDisabled
  | usingNotAllowed
  | usingPattern
  | usingWithoutValue
  | usingInLoop
  | declarationNotAllowed
  | labelledFunction
  -- statements
  | returnOutside
  | breakOutside
  | breakLabel
  | continueTarget
  | continueLabel
  | duplicateLabel (label : String)
  | throwLineBreak
  | severalDefaults
  | withStatement
  | withUnsupported
  | forAwaitNotOf
  | asyncLoopTarget
  | typedLoopTarget
  | nestedModuleItem
  -- imports and exports
  | stringImportBinding (name : String)
  | stringExportBinding
  | reservedImport
  | decoratorsTwice
  | typeOnImport
  | typeOnExport
  | exportAfterDecorator
  -- expressions
  | invalidTarget
  | deleteName
  | deleteOperand
  | notAssignable
  | strictTarget
  | powerOperand
  | mixedCoalesce
  | newOptional
  | newTargetOutside
  | superOutside
  | superCallOutside
  | invalidImport
  | awaitStar
  | assignedProperty
  | invalidPattern
  | reservedShorthand
  | restTarget
  | emptyParens
  | spreadInParens
  | arrowLineBreak
  | arrowNotAllowed
  | taggedOptional
  | awaitOutsideAsync
  | awaitInParameter
  | yieldInParameter
  -- functions and parameters
  | getterParameters
  | setterParameter
  | setterRest
  | restParameterNotLast
  | restElementNotLast
  | commaAfterRest
  | restOptional
  | restInitializer
  | optionalInitializer
  | illegalUseStrict
  | ambientBody
  | signatureInitializer
  | optionalPattern
  | optionalMember
  | nestedDeclare
  -- classes
  | duplicateConstructor
  | accessorConstructor
  | generatorConstructor
  | asyncConstructor
  | privateConstructor
  | fieldConstructor
  | staticPrototype
  | extendsTwice
  | extendsAfterImplements
  | implementsTwice
  | abstractBody
  | abstractOutside
  | readonlyMethod
  | readonlyAccessor
  | constructorModifier (modifier : String)
  | abstractPlace
  | abstractValue
  | blockModifier
  | accessModifierOnAccessor
  | baseList
  | accessOnPrivate
  | declareMember
  | overrideWithoutBase
  | duplicateModifier (modifier : String)
  | modifierOrder (first second : String)
  | parameterPropertyOutside
  | parameterPropertyPattern
  | constructorTypeParameters
  | constructorReturnType
  -- types
  | numericEnumName
  | reservedTypeName
  | emptyLoopDeclaration
  | loopTargetPattern
  | computedEnumName
  | varianceModifier (modifier : String)
  | typeParameterModifier (modifier : String)
  | importTypeArgument
  | emptyTypeList
  -- elements
  | closingTag (name : String)
  | emptyAttribute
  | elementValue
  | strayInElement (candidates : String)
  deriving DecidableEq, Repr

/-- How many hexadecimal digits an escape wants. -/
def Cause.radixText : Nat → String
  | 2 => "a binary"
  | 8 => "an octal"
  | 16 => "a hexadecimal"
  | _ => "a decimal"

/-- The text of a character in single quotes, with the signs that would not be seen escaped. -/
def quoteChar (c : Char) : String :=
  let body : String :=
    if c == '\'' then "\\'"
    else if c == '\\' then "\\\\"
    else if c == '\n' then "\\n"
    else if c == '\r' then "\\r"
    else if c == '\t' then "\\t"
    else if c.toNat == 0 then "\\0"
    else if c.toNat < 0x20 || (0x7f ≤ c.toNat && c.toNat < 0xa0) then
      "\\u\x7b" ++ String.ofList (Nat.toDigits 16 c.toNat) ++ "\x7d"
    else String.singleton c
  "'" ++ body ++ "'"

/-- The wording of a cause. -/
def Cause.message : Cause → String
  | expressionExpected => "Expression expected"
  | unexpectedEnd => "Unexpected eof"
  | expected want got => s!"Expected '{want}', got '{got}'"
  | unexpected got want => s!"Unexpected token `{got}`. Expected {want}"
  | statementEndExpected => "Expected ';', '\x7d' or <eof>"
  | semicolonExpected => "Expected a semicolon"
  | nameExpected => "Expected ident"
  | namelessDeclaration => "Trailing comma is not allowed"
  | unterminatedString => "Unterminated string constant"
  | unterminatedTemplate => "Unterminated template"
  | unterminatedRegex => "Unterminated regexp literal"
  | unterminatedComment => "Unterminated block comment"
  | unexpectedCharacter c => "Unexpected character " ++ quoteChar c
  | escapeExpected => "Expected unicode escape"
  | invalidNameCharacter => "Invalid character in identifier"
  | badEscape want => s!"Bad character escape sequence, expected {want}"
  | escapedKeyword word => s!"Unexpected escape sequence in reserved word: {word}"
  | nameAfterNumber => "Identifier cannot follow number"
  | digitExpected radix => "Expected " ++ radixText radix ++ " digit"
  | exponentExpected => "Expected +, - or decimal digit after e"
  | misplacedSeparator => "A numeric separator is only allowed between two digits"
  | legacyOctal => "Legacy octal escape is not permitted in strict mode"
  | legacyDecimal => "Legacy decimal escape is not permitted in strict mode"
  | duplicateFlag flag => s!"Duplicated regular expression flag '{flag}'."
  | unknownFlags => "Unknown regular expression flags."
  | legacyComment => "Legacy comments cannot be used in module code"
  | conflictMarker => "Merge conflict marker encountered."
  | spaceAfterHash => "Unexpected space between # and identifier"
  | strictName word => s!"`{word}` cannot be used as an identifier in strict mode"
  | awaitName => "`await` cannot be used as an identifier in an async context"
  | evalBinding => "'eval' and 'arguments' cannot be used as a binding identifier in strict mode"
  | argumentsOutsideFunction => "'arguments' is only allowed in functions and class methods"
  | constWithoutValue => "'const' declarations must be initialized"
  | patternWithoutValue => "Destructuring bindings require initializers"
  | loopInitializer => "Unexpected initializer in for in/of loop"
  | severalBindings => "Expected one variable binding"
  | usingNotAllowed => "Using declaration is not allowed here"
  | usingPattern => "Using declaration only allows identifiers as a binding name"
  | usingWithoutValue => "Using declaration requires initializer"
  | usingInLoop => "Using declaration is not allowed in for-in loop"
  | usingDisabled =>
    "Using declaration is not enabled. Set jsc.parser.explicitResourceManagement to true"
  | declarationNotAllowed => "Declaration is not allowed"
  | labelledFunction => "Function cannot be labelled in strict mode"
  | returnOutside => "Return statement is not allowed here"
  | breakOutside =>
    "A 'break' statement can only be used within an enclosing iteration or switch statement"
  | breakLabel => "A 'break' statement can only jump to a label of an enclosing statement"
  | continueTarget =>
    "A 'continue' statement can only jump to a label of an enclosing iteration statement"
  | continueLabel => "Jump target cannot cross function boundary"
  | duplicateLabel label => s!"Label {label} is already declared"
  | throwLineBreak => "LineBreak cannot follow 'throw'"
  | severalDefaults => "A switch block cannot have multiple defaults"
  | withStatement => "With statement are not allowed in strict mode"
  | withUnsupported =>
    "The 'with' statement is not supported. All symbols in a 'with' block will have type 'any'."
  | forAwaitNotOf => "for await syntax is valid only for for-of statement"
  | asyncLoopTarget => "The left-hand side of a `for...of` statement may not be `async`"
  | typedLoopTarget =>
    "The left-hand side of a 'for...of' statement cannot use a type annotation"
  | nestedModuleItem => "'import', and 'export' cannot be used outside of module code"
  | stringImportBinding name =>
    "A string literal cannot be used as an imported binding.\n- Did you mean `import \x7b \"" ++
      name ++ "\" as foo \x7d`?"
  | reservedImport => "cannot import as reserved word"
  | decoratorsTwice =>
    "Decorators may not appear after 'export' or 'export default' if they also appear before " ++
      "'export'."
  | stringExportBinding =>
    "A string literal cannot be used as an exported binding without `from`."
  | typeOnImport =>
    "The 'type' modifier cannot be used on a named import when 'import type' is used on its " ++
      "import statement."
  | typeOnExport =>
    "The 'type' modifier cannot be used on a named export when 'export type' is used on its " ++
      "export statement."
  | exportAfterDecorator =>
    "Using the export keyword between a decorator and a class is not allowed. Please use `export " ++
      "@dec class` instead."
  | invalidTarget =>
    "The left-hand side of an assignment expression must be a variable or a property access."
  | deleteOperand => "The operand of a 'delete' operator must be a property reference."
  | notAssignable => "Cannot assign to this"
  | strictTarget => "Invalid use of 'arguments' in strict mode"
  | deleteName => "'delete' cannot be called on an identifier in strict mode"
  | powerOperand => "'**' cannot be applied to unary/await expression."
  | mixedCoalesce =>
    "Nullish coalescing operator(??) requires parens when mixing with logical operators"
  | newOptional => "Constructor in/after an optional chaining is not allowed."
  | newTargetOutside =>
    "'new.target' is only allowed in the body of a function declaration, function expression, or " ++
      "class."
  | superCallOutside => "Invalid access to super"
  | invalidImport => "Unexpected token in import call"
  | awaitStar =>
    "await* has been removed from the async functions proposal. Use Promise.all() instead."
  | superOutside => "Invalid access to super"
  | assignedProperty => "assignment property is invalid syntax"
  | reservedShorthand => "Cannot use a reserved word as a shorthand property"
  | restTarget => "`...` must be followed by an identifier in declaration contexts"
  | invalidPattern => "Not a pattern"
  | emptyParens => "Parenthesized expression cannot be empty"
  | spreadInParens => "Parenthesized expression cannot contain spread operator"
  | arrowLineBreak => "Unexpected line break between arrow head and arrow"
  | arrowNotAllowed => "An arrow function is not allowed here"
  | taggedOptional => "Tagged template literal is not allowed in optional chain"
  | awaitOutsideAsync => "await isn't allowed in non-async function"
  | awaitInParameter => "`await` expressions cannot be used in a parameter initializer."
  | yieldInParameter => "'yield' cannot be used as a parameter within generator"
  | getterParameters => "A `get` accessor cannot have parameters"
  | setterParameter => "A `set` accessor must have exactly one parameter"
  | setterRest => "Rest pattern is not allowed in setter"
  | restParameterNotLast => "A rest parameter must be last in a parameter list"
  | restElementNotLast => "Rest element must be final element"
  | commaAfterRest => "Trailing comma isn't permitted after a rest element"
  | restOptional => "A rest parameter cannot be optional"
  | restInitializer => "A rest parameter cannot have an initializer"
  | optionalInitializer => "Parameter cannot have question mark and initializer"
  | illegalUseStrict =>
    "Illegal 'use strict' directive in function with non-simple parameter list."
  | signatureInitializer =>
    "A parameter initializer is only allowed in a function or constructor implementation"
  | optionalPattern =>
    "A binding pattern parameter cannot be optional in an implementation signature."
  | optionalMember => "An object member cannot be declared optional"
  | nestedDeclare => "A 'declare' modifier cannot be used in an already ambient context"
  | ambientBody => "An implementation cannot be declared in ambient contexts"
  | duplicateConstructor => "A class can only have one constructor"
  | accessorConstructor => "Class constructor can't be an accessor."
  | generatorConstructor => "A constructor cannot be generator"
  | asyncConstructor => "Constructor can't be an async function"
  | privateConstructor => "Classes can't have a private field named '#constructor'."
  | fieldConstructor => "Classes may not have a non-static field named 'constructor'"
  | staticPrototype => "Classes may not have static property named prototype"
  | extendsTwice => "`extends` clause already seen."
  | extendsAfterImplements => "'extends' clause must precede 'implements' clause."
  | implementsTwice => "`implements` clause already seen"
  | abstractBody => "Abstract method cannot have an implementation."
  | abstractOutside => "Abstract methods can only appear within an abstract class."
  | readonlyAccessor => "A getter or a setter cannot be readonly"
  | constructorModifier modifier =>
    s!"'{modifier}' modifier cannot appear on a constructor declaration"
  | abstractPlace => "'abstract' modifier can only appear on a class or method declaration."
  | abstractValue => "Abstract property cannot have an initializer"
  | blockModifier => "Modifiers cannot appear here"
  | accessModifierOnAccessor => "'async' modifier cannot be used here."
  | baseList => "Classes can only extend a single class."
  | readonlyMethod => "A method cannot be readonly"
  | accessOnPrivate => "An accessibility modifier cannot be used with a private identifier."
  | declareMember => "`declare` modifier cannot appear on class elements of this kind"
  | overrideWithoutBase =>
    "This member cannot have an 'override' modifier because its containing class does not extend " ++
      "another class."
  | duplicateModifier modifier => s!"'{modifier}' modifier already seen."
  | modifierOrder first second => s!"'{first}' modifier must precede '{second}' modifier."
  | parameterPropertyOutside =>
    "A parameter property is only allowed in a constructor implementation"
  | parameterPropertyPattern =>
    "Typescript parameter property must be an identifier or assignment pattern"
  | constructorTypeParameters => "Type parameters cannot appear on a constructor declaration"
  | constructorReturnType => "Type annotation cannot appear on a constructor declaration"
  | reservedTypeName => "interface cannot be named as a predefined type"
  | emptyLoopDeclaration => "Variable declaration list cannot be empty"
  | loopTargetPattern =>
    "The left-hand side of a 'for...in' statement cannot be a destructuring pattern"
  | numericEnumName => "An enum member cannot have a numeric name"
  | computedEnumName => "Computed property names are not allowed in enums"
  | varianceModifier modifier =>
    s!"'{modifier}' modifier can only appear on a type parameter of a class, interface or type " ++
      "alias"
  | typeParameterModifier modifier => s!"'{modifier}' modifier cannot appear on a type parameter"
  | importTypeArgument => "literal in an import type should be string literal"
  | emptyTypeList => "Type argument list cannot be empty."
  | emptyAttribute => "JSX attributes must only be assigned a non-empty expression"
  | closingTag name => s!"Expected corresponding JSX closing tag for <{name}>"
  | elementValue => "JSX value should be either an expression or a quoted JSX text"
  | strayInElement candidates => s!"Unexpected token. Did you mean {candidates}?"

/-- A cause and the byte offset it points at. -/
structure Fault where
  cause : Cause
  pos : Nat
  deriving DecidableEq, Repr

/-- Whether the fault leaves a tree that the checks can use: `await` in a function that is not
asynchronous is reported by a check of its own. -/
def Fault.isTolerated (f : Fault) : Bool :=
  match f.cause with
  | .awaitOutsideAsync => true
  | _ => false

end ScriptLint.Syntax
