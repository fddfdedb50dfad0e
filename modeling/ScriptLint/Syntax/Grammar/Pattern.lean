import ScriptLint.Syntax.Grammar.Modifier

/-!
# Patterns and parameters

What declarations and functions bind: names, and patterns that take a value apart. Parameters are
patterns with a default value, decorators and a type.

## Main definitions

* `patternRule` — the rule for patterns
* `parameters` — the parameters of a function
* `constructorParameters` — those of a constructor, which may be properties at the same time
-/

namespace ScriptLint.Syntax

/-- The pattern with a type. -/
def Pat.annotate (type : List Expr) : Pat → Pat
  | name id old => name id (old ++ type)
  | array pos elements old => array pos elements (old ++ type)
  | object pos properties old => object pos properties (old ++ type)
  | rest pos inner old => rest pos inner (old ++ type)
  | pat => pat

/-- Whether the pattern is a plain name. -/
def Pat.isName : Pat → Bool
  | name _ _ => true
  | _ => false

/-- Whether the pattern takes the rest of a list. -/
def Pat.isRest : Pat → Bool
  | rest _ _ _ => true
  | decorated _ inner => inner.isRest
  | _ => false

/-- Whether the pattern has a default value. -/
def Pat.isValued : Pat → Bool
  | valued _ _ _ => true
  | decorated _ inner => inner.isValued
  | _ => false

/-- Whether a parameter is a plain name, maybe with a type. -/
def Pat.isSimple : Pat → Bool
  | name _ _ => true
  | decorated _ inner => inner.isSimple
  | _ => false

/-- Whether the parameter stands for the receiver of a call. -/
def Pat.isReceiver : Pat → Bool
  | name id _ => id.name == "this"
  | decorated _ inner => inner.isReceiver
  | _ => false

namespace Grammar

variable {text : List Char}

/-! ## Patterns -/

/-- A pattern with a default value. -/
def bindingElement (go : Go text) : P text Pat := do
  let pos ← position
  let left ← go.pattern false
  if ← eat .eq then
    let value ← allowIn go.assignment
    if (← context).ambient then emit .signatureInitializer pos
    return .valued pos left value
  return left

/-- The elements of an array pattern. -/
def arrayElements (go : Go text) : P text (List Pat) :=
  loop (fun (acc, rest) => do
    if ← isSign .rbracket then return .inr acc.reverse
    if ← eat .comma then return .inl (acc, rest)
    match rest with
    | some pos => emit .restElementNotLast pos
    | none => pure ()
    let pos ← position
    let isRest ← eat .ellipsis
    let element ← if isRest then (.rest pos · []) <$> go.pattern false else bindingElement go
    unless ← isSign .rbracket do
      expect .comma
      if isRest && (← isSign .rbracket) then emit .commaAfterRest (← previous)
    return .inl (element :: acc, if isRest then some pos else rest))
    (([], none) : List Pat × Option Nat)

/-- A property of an object pattern. -/
def objectPatternProperty (go : Go text) : P text Pat := do
  let pos ← position
  if ← eat .ellipsis then return .rest pos (← go.pattern false) []
  let (key, plain) ← propertyName go
  if ← eat .colon then return .field key (← bindingElement go)
  match plain with
  | none => unexpected "an identifier"
  | some id =>
    if ← eat .eq then
      return .shorthand id (some (← allowIn go.assignment))
    if !Token.isReference (.word id.name (Keyword.ofChars? id.name.toList)) then
      emit .reservedShorthand id.pos
    return .shorthand id none

/-- The faults of rest elements in an object pattern: only the last property may be one, it binds a
plain name, and no comma follows it. -/
def checkObjectRest (comma : Option Nat) : List Pat → P text Unit
  | [] => pure ()
  | [.rest pos inner _] => do
    if inner.isName then
      match comma with
      | some place => emit .commaAfterRest place
      | none => pure ()
    else failAt .restTarget pos
  | [_] => pure ()
  | .rest pos _ _ :: more => do
    emit .restElementNotLast pos
    checkObjectRest comma more
  | _ :: more => checkObjectRest comma more

/-- The properties of an object pattern with its closing brace. -/
def objectPatternProperties (go : Go text) : P text (List Pat) := do
  let (properties, comma) ← loop (fun (acc, comma) => do
    if ← eat .rbrace then return .inr (acc.reverse, comma)
    let property ← objectPatternProperty go
    let comma ← if ← isSign .rbrace then pure comma else do
      expect .comma
      if ← isSign .rbrace then some <$> previous else pure comma
    return .inl (property :: acc, comma)) (([], none) : List Pat × Option Nat)
  checkObjectRest comma properties
  return properties

/-- A pattern that binds names. -/
def patternRule (go : Go text) (noLet : Bool) : P text Pat := do
  let pos ← position
  match ← token with
  | .word _ _ => return .name (← bindingName noLet) []
  | .punct .lbracket =>
    bump
    let elements ← arrayElements go
    expect .rbracket
    if (← context).ambient then let _ ← eat .question
    return .array pos elements []
  | .punct .lbrace =>
    bump
    let properties ← objectPatternProperties go
    if (← context).ambient then let _ ← eat .question
    return .object pos properties []
  | _ => unexpected "yield, an identifier, [ or \x7b"

/-! ## Parameters -/

/-- A parameter that is not a rest parameter. -/
def parameterPattern (go : Go text) : P text Pat := do
  let start ← position
  let modified ← parameterModifier
  let pat ← go.pattern false
  let optional ← if ← typescript then eat .question else pure false
  let pat := pat.annotate (← go.annotation?)
  let pat ← if ← eat .eq then do
      if optional then emit .optionalInitializer pat.pos
      let value ← go.assignment
      if (← context).ambient then emit .signatureInitializer start
      pure (.valued pat.pos pat value)
    else pure pat
  if modified then emit .parameterPropertyOutside start
  return pat

/-- A rest parameter, after its dots. -/
def restParameter (go : Go text) (pos : Nat) (defaults : Bool) : P text Pat := do
  let inner ← go.pattern false
  let inner ← if defaults && (← isSign .eq) then do
      bump
      let value ← go.assignment
      emit .restInitializer inner.pos
      pure (.valued inner.pos inner value)
    else pure inner
  let type ← go.annotation?
  if ← eatIf (defaults && (← typescript)) .question then emit .restOptional (← previous)
  return .rest pos inner type

/-- Parameters up to the closing parenthesis, each with the decorators before it, and where those
start that `single` marks. -/
def parameterList (go : Go text) (rest : Nat → P text Pat) (single : P text (Pat × Bool)) :
    P text (List Pat × List Nat) :=
  loop (fun (acc, marked, restPos) => do
    if ← isSign .rparen then return .inr (acc.reverse, marked.reverse)
    match restPos with
    | some pos => emit .restParameterNotLast pos
    | none => pure ()
    let start ← position
    let decorators ← go.decorators
    let pos ← position
    let isRest ← eat .ellipsis
    let (pat, isMarked) ← if isRest then do pure (← rest pos, false) else single
    unless ← isSign .rparen do
      expect .comma
      if isRest && (← isSign .rparen) then emit .commaAfterRest (← previous)
    let pat := if decorators.isEmpty then pat else .decorated decorators pat
    let marked := if isMarked then start :: marked else marked
    return .inl (pat :: acc, marked, if isRest then some pos else restPos))
    (([], [], none) : List Pat × List Nat × Option Nat)

/-- The parameters of a function, up to the closing parenthesis. -/
def parameters (go : Go text) : P text (List Pat) := do
  return (← parameterList go (restParameter go · true) do pure (← parameterPattern go, false)).1

/-- A parameter of a constructor. One with a modifier is a property as well. -/
def constructorParameter (go : Go text) : P text (Pat × Bool) := do
  let access ← modifier [.kwPublic, .kwProtected, .kwPrivate, .kwIn, .kwOut] false
  let overriding ← modifier [.kwOverride] false
  let fixed ← modifier [.kwReadonly] false
  let pat ← parameterPattern go
  if access.isNone && overriding.isNone && fixed.isNone then return (pat, false)
  if pat.isName || pat.isValued then return (pat, true)
  failAt .parameterPropertyPattern pat.pos

/-- The parameters of a constructor, up to the closing parenthesis, and where those start that are
properties. -/
def constructorParameters (go : Go text) : P text (List Pat × List Nat) :=
  parameterList go (restParameter go · false) (constructorParameter go)

end Grammar

end ScriptLint.Syntax
