import ScriptLint.Syntax.Grammar.Class

/-!
# Array and object literals, regular expressions

## Main definitions

* `arrayLiteral`, `objectLiteral` — elements in brackets, properties in braces
* `regex` — a regular expression
-/

namespace ScriptLint.Syntax.Grammar

variable {text : List Char}

/-- Remembers the comma before a closing sign, for the literal that starts at `opening`. -/
def recordComma (opening : Nat) : P text Unit := do
  let pos ← previous
  update fun s => { s with commas := (opening, pos) :: s.commas }

/-- An array literal. -/
def arrayLiteral (go : Go text) : P text Expr := outsideConditional do
  let opening ← position
  expect .lbracket
  let elements ← collect do
    if ← isSign .rbracket then return none
    let pos ← position
    if ← eat .comma then return some (.hole pos)
    let e ← spreadable go
    unless ← isSign .rbracket do
      expect .comma
      if ← isSign .rbracket then recordComma opening
    return some e
  expect .rbracket
  return .array opening elements

/-! ## Properties -/

/-- Surroundings of a method of an object. -/
def inMethod {α : Type} (p : P text α) : P text α :=
  within ({ · with superAllowed := true, inClassField := false, colonExpected := false }) p

/-- Whether a property is complete after its name, if it is a plain word. -/
def endsShorthand (t : Token) : Bool :=
  t.isPunct .eq || t.isPunct .comma || t.isPunct .rbrace

/-- Whether a token can follow the name of a property. -/
def followsKey (t : Token) (plain : Bool) : Bool :=
  match t with
  | .word _ _ | .string _ _ | .number _ => true
  | .punct p =>
    p ∈ [.lparen, .lbracket, .colon, .comma, .question, .eq, .times, .less] ||
      (plain && p == .rbrace)
  | _ => false

/-- The getter, setter or asynchronous method after the word that says so. -/
def wordMethod (go : Go text) (word : String) : P text Property := do
  let isGenerator ← if word == "async" then eat .times else pure false
  let (key, _) ← propertyName go
  inMethod do
    match word with
    | "get" =>
      let fn ← functionRest go [] false false (getterParameters go key.pos)
      match fn with
      | .mk _ _ _ body types => return .getter key types body
    | "set" =>
      let fn ← functionRest go [] false false (setterParameters go key.pos)
      match fn with
      | .mk _ (this :: param :: _) _ body _ => return .setter key this.mentions param body
      | .mk _ [param] _ body _ => return .setter key [] param body
      | .mk _ [] _ body _ =>
        emit .setterParameter key.pos
        return .setter key [] (.array key.pos [] []) body
    | _ => return .method key (← functionRest go [] true isGenerator (parameters go))

/-- A property from what follows its name on, if its name is a plain word. -/
def namedProperty (go : Go text) (id : Ident) : P text Property := do
  if ← eat .question then emit .optionalMember (← previous)
  if endsShorthand (← token) then
    if !Token.isReference (.word id.name (Keyword.ofChars? id.name.toList)) then
      emit .reservedShorthand id.pos
    if ← eat .eq then
      update fun s => { s with assigned := id.pos :: s.assigned }
      return .assigned id (← go.assignment)
    return .shorthand id
  if id.name == "get" || id.name == "set" || id.name == "async" then wordMethod go id.name
  else if ← typescript then
    unexpected "... , *,  (, [, :, , ?, =, an identifier, public, protected, private, readonly, <."
  else unexpected "... , *,  (, [, :, , ?, = or an identifier"

/-- A property of an object literal. -/
def property (go : Go text) : P text Property := do
  let pos ← position
  if ← eat .ellipsis then return .spread pos (← go.assignment)
  if ← eat .times then
    let (key, _) ← propertyName go
    return .method key (← inMethod (functionRest go [] false true (parameters go)))
  let _ ← parameterModifier
  let (key, plain) ← propertyName go
  let t ← token
  if (← typescript) && !followsKey t plain.isSome then
    emit .semicolonExpected (← position)
    return .keyValue key (.literal pos)
  if ← eat .colon then return .keyValue key (← go.assignment)
  if ← atMethod then
    return .method key (← inMethod (functionRest go [] false false (parameters go)))
  match plain with
  | some id => namedProperty go id
  | none => unexpected "identifier"

/-- An object literal. -/
def objectLiteral (go : Go text) : P text Expr :=
  within ({ · with colonExpected := false, inAllowed := true }) do
    let opening ← position
    expect .lbrace
    let properties ← collect do
      if ← eat .rbrace then return none
      let p ← property go
      unless ← isSign .rbrace do
        expect .comma
        if ← isSign .rbrace then recordComma opening
      return some p
    return .object opening properties

/-! ## Regular expressions -/

/-- The first character of a list that stands in it again. -/
def firstRepeated : List Char → Option Char
  | [] => none
  | c :: more => if more.contains c then some c else firstRepeated more

/-- The fault of the flags of a regular expression. -/
def flagFault? (flags : List Char) : Option Cause :=
  if flags.any fun c => !"dgimsuvy".toList.contains c then some .unknownFlags
  else (firstRepeated flags).map .duplicateFlag

/-- A regular expression, whose opening slash is the current token. -/
def regex : P text Expr := do
  let s ← state
  let scan := Lexer.scanRegex s.start
  match scan.token with
  | .regex _ flags =>
    rescan (fun s => Lexer.scanRegex s.start) fun s => Lexer.scanRegex_at s.start
    match flagFault? flags.toList with
    | some cause => emit cause s.start.pos
    | none => pure ()
    bump
    return .literal s.start.pos
  | .invalid fault => failHard fault
  | _ => fail .expressionExpected

end ScriptLint.Syntax.Grammar
