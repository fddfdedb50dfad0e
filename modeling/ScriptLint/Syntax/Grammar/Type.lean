import ScriptLint.Syntax.Grammar.Pattern

/-!
# Types

A type is read for the names and expressions that it mentions, in the order in which they are
visited. Names that a type introduces itself, such as its type parameters, are no mentions; the
keys of its members are.

## Main definitions

* `typeRule`, `typeOperatorRule` — the rules for types
* `typeArguments`, `typeParameters` — the lists in angle brackets
* `typeMembers` — the members of an interface or object type
* `resultType` — what follows the parameters of a function
-/

namespace ScriptLint.Syntax

mutual

/-- What a pattern in a type mentions; the names in it are not bound. -/
def Pat.mentions : Pat → List Expr
  | .name _ type => type
  | .array _ elements type => Pat.listMentions elements ++ type
  | .object _ properties type => Pat.listMentions properties ++ type
  | .field (.named _ _) value => value.mentions
  | .field (.computed _ key) value => key :: value.mentions
  | .shorthand _ value => value.toList
  | .rest _ inner type => inner.mentions ++ type
  | .valued _ left value => left.mentions ++ [value]
  | .decorated _ inner => inner.mentions
  | .target value => [value]

/-- What several patterns in a type mention. -/
def Pat.listMentions : List Pat → List Expr
  | [] => []
  | pat :: more => pat.mentions ++ Pat.listMentions more

end

namespace Grammar

variable {text : List Char}

/-! ## Lists in angle brackets -/

/-- The single character that a sign starts with, if the sign is longer and starts with `<` or
`>`. -/
def angle? : Token → Option Punct
  | .punct .shiftLeft => some .less
  | .punct .shiftRight | .punct .shiftRightZero | .punct .greaterEq | .punct .shiftRightEq
  | .punct .shiftRightZeroEq => some .greater
  | _ => none

theorem standsIn_of_angle? {token : Token} {start after : Cursor} {p : Punct}
    (h : angle? token = some p) (hstands : token.StandsIn text start after) :
    (Token.punct p).StandsIn text start (start.drop 1) := by
  unfold angle? at h
  split at h <;> cases h <;> exact hstands.cut rfl rfl

theorem isInvalid_of_angle? {token : Token} {p : Punct} (h : angle? token = some p) :
    token.isInvalid = false := by
  unfold angle? at h
  split at h <;> cases h <;> rfl

/-- Cuts a sign that starts with `<` or `>` down to that character. -/
def splitAngle : P text Unit := update
  (fun s =>
    match h : angle? s.token with
    | some p =>
      { s with token := .punct p, after := s.start.drop 1, stands := standsIn_of_angle? h s.stands }
    | none => s)
  fun s => by
    split
    · next h => exact ⟨.refl _, fun _ => isInvalid_of_angle? h⟩
    · exact .refl _

/-- Reads a single `<` or `>` again together with the signs that follow it directly. -/
def mergeAngle : P text Unit := update
  (fun s =>
    if s.context.splitsAngles then s
    else match s.token with
      | .punct .less | .punct .greater =>
        s.withScan s.start (Lexer.scan s.budget false s.start) (s.stands.rescan (Lexer.scan_at ..))
      | _ => s)
  fun s => by
    repeat' split
    · exact .refl _
    · next h => exact ⟨.refl _, fun _ => by rw [h]; rfl⟩
    · next h => exact ⟨.refl _, fun _ => by rw [h]; rfl⟩
    · exact .refl _

/-- Type arguments with their brackets. -/
def typeArguments (go : Go text) : P text (List Expr) := do
  let types ← inType do
    splitAngle
    expect .less
    commaList .greater go.type
  expect .greater
  return types.flatten

/-- The type after a word or sign, if it stands there. -/
def typeAfter? (go : Go text) (found : P text Bool) : P text (List Expr) := inType do
  if ← found then go.type else return []

/-- A type parameter: its bound and its default. -/
def typeParameter (go : Go text) (variance : Bool) : P text (List Expr) := do
  let rec modifiers (n : Nat) : P text Unit :=
    match n with
    | 0 => pure ()
    | n + 1 => do
      match ← modifier [.kwPublic, .kwPrivate, .kwProtected, .kwReadonly, .kwAbstract, .kwConst,
        .kwOverride, .kwIn, .kwOut] false with
      | none => pure ()
      | some k =>
        let pos ← previous
        match k with
        | .kwConst => pure ()
        | .kwIn | .kwOut => unless variance do emit (.varianceModifier k.text) pos
        | _ => emit (.typeParameterModifier k.text) pos
        modifiers n
  modifiers (← state).budget
  let _ ← inType word
  let bound ← typeAfter? go (eatWord .kwExtends)
  let default ← typeAfter? go (eat .eq)
  return bound ++ default

/-- Type parameters with their brackets. -/
def typeParameters (go : Go text) (variance : Bool) : P text (List Expr) := do
  let types ← inType do
    expect .less
    let types ← commaList .greater (typeParameter go variance)
    pure types
  expect .greater
  return types.flatten

/-- Type parameters with their brackets, if there are some. -/
def typeParameters? (go : Go text) (variance : Bool) : P text (List Expr) := do
  if (← typescript) && (← isSign .less) then typeParameters go variance else return []

/-! ## References -/

/-- A name with its qualification, of which the first word is the mention. -/
def entityName : P text Ident := do
  let first ← word
  let _ ← collect do
    if ← eat .dot then
      let _ ← memberName
      return some ()
    return none
  return first

/-- Type arguments that follow a type on its line. -/
def trailingArguments (go : Go text) : P text (List Expr) := do
  if !(← lineBreak) && ((← isSign .less) || (← isSign .shiftLeft)) then typeArguments go
  else return []

/-- The options of a type from another module: an object with the attributes, which are kept. -/
def importOptions (go : Go text) : P text Expr := do
  expect .lbrace
  expectWord .kwWith
  expect .colon
  let attributes ← go.object
  let _ ← eat .comma
  expect .rbrace
  return attributes

/-- A type that takes its name from another module. -/
def importType (go : Go text) : P text (List Expr) := do
  expectWord .kwImport
  expect .lparen
  match ← token with
  | .string _ _ => bump
  | _ =>
    let pos ← position
    bump
    emit .importTypeArgument pos
  let comma ← eat .comma
  let attributes ← if comma && (← isSign .lbrace) then do pure [← importOptions go] else pure []
  expect .rparen
  let qualifier ← if ← eat .dot then do pure [Expr.ident (← entityName)] else pure []
  let arguments ← if ← isSign .less then typeArguments go else pure []
  return qualifier ++ arguments ++ attributes

/-- The type of a value. -/
def typeQuery (go : Go text) : P text (List Expr) := do
  expectWord .kwTypeof
  if ← isWord .kwImport then importType go
  else
    let id ← entityName
    return .ident id :: (← trailingArguments go)

/-! ## Functions -/

/-- The parameters of a function type with the closing parenthesis. -/
def signatureParameters (go : Go text) : P text (List Expr) := do
  let pats ← parameters go
  expect .rparen
  if pats.any Pat.isValued then
    unexpected ("an identifier, [ for an array pattern, \x7b for an object patter or ... for a " ++
      "rest pattern")
  return Pat.listMentions pats

/-- What follows the parameters of a function, after the given sign: a type, or a predicate that
names a parameter. -/
def resultType (go : Go text) (sign : Punct) : P text (List Expr) := inType do
  expect sign
  let asserts := (← isWord .kwAsserts) && Token.isReference (← peek)
  if asserts then bump
  let is := (← isReference) && (← peek).isKeyword .kwIs && !(← peekLineBreak)
  if !asserts && !is then go.type
  else
    let _ ← word
    if ← eatWord .kwIs then go.type else return []

/-- Whether a parameter can start here; the start is read. -/
def skipParameterStart (go : Go text) : P text Bool := do
  let _ ← parameterModifier
  match ← token with
  | .word _ k =>
    if k.all fun k => !k.isReserved || k == .kwThis || k == .kwVoid then
      bump
      return true
    return false
  | .punct .lbrace | .punct .lbracket =>
    let _ ← go.pattern false
    return true
  | _ => return false

/-- Whether a function type starts here. -/
def startsFunctionType (go : Go text) : P text Bool := do
  if ← isSign .less then return true
  if !(← isSign .lparen) then return false
  lookAhead do
    bump
    if (← isSign .rparen) || (← isSign .ellipsis) then return true
    if !(← skipParameterStart go) then return false
    if (← isSign .colon) || (← isSign .comma) || (← isSign .question) || (← isSign .eq) then
      return true
    if ← eat .rparen then isSign .arrow else return false

/-- A function type. -/
def functionType (go : Go text) : P text (List Expr) := do
  let own ← typeParameters? go false
  expect .lparen
  let params ← signatureParameters go
  let result ← resultType go .arrow
  return params ++ own ++ result

/-! ## Members -/

/-- The key of a member; a plain name counts as a mention. -/
def memberKey (go : Go text) : P text (List Expr) := do
  let pos ← position
  match ← token with
  | .punct .lbracket =>
    bump
    let value ← go.assignment
    expect .rbracket
    return [value]
  | .string _ _ | .number _ => bump; return [.literal pos]
  | .punct .hash =>
    let _ ← privateName
    return []
  | _ => return [.signatureName (← word)]

/-- Ends a member. -/
def endMember : P text Unit := do
  unless ← eat .comma do expectStatementEnd

/-- An index signature, if one starts here. -/
def indexSignature? (go : Go text) : P text (Option (List Expr)) := do
  let starts ← if ← isSign .lbracket then lookAhead do
      bump
      if Token.isReference (← token) then
        bump
        isSign .colon
      else return false
    else pure false
  if !starts then return none
  bump
  let _ ← word
  let key ← go.annotation
  expect .rbracket
  let value ← go.annotation?
  endMember
  return some (key ++ value)

/-- The signature of a call: parameters, result and type parameters. -/
def callSignature (go : Go text) : P text (List Expr) := do
  let own ← typeParameters? go false
  expect .lparen
  let params ← signatureParameters go
  let result ← if ← isSign .colon then resultType go .colon else pure []
  endMember
  return params ++ result ++ own

/-- An accessor in a type. -/
def accessorSignature (go : Go text) : P text (Option (List Expr)) := do
  let getter ← if ← eatWord .kwGet then pure true else do
    expectWord .kwSet
    pure false
  let key ← memberKey go
  expect .lparen
  if getter then
    expect .rparen
    let type ← go.annotation?
    endMember
    return some (key ++ type)
  let params ← parameters go
  expect .rparen
  if params.isEmpty then fail .setterParameter
  endMember
  return some (key ++ Pat.listMentions (params.take 1))

/-- A member of an interface or object type. -/
def typeMember (go : Go text) : P text (List Expr) := do
  if (← token) == .eof then failAt .unexpectedEnd (← state).size
  if (← isSign .lparen) || (← isSign .less) then return ← callSignature go
  if (← isWord .kwNew) && ((← peek).isPunct .lparen || (← peek).isPunct .less) then
    bump
    return ← callSignature go
  let fixed ← modifier [.kwReadonly] false
  match ← indexSignature? go with
  | some parts => return parts
  | none =>
    let accessor ← attempt do
      if fixed.isSome then fail .readonlyAccessor
      accessorSignature go
    match accessor with
    | some parts => return parts
    | none =>
      let key ← memberKey go
      let _ ← eat .question
      if (← isSign .lparen) || (← isSign .less) then
        if fixed.isSome then fail .readonlyMethod
        return key ++ (← callSignature go)
      let type ← go.annotation?
      endMember
      return key ++ type

/-- The members of an interface or object type with their braces. -/
def typeMembers (go : Go text) : P text (List Expr) := do
  expect .lbrace
  let members ← collect do
    if ← isSign .rbrace then return none
    return some (← typeMember go)
  expect .rbrace
  return members.flatten

/-- Reads a plus or minus sign. -/
def eatSign : P text Bool := do
  if ← eat .plus then return true else eat .minus

/-- Whether a type that maps keys starts here. -/
def startsMappedType : P text Bool := lookAhead do
  bump
  if ← eatSign then isWord .kwReadonly
  else
    let _ ← eatWord .kwReadonly
    if !(← eat .lbracket) then return false
    if !(← isReference) then return false
    bump
    isWord .kwIn

/-- A sign and a word, or one of the two, that a mapped type may carry. -/
def mappedMark (mark : P text Bool) : P text Unit := do
  let _ ← eatSign
  let _ ← mark

/-- A type that maps keys: the keys, their new names and the values. -/
def mappedType (go : Go text) : P text (List Expr) := do
  expect .lbrace
  mappedMark (eatWord .kwReadonly)
  expect .lbracket
  let _ ← word
  expectWord .kwIn
  let keys ← go.type
  let names ← if ← eatWord .kwAs then go.type else pure []
  expect .rbracket
  mappedMark (eat .question)
  let values ← go.annotation?
  let _ ← eatStatementEnd
  expect .rbrace
  return keys ++ names ++ values

/-- An element of a tuple type, without its label. -/
def tupleElement (go : Go text) : P text (List Expr) := do
  let _ ← eat .ellipsis
  let labelled ← lookAhead do
    if (← token).isWord then
      bump
      let _ ← eat .question
      isSign .colon
    else return false
  if labelled then
    bump
    let _ ← eat .question
    bump
  let type ← go.type
  let _ ← eat .question
  return type

/-! ## Templates -/

/-- Goes to the end of a piece of a template, which starts after the current token. The piece makes
one token with the sign before it. -/
def templatePiece : P text (Option Lexer.TemplatePiece) := fun s =>
  match h : Lexer.templatePiece s.budget none s.after with
  | none => .ok none s (.refl _)
  | some piece =>
    if hvalid : s.token.isInvalid = false then
      let stands := s.stands.extend (Lexer.leads_templatePiece h) (Lexer.parts_templatePiece h)
      .ok (some piece) { s with token := .elementText, after := piece.after, stands }
        ⟨.refl _, fun _ => hvalid⟩
    else .ok none s (.refl _)

/-- The holes of a template, whose opening quote is the current token; `strict` if its escapes have
to be well formed. -/
def templateHoles {α : Type} (strict : Bool) (hole : P text α) : P text (List α) := do
  let opening ← position
  loop (fun acc => do
    match ← templatePiece with
    | none => failHard ⟨.unterminatedTemplate, opening⟩
    | some piece =>
      if strict then update (·.record piece.fault.toList)
      bump
      if !piece.hole then return .inr acc.reverse
      let value ← hole
      unless ← isSign .rbrace do fail (.expected Punct.rbrace.text (← token).describe)
      return .inl (value :: acc)) []

/-! ## Types without operators -/

/-- Words that name a type of the language itself. -/
def isTypeWord (k : Keyword) : Bool :=
  k ∈ [.kwVoid, .kwNull, .kwAny, .kwBoolean, .kwBigint, .kwNever, .kwNumber, .kwObject, .kwString,
    .kwSymbol, .kwUnknown, .kwUndefined, .kwIntrinsic]

/-- A type that starts with a word. -/
def namedType (go : Go text) (k : Option Keyword) : P text (List Expr) := do
  match k with
  | some .kwThis =>
    bump
    if ← eatWordIf (!(← lineBreak)) .kwIs then go.type else return []
  | some .kwTypeof => typeQuery go
  | some .kwImport => importType go
  | some .kwTrue | some .kwFalse => bump; return []
  | some .kwAsserts =>
    if (← peek).isKeyword .kwThis then
      bump
      bump
      if ← eatWord .kwIs then return ← go.type else return []
    reference
  | some k =>
    if isTypeWord k && !(← peek).isPunct .dot then
      bump
      return []
    if k.isReserved && k != .kwVoid && k != .kwNull && k != .kwBreak then other else reference
  | none => reference
where
  reference : P text (List Expr) := do
    let id ← entityName
    return .ident id :: (← trailingArguments go)
  other : P text (List Expr) :=
    unexpected ("an identifier, void, yield, null, await, break, a string literal, a numeric " ++
      "literal, true, false, `, -, import, this, typeof, \x7b, [, (")

/-- A type without operators. -/
def primaryType (go : Go text) : P text (List Expr) := do
  match ← token with
  | .word _ k => namedType go k
  | .string _ _ | .number _ | .bigint _ => bump; return []
  | .punct .minus =>
    bump
    match ← token with
    | .number _ | .bigint _ => bump; return []
    | _ => unexpected "numeric literal or bigint literal"
  | .punct .backquote => return (← templateHoles true go.type).flatten
  | .punct .lbrace => if ← startsMappedType then mappedType go else typeMembers go
  | .punct .lbracket =>
    bump
    let elements ← commaList .rbracket (tupleElement go)
    expect .rbracket
    return elements.flatten
  | .punct .lparen =>
    bump
    let type ← go.type
    expect .rparen
    return type
  | .eof => failAt .unexpectedEnd (← state).size
  | _ => namedType.other

/-- A type with the brackets that follow it: arrays and members. -/
def postfixType (go : Go text) : P text (List Expr) := do
  let first ← primaryType go
  let more ← collect do
    if ← eatIf (!(← lineBreak)) .lbracket then
      if ← eat .rbracket then return some []
      let index ← go.type
      expect .rbracket
      return some index
    return none
  return first ++ more.flatten

/-! ## Operators -/

/-- Types joined by a binary operator, which may also stand before the first one. -/
def joinedTypes (sign : Punct) (part : P text (List Expr)) : P text (List Expr) := do
  let _ ← eat sign
  let first ← part
  let more ← collect do
    if ← eat sign then return some (← part) else return none
  return first ++ more.flatten

/-- A type that is not conditional. -/
def plainType (go : Go text) : P text (List Expr) := do
  if ← startsFunctionType go then return ← functionType go
  if (← isWord .kwNew) || ((← isWord .kwAbstract) && (← peek).isKeyword .kwNew) then
    let _ ← eatWord .kwAbstract
    expectWord .kwNew
    return ← functionType go
  joinedTypes .or (joinedTypes .and go.typeOperator)

/-- The bound of a type that is to be inferred, unless it is the test of a conditional type. -/
def inferBound (go : Go text) : P text (List Expr) := do
  if !(← isWord .kwExtends) then return []
  let bound ← attempt do
    bump
    let type ← within ({ · with noConditionalType := true }) (plainType go)
    if (← context).noConditionalType || !(← isSign .question) then return some type
    return none
  return bound.getD []

/-- A type with the operators before it. -/
def typeOperatorRule (go : Go text) : P text (List Expr) := do
  match (← token).keyword? with
  | some .kwKeyof | some .kwUnique | some .kwReadonly =>
    bump
    go.typeOperator
  | some .kwInfer =>
    bump
    let _ ← word
    inferBound go
  | _ => postfixType go

/-- A type. -/
def typeRule (go : Go text) : P text (List Expr) :=
  within ({ · with noConditionalType := false }) do
    let checked ← plainType go
    unless ← eatWordIf (!(← lineBreak)) .kwExtends do return checked
    let bound ← within ({ · with noConditionalType := true }) (plainType go)
    expect .question
    let yes ← go.type
    expect .colon
    let no ← go.type
    return checked ++ bound ++ yes ++ no

end Grammar

end ScriptLint.Syntax
