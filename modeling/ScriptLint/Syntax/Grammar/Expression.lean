import ScriptLint.Syntax.Grammar.Cover
import ScriptLint.Syntax.Grammar.Literal

/-!
# Expressions

From the inside out: primary expressions, what can be called, calls, prefix and postfix operators,
binary operators by precedence, conditional expressions and assignments. Parentheses are read
before it is known whether an arrow follows them.

## Main definitions

* `primary`, `calleeRule`, `leftHandRule` — expressions without operators
* `unaryRule`, `binaryRule`, `operation` — operators
* `assignmentRule` — the rule for expressions without a comma
-/

namespace ScriptLint.Syntax

/-- Whether the expression is an arrow function, which nothing can follow. -/
def Expr.isArrow : Expr → Bool
  | arrow _ _ _ _ _ => true
  | _ => false

namespace Grammar

variable {text : List Char}

/-! ## Binary operators -/

/-- A binary operator: its precedence and its kind. -/
structure Operator where
  precedence : Nat
  kind : BinaryKind
  isPower : Bool

/-- The binary operator that a token is, if any. -/
def operator? (t : Token) (inAllowed : Bool) : Option Operator :=
  match t with
  | .punct p =>
    p.precedence.map fun n =>
      ⟨n, match p with
        | .coalesce => .coalesce
        | .logicalOr | .logicalAnd => .logical
        | _ => .other, p == .pow⟩
  | .word _ (some .kwInstanceof) => some ⟨7, .other, false⟩
  | .word _ (some .kwIn) => if inAllowed then some ⟨7, .other, false⟩ else none
  | _ => none

/-- A first operand. If it cannot be read and an operator stands where it stops, reading goes on
with that operator. -/
def operand (go : Go text) : P text Expr := do
  match ← caught go.unary with
  | .ok e => return e
  | .error fault =>
    match ← token with
    | .invalid other => failHard other
    | .eof => failAt .unexpectedEnd (← state).size
    | t =>
      if (operator? t (← context).inAllowed).isSome then
        let pos ← position
        emit .expressionExpected pos
        return .literal pos
      stop fault

/-- The fault of an operand that is itself an operation of the kind `clash`: `??` and the logical
operators need parentheses beside each other. -/
def checkMixed (clash : BinaryKind) : Expr → P text Unit
  | .binary pos kind _ _ => if kind == clash then emit .mixedCoalesce pos else pure ()
  | _ => pure ()

/-- One operator with its right operand, if it binds more tightly than `least`. -/
def operatorStep (go : Go text) (least : Nat) (left : Expr) : P text (Expr ⊕ Expr) := do
  if (← typescript) && !(← lineBreak) then
    if 7 > least && (← isWord .kwAs) then
      if (← peek).isKeyword .kwConst then
        bump
        bump
        return .inl (.typed left.pos .fixed left [])
      return .inl (.typed left.pos .cast left (← inType do bump; go.type))
    if ← isWord .kwSatisfies then
      return .inl (.typed left.pos .cast left (← inType do bump; go.type))
  mergeAngle
  match operator? (← token) (← context).inAllowed with
  | none => return .inr left
  | some op =>
    if op.precedence ≤ least then return .inr left
    bump
    if op.isPower then
      match left with
      | .unary _ _ | .await _ _ => fail .powerOperand
      | _ => pure ()
    let first ← go.unary
    let right ← go.binary first (if op.isPower then op.precedence - 1 else op.precedence)
    if op.kind == .coalesce then
      checkMixed .logical left
      checkMixed .logical right
    if op.kind == .logical then checkMixed .coalesce left
    return .inl (.binary left.pos op.kind left right)

/-- The operators that follow a first operand. -/
def binaryRule (go : Go text) (left : Expr) (least : Nat) : P text Expr :=
  loop (operatorStep go least) left

/-- Operands with the binary operators between them. -/
def operation (go : Go text) : P text Expr := do
  let left ← operand go
  if left.isArrow then return left
  binaryRule go left 0

/-! ## Assignments and conditions -/

/-- The two branches after the test of a conditional expression and its question mark. -/
def branches (go : Go text) (pos : Nat) (test : Expr) : P text Expr := do
  let yes ← within ({ · with inConditional := true, colonExpected := true, inAllowed := true })
    go.assignment
  expect .colon
  let no ← within ({ · with inConditional := true, colonExpected := false }) go.assignment
  return .group pos [test, yes, no]

/-- The rest of an assignment, if `left` is the target of one. -/
def assignmentRest (go : Go text) (start : Nat) (left : Expr) : P text Expr := do
  match ← token with
  | .punct sign =>
    if !sign.isAssign then return left
    let target ← if sign == .eq then go.cover .target left else do
      unless left.isAssignable do
        emit (if ← typescript then .invalidTarget else .notAssignable) left.pos
      pure (asTarget left)
    bump
    return .assign start (sign == .eq) target (← go.assignment)
  | _ => return left

/-! ## Arrow functions and parentheses -/

/-- An arrow function from its body on. -/
def arrowFrom (go : Go text) (start : Nat) (isAsync : Bool) (params : List Pat)
    (types : List Expr) : P text Expr := do
  let body ← arrowBody go isAsync (params.all Pat.isSimple)
  return .arrow start isAsync params body types

/-- An expression in parentheses that may turn out to be a parameter. -/
def parenthesizedValue (go : Go text) : P text Expr := do
  let start ← position
  let plain ← if ← isSign .ellipsis then Token.isReference <$> peek else isReference
  if (← typescript) && plain then
    if ← eat .ellipsis then return .spread start (← operation go)
    let e ← operation go
    assignmentRest go start e
  else spreadable go

/-- Whether the item that was read is a parameter with a question mark after its name. A question
mark can also be that of a conditional expression, which is then read. -/
def optionalMark (go : Go text) (start : Nat) (e : Expr) : P text (Expr × Bool) := do
  if !(← typescript) || !(← isSign .question) then return (e, false)
  let next ← peek
  if [Punct.comma, .eq, .rparen, .colon].any next.isPunct then
    bump
    match e with
    | .ident _ => return (e, true)
    | .spread _ inner =>
      emit .restOptional (← previous)
      match inner with
      | .ident _ => return (e, true)
      | _ => failAt .optionalPattern e.pos
    | _ => failAt .optionalPattern e.pos
  match e with
  | .spread _ _ => return (e, false)
  | _ =>
    bump
    return (← branches go start e, false)

/-- One item in parentheses. -/
def parenthesizedItem (go : Go text) : P text Item := do
  let start ← position
  update ({ · with arrowStart := some start })
  let modified ← parameterModifier
  let e ← parenthesizedValue go
  let (e, optional) ← optionalMark go start e
  if optional || ((← typescript) && (← isSign .colon)) then
    let pat ← match e with
      | .spread pos inner => (.rest pos · []) <$> go.cover .binding inner
      | e => go.cover .binding e
    let pat := pat.annotate (← go.annotation?)
    let pat ← if ← eat .eq then .valued start pat <$> go.assignment else pure pat
    if modified then emit .parameterPropertyOutside start
    return .pat pat
  if modified then emit .parameterPropertyOutside start
  return .value e

/-- The items in parentheses, and the comma after the last one. -/
def parenthesizedItems (go : Go text) : P text (List Item × Option Nat) :=
  within ({ · with colonExpected := false, inAllowed := true }) do
    expect .lparen
    let out ← loop (fun (acc, comma) => do
      if ← isSign .rparen then return .inr (acc.reverse, comma)
      let item ← parenthesizedItem go
      let comma ← if ← isSign .rparen then pure comma else do
        expect .comma
        if ← isSign .rparen then some <$> previous else pure comma
      return .inl (item :: acc, comma)) (([], none) : List Item × Option Nat)
    expect .rparen
    return out

/-- The arrow function after its parameters, where a colon can also belong to a conditional
expression around it. -/
def conditionalArrow (go : Go text) (start : Nat) (isAsync : Bool) (items : List Item) :
    P text (Option Expr) := do
  let colonExpected := (← context).colonExpected
  let result ← resultType go .colon
  expect .arrow
  let params ← coverParameters go items none
  let e ← arrowFrom go start isAsync params result
  if colonExpected && !(← isSign .colon) then unexpected "fail"
  return some e

/-- The type after the parameters of an arrow function. -/
def arrowResult (go : Go text) : P text (Option (List Expr)) := do
  if (← context).colonExpected || !(← typescript) || !(← isSign .colon) then return none
  attempt do
    let result ← resultType go .colon
    unless ← isSign .arrow do unexpected "fail"
    return some result

/-- The items in parentheses as values. -/
def itemValues : List Item → P text (List Expr)
  | [] => return []
  | .value e :: more => return e :: (← itemValues more)
  | .pat p :: _ => failAt .invalidPattern p.pos

/-- The faults of properties with a default value in parentheses that are no parameters. -/
def checkItems (items : List Item) : P text Unit :=
  items.forM fun
    | .value (.object _ properties) => properties.forM fun
      | .assigned id _ => emit .assignedProperty id.pos
      | _ => pure ()
    | _ => pure ()

/-- What stands in parentheses, if no arrow follows them: a value, or the arguments of a call if
`async` stands before them. -/
def closeParens (start : Nat) (async : Option Ident) (items : List Item) : P text Expr := do
  checkItems items
  let values ← itemValues items
  match async, values with
  | some id, args => return .call id.pos (.ident id) args []
  | none, [] => failAt .emptyParens start
  | none, first :: more =>
    match values.find? (fun | .spread _ _ => true | _ => false) with
    | some (.spread _ inner) => failAt .spreadInParens inner.pos
    | _ => return .paren start (if more.isEmpty then first else .group first.pos values)

/-- Parentheses: an expression, the parameters of an arrow function, or, after `async`, the
arguments of a call. -/
def parenthesized (go : Go text) (canBeArrow : Bool) (async : Option Ident) : P text Expr := do
  let start ← match async with
    | some id => pure id.pos
    | none => position
  let (items, comma) ← parenthesizedItems go
  let inConditional := (← context).inConditional && (← isSign .colon)
  let early ← if inConditional then attempt (conditionalArrow go start async.isSome items)
    else pure none
  match early with
  | some e => return e
  | none =>
    let result ← arrowResult go
    let isPattern := items.any fun
      | .pat _ => true
      | .value _ => false
    if !isPattern && result.isNone && !(← isSign .arrow) then return ← closeParens start async items
    if ← lineBreak then failAt .arrowLineBreak start
    if !canBeArrow then failAt .arrowNotAllowed start
    expect .arrow
    let params ← coverParameters go items comma
    let e ← arrowFrom go start async.isSome params (result.getD [])
    match e with
    | .arrow _ _ _ (.block _ _) _ =>
      if !Token.isOperator (← token) then return e
      emit .semicolonExpected (← position)
      let whole ← binaryRule go e 0
      unless ← atStatementEnd do emit .semicolonExpected (← position)
      return whole
    | _ => return e

/-- An arrow function with type parameters. -/
def genericArrow (go : Go text) : P text (Option Expr) := do
  let start ← position
  let own ← typeParameters go false
  match ← go.assignment with
  | .arrow _ isAsync params body types =>
    return some (.arrow start isAsync params body (own ++ types))
  | _ => unexpected "("

/-- An asynchronous arrow function with type parameters, after `async`. -/
def genericAsyncArrow (go : Go text) (start : Nat) : P text (Option Expr) := do
  let own ← typeParameters go false
  expect .lparen
  let params ← within ({ · with inAsync := true }) (parameters go)
  expect .rparen
  let result ← if ← isSign .colon then resultType go .colon else pure []
  expect .arrow
  return some (← arrowFrom go start true params (own ++ result))

/-! ## Primary expressions -/

/-- What starts with `async`, if it is a function. -/
def asyncStart? (go : Go text) (start : Nat) (canBeArrow : Bool) : P text (Option Expr) := do
  let next ← peek
  let sameLine := !(← peekLineBreak)
  if next.isKeyword .kwFunction && sameLine then return some (← functionValue go start [])
  if canBeArrow && (← typescript) && next.isPunct .less then
    match ← attempt (do bump; genericAsyncArrow go start) with
    | some e => return some e
    | none => pure ()
  if canBeArrow && next.isPunct .lparen && sameLine then
    let id ← word
    return some (← parenthesized go canBeArrow (some id))
  return none

/-- What starts with a name: a reference, or an arrow function with one parameter. -/
def namedStart (go : Go text) (start : Nat) (canBeArrow : Bool) : P text Expr := do
  let id ← name
  if canBeArrow && id.name == "async" && !(← lineBreak) && (← isReference) then
    let c ← context
    if c.inLoopHead && (← isWord .kwOf) && !(← peek).isPunct .arrow then
      unless c.inAwaitLoopHead do emit .asyncLoopTarget (← previous)
      return .ident id
    let param ← bindingName false
    expect .arrow
    return ← arrowFrom go start true [.name param []] []
  if ← eatIf (canBeArrow && !(← lineBreak)) .arrow then
    if isEvalOrArguments id.name then emit .evalBinding id.pos
    return ← arrowFrom go start false [.name id []] []
  return .ident id

/-- An expression that starts with a word. -/
def wordStart (go : Go text) (start : Nat) (canBeArrow : Bool) (k : Option Keyword) :
    P text Expr := do
  match k with
  | some .kwThis | some .kwNull | some .kwTrue | some .kwFalse => bump; return .literal start
  | some .kwFunction => functionValue go start []
  | some .kwClass => classValue go start [] false
  | some .kwAsync =>
    match ← asyncStart? go start canBeArrow with
    | some e => return e
    | none => namedStart go start canBeArrow
  | some .kwLet => namedStart go start canBeArrow
  | _ => if ← isReference then namedStart go start canBeArrow else fail .expressionExpected

/-- A primary expression. -/
def primary (go : Go text) : P text Expr := do
  let start ← position
  let canBeArrow := (← state).arrowStart == some start
  match ← token with
  | .word _ k => wordStart go start canBeArrow k
  | .string value _ => bump; return .text start value
  | .number _ | .bigint _ => bump; return .literal start
  | .punct .lbracket => arrayLiteral go
  | .punct .lbrace => objectLiteral go
  | .punct .lparen => parenthesized go canBeArrow none
  | .punct .div | .punct .divEq => regex
  | .punct .backquote => return .group start (← template go true)
  | .punct .hash =>
    let _ ← privateName
    return .literal start
  | .punct .atSign =>
    let decorators ← go.decorators
    if ← isWord .kwClass then classValue go start decorators false else fail .expressionExpected
  | _ => fail .expressionExpected

/-! ## Values that can be called -/

/-- What follows the word `import` in an expression. -/
def importValue (go : Go text) (start : Nat) (noCall : Bool) : P text Expr := do
  if ← eat .dot then
    let id ← word
    if id.name != "meta" then unexpected "meta"
    subscripts go (.value (.literal start)) noCall false
  else subscripts go (.loader start) noCall false

/-- The word `new` and what it constructs. -/
def construct (go : Go text) (start : Nat) : P text Expr := do
  if ← eat .dot then
    unless ← eatWord .kwTarget do unexpected "target"
    let c ← context
    unless c.inMethodScope || c.inParameters || c.inClass do emit .newTargetOutside start
    return ← subscripts go (.value (.literal start)) true false
  let callee ← go.callee
  if callee.isArrow then return callee
  match callee with
  | .chain pos _ | .member _ (.chain pos _) _ | .index _ (.chain pos _) _ => failAt .newOptional pos
  | _ => pure ()
  let types ← if (← isSign .less) || (← isSign .shiftLeft) then attempt do
      let types ← typeArguments go
      if ← isSign .lparen then return some types else return none
    else pure none
  let types := types.getD []
  if ← isSign .lparen then
    let args ← arguments go
    subscripts go (.value (.construct start callee args types)) true false
  else return .construct start callee [] types

/-- An expression that can be called or constructed, without its call. -/
def calleeRule (go : Go text) : P text Expr := within ({ · with inMember := true }) do
  let start ← position
  if ← eatWord .kwNew then return ← construct go start
  if ← eatWord .kwSuper then return ← subscripts go (.parent start) true false
  if ← eatWord .kwImport then return ← importValue go start true
  let e ← primary go
  if e.isArrow then return e
  let e ← instantiated go e
  subscripts go (.value e) true false

/-- An expression with its calls, without operators. -/
def leftHandRule (go : Go text) : P text Expr := do
  let start ← position
  if ← eatWord .kwSuper then return ← subscripts go (.parent start) false false
  if ← eatWord .kwImport then return ← importValue go start false
  let callee ← go.callee
  if callee.isArrow then return callee
  let types ← if (← isSign .less) || (← isSign .shiftLeft) then attempt do
      let types ← typeArguments go
      if ← isSign .lparen then return some types else return none
    else pure none
  if ← isSign .lparen then
    let args ← arguments go
    subscripts go (.value ((Base.value callee).call false args (types.getD []))) false false
  else return callee

/-! ## Unary operators -/

/-- An awaited value, or the word `await` where a name was meant. -/
def awaited (go : Go text) : P text Expr := do
  let id ← word
  if ← isSign .times then fail .awaitStar
  let c ← context
  let ends := (← atStatementEnd) || (← isSign .rparen) || (← isSign .rbracket) || (← isSign .comma)
  if !c.inAsync && ends then
    emit .awaitName id.pos
    return .ident id
  if c.inFunction && !c.inAsync then emit .awaitOutsideAsync id.pos
  if c.inParameters && !c.inFunction then emit .awaitInParameter id.pos
  return .await id.pos (← go.unary)

/-- An operator before its operand. If the operand cannot be read, reading goes on after it. -/
def prefixed (go : Go text) (pos : Nat) (isDelete : Bool) : P text Expr := do
  bump
  let operand ← match ← caught go.unary with
    | .ok e => pure e
    | .error fault => do
      emit fault.cause fault.pos
      pure (.literal pos)
  if isDelete then
    match operand with
    | .ident id => emit .deleteName id.pos
    | _ => pure ()
    if ← typescript then
      match operand.unparen with
      | .member _ _ _ | .index _ _ _ | .chain _ _ => pure ()
      | e => emit .deleteOperand e.pos
  return .unary pos operand

/-- A type before its operand in angle brackets, after the first of them. -/
def assertion (go : Go text) (pos : Nat) : P text Expr := do
  if ← eatWord .kwConst then
    expect .greater
    return .typed pos .fixed (← go.unary) []
  let type ← inType go.type
  expect .greater
  return .typed pos .cast (← go.unary) type

/-- Whether an element starts with the current `<`. -/
def startsElement : P text Bool := do
  let next ← peek
  return next.isWord || [Punct.greater, .shiftRight, .shiftRightZero, .greaterEq].any next.isPunct

/-- An operand with the operators directly before and after it. -/
def unaryRule (go : Go text) : P text Expr := do
  let pos ← position
  match ← token with
  | .punct .less =>
    if ← jsx then
      if ← startsElement then return ← go.element true
    else if ← typescript then
      bump
      return ← assertion go pos
    rest
  | .punct .plusPlus | .punct .minusMinus =>
    bump
    let operand ← go.unary
    checkTarget operand
    return .update pos operand
  | .punct .plus | .punct .minus | .punct .tilde | .punct .bang => prefixed go pos false
  | .word _ (some .kwDelete) => prefixed go pos true
  | .word _ (some .kwVoid) | .word _ (some .kwTypeof) => prefixed go pos false
  | .word _ (some .kwAwait) => awaited go
  | _ => rest
where
  rest : P text Expr := do
    let e ← go.leftHand
    if e.isArrow || (← lineBreak) then return e
    if (← isSign .plusPlus) || (← isSign .minusMinus) then
      checkTarget e
      bump
      return .update e.pos e
    return e

/-! ## Assignments -/

/-- A value that a generator yields. -/
def yielded (go : Go text) : P text Expr := do
  let pos ← position
  bump
  let c ← context
  if c.inParameters && !c.inFunction then failAt .yieldInParameter pos
  let t ← token
  let starts := Token.startsExpression t || [Punct.times, .div, .divEq].any t.isPunct
  if (← atStatementEnd) || !starts then return .literal pos
  let _ ← eat .times
  return .group pos [← go.assignment]

/-- Whether an arrow function can start with the token. -/
def startsArrow : Token → Bool
  | .word _ none => true
  | .word _ (some k) => !k.isReserved
  | .punct p => p == .lparen
  | _ => false

/-- An expression without a comma on its own level. -/
def assignmentRule (go : Go text) : P text Expr := do
  let start ← position
  if (← typescript) && (← isSign .less) && (← peek).isWord then
    match ← outsideConditional (attempt (genericArrow go)) with
    | some e => return e
    | none => pure ()
  if (← context).inGenerator && (← isWord .kwYield) then return ← yielded go
  let t ← token
  update ({ · with arrowStart := if startsArrow t then some start else none })
  let e ← operation go
  if e.isArrow then return e
  if ← eat .question then return ← branches go start e
  match e with
  | .binary _ _ _ _ | .unary _ _ | .update _ _ => return e
  | _ => assignmentRest go start e

end Grammar

end ScriptLint.Syntax
