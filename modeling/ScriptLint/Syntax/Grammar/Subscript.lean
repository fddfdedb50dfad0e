import ScriptLint.Syntax.Grammar.Type

/-!
# What follows a value

Members, calls, templates and type arguments follow a value one after the other. From the first
`?.` on, the value and what follows it form an optional chain, which ends with them or at a
parenthesis.

## Main definitions

* `Base` — what a sequence of subscripts starts from
* `subscripts` — all that follows a value
* `arguments` — the arguments of a call
* `decoratorRule` — the rule for decorators
* `heritage` — the list after `extends` or `implements`
-/

namespace ScriptLint.Syntax

/-- Whether the expression is part of an optional chain. -/
def Expr.isChain : Expr → Bool
  | chain _ _ => true
  | _ => false

namespace Grammar

variable {text : List Char}

/-- What a sequence of subscripts starts from. -/
inductive Base where
  | value (e : Expr)
  /-- The word `super`. -/
  | parent (pos : Nat)
  /-- The word `import` in an expression. -/
  | loader (pos : Nat)

/-- Where a base starts. -/
def Base.pos : Base → Nat
  | value e => e.pos
  | parent pos | loader pos => pos

/-- A base as an expression. -/
def Base.expr : Base → Expr
  | value e => e
  | parent pos | loader pos => .literal pos

/-! ## Arguments and templates -/

/-- An argument or element, which may stand for many. -/
def spreadable (go : Go text) : P text Expr := do
  let pos ← position
  if ← eat .ellipsis then return .spread pos (← allowIn go.assignment)
  allowIn go.assignment

/-- The arguments of a call with their parentheses. -/
def arguments (go : Go text) : P text (List Expr) := outsideConditional do
  expect .lparen
  let args ← commaList .rparen (spreadable go)
  expect .rparen
  return args

/-- The expressions in a template. -/
def template (go : Go text) (strict : Bool) : P text (List Expr) :=
  outsideConditional (templateHoles strict go.expressionIn)

/-! ## Type arguments of a value -/

/-- Whether an expression can start with the token. -/
def Token.startsExpression : Token → Bool
  | .word _ none => true
  | .word _ (some k) =>
    !k.isReserved || k ∈ [.kwAwait, .kwClass, .kwDelete, .kwFalse, .kwFunction, .kwImport, .kwNew,
      .kwNull, .kwSuper, .kwThis, .kwTrue, .kwTypeof, .kwVoid, .kwYield]
  | .string _ _ | .number _ | .bigint _ | .regex _ _ => true
  | .punct p =>
    p ∈ [.bang, .tilde, .plusPlus, .minusMinus, .plus, .minus, .lparen, .lbrace, .lbracket,
      .backquote, .hash, .less]
  | _ => false

/-- Whether the token is a binary operator. -/
def Token.isOperator : Token → Bool
  | .punct p => p.precedence.isSome
  | _ => false

/-- Type arguments that stand for themselves and are not followed by a call. -/
def instantiation? (go : Go text) : P text (Option (List Expr)) := do
  if !(← isSign .less) then return none
  attempt do
    let types ← typeArguments go
    let t ← token
    let relational : List Punct := [.less, .greater, .eq, .shiftRight, .greaterEq, .plus, .minus,
      .lparen, .backquote]
    if relational.any t.isPunct then return none
    if (← lineBreak) || Token.isOperator t || !Token.startsExpression t then return some types
    return none

/-- A value with the type arguments that stand for themselves. -/
def instantiated (go : Go text) (e : Expr) : P text Expr := do
  match ← instantiation? go with
  | some types => return .typed e.pos .cast e types
  | none => return e

/-! ## Subscripts -/

/-- A call of a base. -/
def Base.call (b : Base) (optional : Bool) (args types : List Expr) : Expr :=
  if optional || b.expr.isChain then .chain b.pos (b.expr :: args ++ types)
  else .call b.pos b.expr args types

/-- A member of a base. -/
def Base.member (b : Base) (optional : Bool) (name : String) (pos : Nat) : Expr :=
  if optional || b.expr.isChain then .chain b.pos [b.expr, .label pos name]
  else .member b.pos b.expr name

/-- An element of a base. -/
def Base.index (b : Base) (optional : Bool) (key : Expr) : Expr :=
  if optional || b.expr.isChain then .chain b.pos [b.expr, key] else .index b.pos b.expr key

/-- A template with a tag. -/
def taggedTemplate (go : Go text) (tag : Expr) (types : List Expr) : P text Expr := do
  if tag.isChain then emit .taggedOptional tag.pos
  let holes ← template go false
  return .group tag.pos (tag :: types ++ holes)

/-- What follows type arguments: a call, a template or an end; with the answer whether more
subscripts can follow. -/
def typedSubscript (go : Go text) (e : Expr) (noCall : Bool) : P text (Option (Expr × Bool)) := do
  let types ← typeArguments go
  if !noCall && (← isSign .lparen) then
    let args ← arguments go
    return some ((Base.value e).call false args types, true)
  if ← isSign .backquote then return some (← taggedTemplate go e types, true)
  if (← isSign .eq) || (← isWord .kwAs) || (← isWord .kwSatisfies) then
    return some (.typed e.pos .cast e types, false)
  unexpected (if noCall then "`" else "( or `")

/-- The fault of a member of `super` where there is none; scripts with types leave that to the type
checker. -/
def checkParent (b : Base) : P text Unit := do
  match b with
  | .parent pos =>
    unless (← typescript) || (← context).superAllowed do failAt .superOutside pos
  | _ => pure ()

/-- The end of a sequence of subscripts. -/
def endSubscripts (b : Base) (noCall : Bool) : P text Expr := do
  match b with
  | .value e => return e
  | .parent _ => if noCall then fail .superCallOutside else fail .superOutside
  | .loader _ => fail .invalidImport

/-- One subscript, or the end of the sequence. -/
def subscript (go : Go text) (noCall noComputed : Bool) (b : Base) : P text (Base ⊕ Expr) := do
  if (← typescript) && !(← lineBreak) && (← isSign .bang) then
    if let .value e := b then
      bump
      return .inl (.value (.typed e.pos .cast e []))
  if (← typescript) && ((← isSign .less) || (← isSign .shiftLeft)) then
    if let .value e := b then
      match ← attempt (typedSubscript go e noCall) with
      | some (e, more) => return if more then .inl (.value e) else .inr e
      | none => pure ()
  let optional ← eat .optionalDot
  if optional && (← typescript) && (← isSign .less) then
    let types ← typeArguments go
    let args ← arguments go
    return .inl (.value (b.call true args types))
  if ← eatIf (!noComputed) .lbracket then
    let key ← go.expressionIn
    expect .rbracket
    checkParent b
    return .inl (.value (← instantiated go (b.index optional key)))
  if (optional || !noCall) && (← isSign .lparen) then
    let args ← arguments go
    return .inl (.value (b.call optional args []))
  if ← (if optional then pure true else eat .dot) then
    let (name, pos) ← memberName
    checkParent b
    return .inl (.value (← instantiated go (b.member optional name pos)))
  if ← isSign .backquote then
    if let .value e := b then
      return .inl (.value (← taggedTemplate go e []))
  return .inr (← endSubscripts b noCall)

/-- All that follows a base. With `noCall`, calls are left to the surroundings; with `noComputed`,
no expressions in brackets are read. -/
def subscripts (go : Go text) (b : Base) (noCall noComputed : Bool) : P text Expr :=
  loop (subscript go noCall noComputed) b

/-! ## Decorators and heritage -/

/-- A decorator. -/
def decoratorRule (go : Go text) : P text Expr := do
  expect .atSign
  let e ← if ← eat .lparen then do
      let e ← go.expression
      expect .rparen
      pure e
    else do
      let id ← name
      subscripts go (.value (.ident id)) false true
  let types ← if (← typescript) && (← isSign .less) then typeArguments go else pure []
  if types.isEmpty && !(← isSign .lparen) then return e
  let args ← arguments go
  return .call e.pos e args types

/-- An entry of the list after `extends` or `implements`. -/
def heritageEntry (go : Go text) : P text (List Expr) := do
  let id ← word
  let e ← subscripts go (.value (.ident id)) true true
  if ← isSign .less then return e :: (← typeArguments go) else return [e]

/-- The list after `extends` or `implements`. -/
def heritage (go : Go text) : P text (List Expr) := do
  let entries ← collect do
    if (← isSign .lbrace) || (← isWord .kwImplements) || (← isWord .kwExtends) then return none
    let entry ← heritageEntry go
    unless ← eat .comma do
      unless (← isSign .lbrace) || (← isWord .kwImplements) || (← isWord .kwExtends) do
        expect .comma
    return some entry
  return entries.flatten

end Grammar

end ScriptLint.Syntax
