import ScriptLint.Syntax.Grammar.State

/-!
# Constructs that contain themselves

An expression holds expressions, a block holds statements, a type holds types. The constructs of
this kind are the *rules*. Each rule is written as a reader that is given the readers of all rules
for its parts; tying the knot, and with it the bound on how deeply constructs nest, is left to one
place.

## Main definitions

* `Rule`, `Rule.Out` — the rules, and what each of them yields
* `Go` — the readers of all rules
-/

namespace ScriptLint.Syntax.Grammar

/-- What an expression is read again as. -/
inductive Cover where
  /-- A parameter, which binds names. -/
  | binding
  /-- The target of an assignment. -/
  | target
  /-- A part of such a target. -/
  | element
  deriving DecidableEq, Repr

/-- The constructs that contain themselves. -/
inductive Rule where
  | assignment
  | unary
  /-- The operators that follow a first operand and bind more tightly than `least`. -/
  | binary (left : Expr) (least : Nat)
  /-- An expression that can be called or constructed, without its call. -/
  | callee
  /-- An object with its braces. -/
  | object
  /-- An element; `inExpr` if it is not itself inside an element. -/
  | element (inExpr : Bool)
  | decorator
  /-- An expression with its calls, without operators. -/
  | leftHand
  | statement (declarations : Bool)
  | item
  | pattern (noLet : Bool)
  | cover (kind : Cover) (value : Expr)
  | type
  | typeOperator

/-- What a rule yields. -/
abbrev Rule.Out : Rule → Type
  | assignment | unary | binary _ _ | callee | object | element _ | decorator | leftHand => Expr
  | statement _ | item => Stmt
  | pattern _ | cover _ _ => Pat
  | type | typeOperator => List Expr

/-- The readers of all rules, for a text. -/
abbrev Go (text : List Char) := (r : Rule) → P text r.Out

namespace Go

variable {text : List Char}

/-- An expression without a comma on its own level. -/
def assignment (go : Go text) : P text Expr := go .assignment

/-- An operand of a binary operator. -/
def unary (go : Go text) : P text Expr := go .unary

/-- The rest of a sequence of binary operators. -/
def binary (go : Go text) (left : Expr) (least : Nat) : P text Expr := go (.binary left least)

/-- An expression that can be called or constructed. -/
def callee (go : Go text) : P text Expr := go .callee

/-- An object with its braces. -/
def object (go : Go text) : P text Expr := go .object

/-- An element. -/
def element (go : Go text) (inExpr : Bool) : P text Expr := go (.element inExpr)

/-- An expression with its calls. -/
def leftHand (go : Go text) : P text Expr := go .leftHand

/-- A decorator. -/
def decorator (go : Go text) : P text Expr := go .decorator

/-- Decorators, as far as the dialect has them. -/
def decorators (go : Go text) : P text (List Expr) := do
  if !(← state).options.decorators then return []
  let start ← position
  let found ← collect do
    if ← isSign .atSign then return some (← go.decorator) else return none
  if !found.isEmpty && (← isWord .kwExport) && !(← typescript) then
    failAt .exportAfterDecorator start
  return found

/-- A statement, or also a declaration. -/
def statement (go : Go text) (declarations : Bool) : P text Stmt := go (.statement declarations)

/-- An item of a module or namespace. -/
def item (go : Go text) : P text Stmt := go .item

/-- A pattern that binds names. -/
def pattern (go : Go text) (noLet : Bool) : P text Pat := go (.pattern noLet)

/-- An expression, read again as a pattern. -/
def cover (go : Go text) (kind : Cover) (value : Expr) : P text Pat := go (.cover kind value)

/-- What a type mentions. -/
def type (go : Go text) : P text (List Expr) := go .type

/-- What a type without a binary operator mentions. -/
def typeOperator (go : Go text) : P text (List Expr) := go .typeOperator

/-- An expression, which may consist of several ones with commas between them. -/
def expression (go : Go text) : P text Expr := do
  let pos ← position
  let first ← go.assignment
  if ← isSign .comma then
    let more ← collect do
      if ← eat .comma then return some (← go.assignment) else return none
    return .group pos (first :: more)
  return first

/-- What the type after a colon mentions; the colon itself stands for the type. -/
def annotation (go : Go text) : P text (List Expr) := inType do
  let pos ← position
  expect .colon
  return .literal pos :: (← go.type)

/-- What the type after a colon mentions, if there is one. -/
def annotation? (go : Go text) : P text (List Expr) := do
  if (← typescript) && (← isSign .colon) then go.annotation else return []

/-- An expression in which the operator `in` is allowed. -/
def expressionIn (go : Go text) : P text Expr := allowIn go.expression

end Go

end ScriptLint.Syntax.Grammar
