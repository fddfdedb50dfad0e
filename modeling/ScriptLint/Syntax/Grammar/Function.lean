import ScriptLint.Syntax.Grammar.Type

/-!
# Blocks and functions

A function is its parameters, what it yields and its body. The body is read in surroundings of its
own: jumps cannot leave it, and `await` and `yield` mean what the function's kind says.

## Main definitions

* `block` — statements in braces
* `functionRest` — a function from its type parameters on
* `arrowBody` — the body of an arrow function
* `functionDecl`, `functionValue` — functions that start with their keyword
-/

namespace ScriptLint.Syntax.Grammar

variable {text : List Char}

/-! ## Blocks -/

/-- Statements up to the closing brace, which is read. A missing brace is a fault from which reading
goes on. -/
def statementsToBrace (statement : P text Stmt) : P text (List Stmt) := do
  let body ← collect do
    if (← token) == .eof then
      emit (.expected Punct.rbrace.text Token.eof.describe) (← position)
      return none
    if ← isSign .rbrace then return none
    return some (← statement)
  let _ ← eat .rbrace
  return body

/-- Statements in braces. -/
def block (go : Go text) : P text Stmt := do
  let pos ← position
  expect .lbrace
  let body ← within ({ · with topLevel := false }) (statementsToBrace (go.statement true))
  return .block pos body

/-- Where the directive for strict code stands at the start of a block. -/
def strictDirective? : List Stmt → Option Nat
  | .expr pos (.text _ value) :: more =>
    if value == "use strict" then some pos else strictDirective? more
  | _ => none

/-- The fault of a function that turns on strict code but has other parameters than names. -/
def checkDirective (simple : Bool) : Stmt → P text Unit
  | .block _ body =>
    match strictDirective? body with
    | some pos => if simple then pure () else emit .illegalUseStrict pos
    | none => pure ()
  | _ => pure ()

/-! ## Bodies -/

/-- Reads the body of a function. -/
def inBody {α : Type} (isAsync isGenerator isArrow : Bool) (body : P text α) : P text α := do
  if (← context).ambient && (← typescript) && (← isSign .lbrace) then
    emit .ambientBody (← position)
  let labels := (← state).labels
  let assigned := (← state).assigned
  update ({ · with labels := [] })
  let value ← within (fun c => { c with
    inAsync := isAsync
    inGenerator := isGenerator
    inFunction := true
    inMethodScope := c.inMethodScope || !isArrow
    inStaticBlock := false
    inClassField := c.inClassField && isArrow
    breakAllowed := false
    continueAllowed := false }) body
  update ({ · with labels := labels, assigned := assigned })
  return value

/-- A body in braces. Where types are read it may be left out. -/
def blockBody? (go : Go text) (isAsync isGenerator simple : Bool) : P text (Option Stmt) :=
  inBody isAsync isGenerator false do
    if (← typescript) && !(← isSign .lbrace) then
      if ← eatStatementEnd then return none
    let body ← allowIn (block go)
    checkDirective simple body
    return some body

/-- The body of an arrow function: a block or an expression. -/
def arrowBody (go : Go text) (isAsync simple : Bool) : P text Stmt :=
  inBody isAsync false true do
    if ← isSign .lbrace then
      let body ← allowIn (block go)
      checkDirective simple body
      return body
    let value ← go.assignment
    return .expr value.pos value

/-! ## Functions -/

/-- The faults of default values in a function without body. -/
def checkSignature (params : List Pat) : P text Unit :=
  params.forM fun pat => if pat.isValued then emit .signatureInitializer pat.pos else pure ()

/-- A function from its type parameters on. -/
def functionRest (go : Go text) (decorators : List Expr) (isAsync isGenerator : Bool)
    (params : P text (List Pat)) : P text Function :=
  within ({ · with inAsync := isAsync, inGenerator := isGenerator }) do
    let own ← typeParameters? go false
    expect .lparen
    let params ← within ({ · with inParameters := true, inFunction := false }) params
    expect .rparen
    let result ← if (← typescript) && (← isSign .colon) then resultType go .colon else pure []
    let body ← blockBody? go isAsync isGenerator (params.all Pat.isSimple)
    if body.isNone then checkSignature params
    return .mk isAsync params decorators body (own ++ result)

/-- Surroundings of a function of its own. -/
def functionContext (c : Context) : Context :=
  { c with superAllowed := false, inClassField := false, colonExpected := false }

/-- A function from the keyword `function` on, with the name that `named` reads. -/
def functionFrom {α : Type} (go : Go text) (decorators : List Expr) (isAsync : Bool)
    (named : Bool → P text α) : P text (α × Function) := do
  expectWord .kwFunction
  let isGenerator ← eat .times
  within functionContext do
    let id ← named isGenerator
    let fn ← functionRest go decorators isAsync isGenerator (parameters go)
    return (id, fn)

/-- Reads `async` if it stands before `function`. -/
def eatAsync : P text Bool := do
  if (← isWord .kwAsync) && (← peek).isKeyword .kwFunction then
    bump
    return true
  return false

/-- The declaration of a function, which may start with `async`. -/
def functionDecl (go : Go text) (start : Nat) (decorators : List Expr) : P text Stmt := do
  let isAsync ← eatAsync
  let (id, fn) ← functionFrom go decorators isAsync fun _ => bindingName false
  return .function start false id fn

/-- The name of a function or class that may have none. -/
def optionalName (noLet : Bool) : P text (Option Ident) := do
  if ← isReference then return some (← bindingName noLet) else return none

/-- A function as a value, which may start with `async`. -/
def functionValue (go : Go text) (start : Nat) (decorators : List Expr) : P text Expr := do
  let isAsync ← eatAsync
  let (id, fn) ← functionFrom go decorators isAsync fun isGenerator =>
    within ({ · with inAsync := isAsync, inGenerator := isGenerator }) (optionalName false)
  match fn with
  | .mk _ _ _ (some _) _ => return .function start id fn
  | _ => unexpected Punct.lbrace.text

end ScriptLint.Syntax.Grammar
