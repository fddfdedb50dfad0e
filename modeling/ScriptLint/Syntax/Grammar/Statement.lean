import ScriptLint.Syntax.Grammar.Declaration

/-!
# Statements

## Main definitions

* `statementRule` — the rule for statements and declarations inside a block
* `ifStatement`, `forStatement`, `tryStatement`, … — the statements by their keyword
-/

namespace ScriptLint.Syntax.Grammar

variable {text : List Char}

/-- The body of a loop or branch. -/
def subStatement (go : Go text) : P text Stmt :=
  within ({ · with topLevel := false }) (go.statement false)

/-- The body of a loop. -/
def loopBody (go : Go text) : P text Stmt :=
  within ({ · with breakAllowed := true, continueAllowed := true }) (subStatement go)

/-- An expression in parentheses. -/
def condition (go : Go text) : P text Expr := do
  expect .lparen
  let e ← go.expressionIn
  expect .rparen
  return e

/-! ## Branches and jumps -/

/-- An `if` statement. -/
def ifStatement (go : Go text) (start : Nat) : P text Stmt := do
  bump
  let test ← condition go
  let yes ← subStatement go
  let no ← if ← eatWord .kwElse then some <$> subStatement go else pure none
  return .branch start test yes no

/-- A `break` or `continue` statement. -/
def jumpStatement (start : Nat) (isBreak : Bool) : P text Stmt := do
  bump
  let label ← if ← eatStatementEnd then pure none else do
    let id ← name
    expectStatementEnd
    pure (some id.name)
  let c ← context
  let labels := (← state).labels
  let unknown := label.any fun l => !labels.contains l
  if isBreak then
    if unknown then emit .breakLabel start
    else if !c.breakAllowed then emit .breakOutside start
  else if !c.continueAllowed then emit .continueTarget start
  else if unknown then emit .continueLabel start
  return .jump start (if isBreak then .break else .continue) none

/-- A `return` statement. Outside a function it is a fault in any case. -/
def returnStatement (go : Go text) (start : Nat) : P text Stmt := do
  let out ← caught do
    bump
    let value ← if ← atStatementEnd then pure none else some <$> go.expressionIn
    expectStatementEnd
    return value
  unless (← context).inFunction do emit .returnOutside start
  match out with
  | .ok value => return .jump start .return value
  | .error fault => stop fault

/-- A `throw` statement. -/
def throwStatement (go : Go text) (start : Nat) : P text Stmt := do
  bump
  if ← lineBreak then fail .throwLineBreak
  let value ← go.expressionIn
  expectStatementEnd
  return .jump start .throw (some value)

/-! ## Loops -/

/-- What stands in the parentheses of a `for` statement. -/
inductive LoopHead where
  | steps (init : Stmt) (test update : Option Expr)
  | each (isOf : Bool) (head : Stmt) (value : Expr)

/-- The test and the update of a loop, after the first semicolon. -/
def loopSteps (go : Go text) (init : Stmt) : P text LoopHead := do
  let test ← if ← eat .semi then pure none else do
    let test ← go.expressionIn
    let _ ← eat .semi
    pure (some test)
  let update ← if ← isSign .rparen then pure none else some <$> go.expressionIn
  return .steps init test update

/-- The value that a loop goes over, from `in` or `of` on. -/
def loopOver (go : Go text) (head : Stmt) : P text LoopHead := do
  let isOf ← isWord .kwOf
  bump
  let value ← if isOf then allowIn go.assignment else go.expressionIn
  return .each isOf head value

/-- The faults of the variable that a loop binds to each element. -/
def checkLoopVariables (pats : List Pat) : P text Unit := do
  match pats with
  | [.valued pos pat _] =>
    emit .loopInitializer pos
    if ← typescript then checkType pat
  | [pat] => if ← typescript then checkType pat
  | _ => (pats.drop 1).forM fun pat => emit .severalBindings pat.pos
where
  checkType : Pat → P text Unit
    | .name id (_ :: _) => emit .typedLoopTarget id.pos
    | .array pos _ (_ :: _) | .object pos _ (_ :: _) => emit .typedLoopTarget pos
    | _ => pure ()

/-- Whether the word after `let` is what it declares. -/
def followsLet : Token → Bool
  | .word _ none => true
  | .word _ (some k) => !k.isReserved
  | .punct p => p == .lbrace || p == .lbracket
  | _ => false

/-- Whether a declaration of variables starts here. -/
def startsVariables : P text Bool := do
  match (← token).keyword? with
  | some .kwConst | some .kwVar => return true
  | some .kwLet => return followsLet (← peek)
  | _ => return false

/-- Whether an expression is the word `using`, maybe awaited. -/
def isUsing : Expr → Bool
  | .ident id => id.name == "using"
  | .await _ (.ident id) => id.name == "using"
  | _ => false

/-- What stands in the parentheses of a `for` statement. -/
def loopHead (go : Go text) : P text LoopHead := do
  let start ← position
  if ← startsVariables then
    let decl ← variableDeclaration go start true
    if ← atLoopWord then
      match decl with
      | .variables _ _ _ pats => checkLoopVariables pats
      | _ => pure ()
      return ← loopOver go decl
    expect .semi
    return ← loopSteps go decl
  if ← eat .semi then return ← loopSteps go (.empty start)
  let init ← within ({ · with inAllowed := false }) go.expression
  let next ← peek
  if (← typescript) && isUsing init && !(← isWord .kwOf) &&
      (next.isKeyword .kwOf || next.isKeyword .kwIn) then
    let id ← bindingName false
    unless ← isWord .kwOf do emit .usingInLoop start
    return ← loopOver go (.variables start .using false [.name id []])
  if ← atLoopWord then
    let isIn ← isWord .kwIn
    let pat ← go.cover .target init
    if (← typescript) && isIn then
      match pat with
      | .name _ _ | .target _ => pure ()
      | pat => emit .loopTargetPattern pat.pos
    return ← loopOver go (.target pat)
  expect .semi
  checkAssigned start
  loopSteps go (.expr start init)

/-- A `for` statement. -/
def forStatement (go : Go text) (start : Nat) : P text Stmt := do
  bump
  let awaitPos ← position
  let isAwait ← eatWord .kwAwait
  expect .lparen
  let head ← within ({ · with inLoopHead := true, inAwaitLoopHead := isAwait }) (loopHead go)
  expect .rparen
  let body ← loopBody go
  match head with
  | .steps init test update =>
    if isAwait then failAt .forAwaitNotOf awaitPos
    return .forLoop start init test update body
  | .each isOf target value =>
    if isAwait && !isOf then failAt .forAwaitNotOf awaitPos
    return .forEach start target value body

/-- A `while` statement. -/
def whileStatement (go : Go text) (start : Nat) : P text Stmt := do
  bump
  let test ← condition go
  return .loop start test (← loopBody go)

/-- A `do` statement. -/
def doStatement (go : Go text) (start : Nat) : P text Stmt := do
  bump
  let body ← loopBody go
  expectWord .kwWhile
  let test ← condition go
  let _ ← eatStatementEnd
  return .loop start test body

/-- A `with` statement, which is always a fault. -/
def withStatement (go : Go text) (start : Nat) : P text Stmt := do
  if ← typescript then emit .withUnsupported start
  emit .withStatement start
  bump
  let value ← condition go
  let body ← within ({ · with inFunction := true }) (subStatement go)
  return .loop start value body

/-! ## Switches -/

/-- A case of a switch; `defaulted` if there was a default case before. -/
def switchCase (go : Go text) (defaulted : Bool) : P text (Stmt × Bool) := do
  let pos ← position
  let isCase ← isWord .kwCase
  bump
  let test ← if isCase then some <$> go.expressionIn else do
    if defaulted then fail .severalDefaults
    pure none
  expect .colon
  let body ← collect do
    if (← isWord .kwCase) || (← isWord .kwDefault) || (← isSign .rbrace) then return none
    return some (← within ({ · with topLevel := false }) (go.statement true))
  return (.case pos test body, defaulted || !isCase)

/-- A `switch` statement. -/
def switchStatement (go : Go text) (start : Nat) : P text Stmt := do
  bump
  let value ← condition go
  expect .lbrace
  let cases ← within ({ · with breakAllowed := true }) <|
    loop (fun (acc, defaulted) => do
      if (← isWord .kwCase) || (← isWord .kwDefault) then
        let (c, defaulted) ← switchCase go defaulted
        return .inl (c :: acc, defaulted)
      return .inr acc.reverse) (([], false) : List Stmt × Bool)
  expect .rbrace
  return .switch start value cases

/-! ## Attempts -/

/-- The handler of an attempt, if there is one. -/
def handler? (go : Go text) : P text (Option Stmt) := do
  let pos ← position
  if !(← eatWord .kwCatch) then return none
  let param ← if ← eat .lparen then do
      let pat ← go.pattern false
      let pat := pat.annotate (← go.annotation?)
      expect .rparen
      pure [pat]
    else pure []
  return some (.handler pos param (← block go))

/-- The block that follows an attempt in any case, if there is one. -/
def finalizer? (go : Go text) : P text (Option Stmt) := do
  if ← eatWord .kwFinally then some <$> block go else return none

/-- A `try` statement. -/
def tryStatement (go : Go text) (start : Nat) : P text Stmt := do
  bump
  let body ← block go
  let after ← position
  let handler ← handler? go
  let finalizer ← finalizer? go
  if handler.isNone && finalizer.isNone then emit .semicolonExpected after
  return .attempt start body handler finalizer

/-- A handler without an attempt, which is a fault. -/
def strayHandler (go : Go text) (start : Nat) : P text Stmt := do
  emit .semicolonExpected start
  let _ ← caught (handler? go)
  let _ ← caught (finalizer? go)
  return .expr start (.literal start)

/-! ## Labels and expressions -/

/-- The statement after a label. -/
def labelledStatement (go : Go text) (label : Ident) : P text Stmt :=
  within ({ · with breakAllowed := true, usingAllowed := false }) do
    let known := (← state).labels.filter (· == label.name)
    update fun s => { s with labels := s.labels ++ [label.name] }
    let body ← if ← isWord .kwFunction then do
        let start ← position
        let fn ← functionDecl go start []
        emit .labelledFunction start
        pure fn
      else subStatement go
    known.forM fun _ => emit (.duplicateLabel label.name) label.pos
    update fun s => { s with labels := s.labels.erase label.name }
    return .labelled label.pos label.name body

/-- A statement that starts with an expression. -/
def expressionStatement (go : Go text) (start : Nat) (decorators : List Expr) : P text Stmt := do
  let e ← go.expressionIn
  match e with
  | .ident id =>
    if ← eat .colon then return ← labelledStatement go id
    if id.name == "interface" && (← lineBreak) then
      emit (.strictName id.name) id.pos
      let _ ← eatStatementEnd
      return .expr start e
    if ← typescript then
      match ← declAfterWord? go decorators id with
      | some decl => return decl
      | none => pure ()
      if ← eatWordIf (["public", "static", "abstract"].contains id.name) .kwInterface then
        emit .reservedTypeName id.pos
        return ← interfaceDecl go id.pos
  | _ => checkAssigned start
  if ← eatStatementEnd then return .expr start e
  if Token.isOperator (← token) then
    emit .semicolonExpected (← position)
    return .expr start (← binaryRule go e 0)
  fail .statementEndExpected

/-! ## Statements by their first word -/

/-- A statement that starts with a word of the dialect with types, if it is one. -/
def typedStatement? (go : Go text) (start : Nat) : P text (Option Stmt) := do
  if !(← typescript) then return none
  let next ← peek
  match (← token).keyword? with
  | some .kwConst =>
    if next.isKeyword .kwEnum then
      bump
      bump
      return some (← enumDecl go start)
    return none
  | some k =>
    if !next.isWord || (← peekLineBreak) then return none
    match k with
    | .kwInterface => bump; return some (← interfaceDecl go start)
    | .kwType => bump; return some (← aliasDecl go start)
    | .kwEnum => bump; return some (← enumDecl go start)
    | _ => return none
  | none => return none

/-- A statement that starts with `await using`, if it is one. -/
def awaitUsing? (go : Go text) (start : Nat) : P text (Option Stmt) := do
  if !(← peek).isKeyword .kwUsing then return none
  whenFound do
    bump
    usingDecl? go start

/-- Whether `async` starts a function here. -/
def startsAsyncFunction : P text Bool := do
  return (← isWord .kwAsync) && (← peek).isKeyword .kwFunction && !(← peekLineBreak)

/-- A statement after its decorators; `declarations` if it may also be a declaration. -/
def statementBody (go : Go text) (start : Nat) (declarations : Bool) (decorators : List Expr) :
    P text Stmt := do
  match ← typedStatement? go start with
  | some s => return s
  | none =>
    let refuse : P text Unit := do
      unless declarations do emit .declarationNotAllowed (← position)
    match (← token) with
    | .punct .lbrace => block go
    | .punct .semi => bump; return .empty start
    | .word _ (some k) =>
      match k with
      | .kwBreak => jumpStatement start true
      | .kwContinue => jumpStatement start false
      | .kwDebugger => bump; expectStatementEnd; return .expr start (.literal start)
      | .kwDo => doStatement go start
      | .kwFor => forStatement go start
      | .kwFunction => refuse; functionDecl go start decorators
      | .kwClass => refuse; classDecl go start decorators false
      | .kwIf => ifStatement go start
      | .kwReturn => returnStatement go start
      | .kwSwitch => switchStatement go start
      | .kwThrow => throwStatement go start
      | .kwCatch | .kwFinally => strayHandler go start
      | .kwTry => tryStatement go start
      | .kwWith => withStatement go start
      | .kwWhile => whileStatement go start
      | .kwVar => variableDeclaration go start false
      | .kwConst =>
        if declarations then variableDeclaration go start false
        else expressionStatement go start decorators
      | .kwLet =>
        if declarations && followsLet (← peek) then variableDeclaration go start false
        else expressionStatement go start decorators
      | .kwUsing =>
        if declarations then
          match ← usingDecl? go start with
          | some s => return s
          | none => expressionStatement go start decorators
        else expressionStatement go start decorators
      | .kwAwait =>
        match ← awaitUsing? go start with
        | some s => return s
        | none => expressionStatement go start decorators
      | _ =>
        if ← startsAsyncFunction then functionDecl go start decorators
        else expressionStatement go start decorators
    | _ => expressionStatement go start decorators

/-- Surroundings of a statement. -/
def statementContext (c : Context) : Context :=
  { c with colonExpected := false, usingAllowed := true }

/-- A statement or declaration inside a block. -/
def statementRule (go : Go text) (declarations : Bool) : P text Stmt := do
  let start ← position
  let decorators ← go.decorators
  if (← isWord .kwExport) || (← isWord .kwImport) then
    let next ← peek
    if (← isWord .kwImport) && (next.isPunct .lparen || next.isPunct .dot) then
      let e ← go.expression
      let _ ← eatStatementEnd
      return .expr start e
    fail .nestedModuleItem
  within statementContext (statementBody go start declarations decorators)

end ScriptLint.Syntax.Grammar
