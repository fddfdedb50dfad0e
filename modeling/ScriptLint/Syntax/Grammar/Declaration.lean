import ScriptLint.Syntax.Grammar.Expression

/-!
# Declarations

Variables, and the declarations that only the dialect with types has: interfaces, aliases,
enumerations, namespaces, and ambient ones, which state that something exists elsewhere.

## Main definitions

* `variableDeclaration` — declarations of variables
* `usingDecl?` — declarations of values that are disposed of at the end of their block
* `interfaceDecl`, `aliasDecl`, `enumDecl`, `namespaceDecl` — declarations of types and namespaces
* `typedDecl?`, `ambientDecl?` — the declarations that a word can start
-/

namespace ScriptLint.Syntax.Grammar

variable {text : List Char}

/-! ## Variables -/

/-- The faults of properties with a default value, from `start` on, that became no part of a
pattern. -/
def checkAssigned (start : Nat) : P text Unit := do
  let found := (← state).assigned.reverse.filter (start ≤ ·)
  update fun s => { s with assigned := s.assigned.filter (· < start) }
  found.forM (emit .assignedProperty ·)

/-- Whether the current token is `in` or `of`. -/
def atLoopWord : P text Bool := do
  return (← isWord .kwIn) || (← isWord .kwOf)

/-- A variable with its type and its value, as a pattern. -/
def declarator (go : Go text) (kind : VarKind) (inLoop : Bool) : P text Pat := do
  let pos ← position
  let pat ← go.pattern (kind == .let || kind == .const)
  if (← typescript) && pat.isName then let _ ← eat .bang
  let pat := pat.annotate (← go.annotation?)
  if inLoop && (← atLoopWord) then return pat
  if ← eat .eq then
    let start ← position
    let value ← go.assignment
    checkAssigned start
    return .valued pos pat value
  if (← context).ambient then return pat
  if kind == .const && !inLoop then
    emit .constWithoutValue pos
    return pat
  match pat with
  | .name _ _ => return pat
  | _ => failAt .patternWithoutValue pos

/-- Goes on after a declaration that has no end where it should, up to an end. -/
def skipToEnd (go : Go text) : P text Unit := do
  let _ ← caught go.expression
  loop (fun () => do
    if ← eatStatementEnd then return .inr ()
    bump
    match ← token with
    | .invalid _ => return .inr ()
    | _ => return .inl ()) ()

/-- The variables of a declaration after its keyword, which stands at `keyword`. -/
def declarators (go : Go text) (kind : VarKind) (inLoop : Bool) (keyword : Nat) :
    P text (List Pat) :=
  within (fun c => { c with inAllowed := kind != .var || !inLoop }) <|
    loop (fun acc => do
      if (← isSign .semi) || (← token) == .eof then
        let s ← state
        emit .namelessDeclaration (if s.previous == keyword then s.previousEnd else s.previous)
        return .inr acc.reverse
      let pat ← declarator go kind inLoop
      if ← eat .comma then return .inl (pat :: acc) else return .inr (pat :: acc).reverse) []

/-- The declaration of variables, which starts with its keyword. -/
def variableDeclaration (go : Go text) (start : Nat) (inLoop : Bool) : P text Stmt := do
  let keyword ← position
  let kind : VarKind := match (← token).keyword? with
    | some .kwVar => .var
    | some .kwLet => .let
    | _ => .const
  bump
  let pats ← declarators go kind inLoop keyword
  unless inLoop do
    unless ← eatStatementEnd do
      emit .semicolonExpected (← position)
      skipToEnd go
  return .variables start kind false pats

/-- The faults of a declaration with `using`. -/
def checkUsing (start : Nat) (pats : List Pat) : P text Unit := do
  unless ← typescript do emit .usingDisabled start
  unless (← context).usingAllowed do emit .usingNotAllowed start
  pats.forM fun pat => do
    match pat with
    | .valued _ (.name _ _) _ => pure ()
    | .valued _ _ _ => emit .usingPattern start
    | .name _ _ => emit .usingWithoutValue start
    | _ =>
      emit .usingPattern start
      emit .usingWithoutValue start

/-- A declaration with `using`, if the word, which is the current token, starts one. -/
def usingDecl? (go : Go text) (start : Nat) : P text (Option Stmt) := do
  if (← peekLineBreak) || !Token.isReference (← peek) then return none
  bump
  let pats ← declarators go .using false start
  checkUsing start pats
  expectStatementEnd
  return some (.variables start .using false pats)

/-! ## Types -/

/-- Names that no interface may have. -/
def isBuiltInType (name : String) : Bool :=
  name ∈ ["string", "null", "number", "object", "any", "unknown", "boolean", "bigint", "symbol",
    "void", "never", "intrinsic"]

/-- An interface after its keyword. -/
def interfaceDecl (go : Go text) (start : Nat) : P text Stmt := do
  let id ← word
  if isBuiltInType id.name then emit .reservedTypeName id.pos
  let own ← typeParameters? go true
  let bases ← if ← eatWord .kwExtends then heritage go else pure []
  if ← isWord .kwExtends then
    emit .extendsTwice (← position)
    loop (fun () => do
      if (← token) == .eof || (← isSign .lbrace) then return .inr ()
      bump
      return .inl ()) ()
  let members ← inType (typeMembers go)
  return .type start id (own ++ bases ++ members)

/-- A type alias after its keyword. -/
def aliasDecl (go : Go text) (start : Nat) : P text Stmt := do
  let id ← word
  let own ← typeParameters? go true
  let type ← inType do
    expect .eq
    go.type
  expectStatementEnd
  return .type start id (own ++ type)

/-- The name of a member of an enumeration. -/
def enumMemberName (go : Go text) : P text String := do
  let pos ← position
  match ← token with
  | .string name _ =>
    bump
    return name
  | .number digits =>
    bump
    emit .numericEnumName pos
    return digits
  | .punct .lbracket =>
    bump
    let _ ← go.expression
    emit .computedEnumName pos
    expect .rbracket
    return ""
  | _ => return (← word).name

/-- A member of an enumeration: its name and its value. -/
def enumMember (go : Go text) : P text (List Expr) := do
  let pos ← position
  let name ← enumMemberName go
  if ← eat .eq then return [.label pos name, ← go.assignment]
  unless (← isSign .comma) || (← isSign .rbrace) do emit .semicolonExpected (← position)
  return [.label pos name]

/-- An enumeration after its keyword. -/
def enumDecl (go : Go text) (start : Nat) : P text Stmt := do
  let id ← word
  expect .lbrace
  let members ← collect do
    if ← isSign .rbrace then return none
    let member ← enumMember go
    unless ← eat .comma do
      unless ← isSign .rbrace do expect .comma
    return some member
  expect .rbrace
  return .type start id members.flatten

/-! ## Namespaces -/

/-- The items of a namespace in braces. -/
def namespaceBody (go : Go text) : P text (List Stmt) := do
  expect .lbrace
  within ({ · with topLevel := false }) (statementsToBrace go.item)

/-- A namespace from its name on; `a.b` is a namespace in another one. -/
def namespaceDecl (go : Go text) (start : Nat) : P text Stmt := do
  let _ ← word
  let inner ← collect do
    if ← eat .dot then
      let _ ← word
      return some ()
    return none
  let body ← namespaceBody go
  return inner.foldl (fun s _ => .namespaced start [s]) (.namespaced start body)

/-- A module that exists elsewhere, from its name on. -/
def externalModule (go : Go text) (start : Nat) : P text Stmt := do
  bump
  if ← isSign .lbrace then return .namespaced start (← namespaceBody go)
  expectStatementEnd
  return .namespaced start []

/-! ## Declarations that a word starts -/

/-- The declaration that a word starts, which was read unless `onWord` is set. -/
def typedDecl? (go : Go text) (start : Nat) (decorators : List Expr) (word : String)
    (onWord : Bool) : P text (Option Stmt) := do
  let bumpWord : P text Unit := if onWord then bump else pure ()
  match word with
  | "abstract" =>
    if onWord || ((← isWord .kwClass) && !(← lineBreak)) then
      bumpWord
      return some (← classDecl go start decorators true)
  | "enum" =>
    if onWord || (← isReference) then
      bumpWord
      return some (← enumDecl go start)
  | "interface" =>
    if onWord || (← isReference) then
      bumpWord
      return some (← interfaceDecl go start)
  | "module" =>
    unless ← lineBreak do
      bumpWord
      match ← token with
      | .string _ _ => return some (← externalModule go start)
      | _ => if onWord || (← isReference) then return some (← namespaceDecl go start)
  | "namespace" =>
    if onWord || (← isReference) then
      bumpWord
      return some (← namespaceDecl go start)
  | "type" =>
    if onWord || (!(← lineBreak) && (← isReference)) then
      bumpWord
      return some (← aliasDecl go start)
  | _ => pure ()
  return none

/-- A declaration as an ambient one. -/
def asAmbient : Stmt → Stmt
  | .variables pos kind _ pats => .variables pos kind true pats
  | .function pos _ id fn => .function pos true id fn
  | .classDecl pos _ id cls => .classDecl pos true id cls
  | s => s

/-- The declaration after `declare`, if there is one. -/
def ambientDecl? (go : Go text) (start : Nat) (decorators : List Expr) : P text (Option Stmt) := do
  if (← context).ambient then emit .nestedDeclare start
  within ({ · with ambient := true }) do
    let found ← match ← token with
      | .word _ (some .kwFunction) => some <$> functionDecl go start decorators
      | .word _ (some .kwClass) => some <$> classDecl go start decorators false
      | .word _ (some .kwConst) =>
        if (← peek).isKeyword .kwEnum then
          bump
          bump
          some <$> enumDecl go start
        else some <$> variableDeclaration go start false
      | .word _ (some .kwVar) | .word _ (some .kwLet) => some <$> variableDeclaration go start false
      | .word _ (some .kwGlobal) => some <$> externalModule go start
      | .word name _ => typedDecl? go start decorators name true
      | _ => pure none
    return found.map asAmbient

/-- The declaration that a word, which was read as an expression, turns out to start. -/
def declAfterWord? (go : Go text) (decorators : List Expr) (id : Ident) : P text (Option Stmt) := do
  match id.name with
  | "declare" => ambientDecl? go id.pos decorators
  | "global" =>
    if ← isSign .lbrace then return some (.namespaced id.pos (← namespaceBody go)) else return none
  | name => typedDecl? go id.pos decorators name false

end ScriptLint.Syntax.Grammar
