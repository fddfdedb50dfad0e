import ScriptLint.Syntax.Grammar.Statement

/-!
# Imports, exports and other items

## Main definitions

* `importItem`, `exportItem` — import and export declarations
* `itemRule` — the rule for items of a module or namespace
-/

namespace ScriptLint.Syntax.Grammar

/-- The name of an export: a word or a string. -/
inductive ExportName where
  | word (id : Ident)
  | text (value : String) (pos : Nat)

/-- The name of an export and its place. -/
def ExportName.ident : ExportName → Ident
  | word id => id
  | text value pos => ⟨value, pos⟩

variable {text : List Char}

/-- The name of an export. -/
def exportName : P text ExportName := do
  match ← token with
  | .string value _ =>
    let pos ← position
    bump
    return .text value pos
  | .word _ _ => return .word (← word)
  | _ => unexpected "identifier or string"

/-- The attributes after the name of a module, if there are some. -/
def importAttributes (go : Go text) : P text (Option Expr) := do
  if !(← lineBreak) && ((← isWord .kwAssert) || (← isWord .kwWith)) then
    bump
    return some (← objectLiteral go)
  return none

/-- The name of a module. -/
def moduleName : P text String := do
  match ← token with
  | .string value _ => bump; return value
  | _ => unexpected "a string literal"

/-- The module that follows `from` and its attributes, up to the end of the declaration. -/
def fromClause (go : Go text) : P text (String × Option Expr) := do
  expectWord .kwFrom
  let source ← moduleName
  let attributes ← importAttributes go
  expectStatementEnd
  return (source, attributes)

/-! ## Imports -/

/-- The entry of an import list that starts with the word `type`, as far as that word is a modifier
or the rest of the entry makes it the imported name. -/
def typedSpecifier (pos : Nat) (orig : Ident) (typeOnly : Bool) :
    P text (ImportSpecifier ⊕ Ident) := do
  let modified : P text Unit := if typeOnly then emit .typeOnImport orig.pos else pure ()
  let second ← word
  if second.name != "as" then
    modified
    return .inr second
  if !(← token).isWord then
    modified
    return .inl ⟨pos, .named none, second, true⟩
  let third ← bindingName false
  if third.name != "as" then return .inl ⟨pos, .named (some orig.name), third, false⟩
  if (← token).isWord then
    let binding ← bindingName false
    modified
    return .inl ⟨pos, .named (some second.name), binding, true⟩
  return .inl ⟨pos, .named (some orig.name), third, false⟩

/-- An entry of an import list from its name on. -/
def namedSpecifier (pos : Nat) (orig : Ident) (typeOnly : Bool) : P text ImportSpecifier := do
  if ← eatWord .kwAs then
    let binding ← bindingName false
    return ⟨pos, .named (some orig.name), binding, typeOnly⟩
  if !Token.isReference (.word orig.name (Keyword.ofChars? orig.name.toList)) then
    failAt .reservedImport orig.pos
  return ⟨pos, .named none, orig, typeOnly⟩

/-- An entry of an import list; `typeOnly` if the declaration imports types only. -/
def importSpecifier (typeOnly : Bool) : P text ImportSpecifier := do
  let pos ← position
  match ← exportName with
  | .text value place =>
    unless ← eatWord .kwAs do failAt (.stringImportBinding value) place
    let binding ← bindingName false
    return ⟨pos, .named (some value), binding, false⟩
  | .word orig =>
    if (← typescript) && orig.name == "type" && (← token).isWord then
      match ← typedSpecifier pos orig typeOnly with
      | .inl specifier => return specifier
      | .inr orig => namedSpecifier pos orig true
    else namedSpecifier pos orig false

/-- What an `import x = …` declaration mentions, from the equals sign on. -/
def importEquals (start : Nat) : P text Stmt := do
  expect .eq
  if (← isWord .kwRequire) && (← peek).isPunct .lparen then
    bump
    bump
    let _ ← moduleName
    expect .rparen
    expectStatementEnd
    return .mention start []
  let id ← entityName
  expectStatementEnd
  return .mention start [.ident id]

/-- The first name of an import declaration, and whether only types are imported. The word `type`
can be either. -/
def importStart : P text (Option Ident × Bool) := do
  if !(← isReference) then return (none, false)
  let first ← bindingName false
  if !(← typescript) || first.name != "type" then return (some first, false)
  if (← isSign .lbrace) || (← isSign .times) then return (none, true)
  if ← isReference then
    let next ← peek
    if !(← isWord .kwFrom) || next.isKeyword .kwFrom then
      return (some (← bindingName false), true)
    if next.isPunct .eq then return (some (← word), true)
  return (some first, false)

/-- The names in an import declaration after its default one. -/
def importNames (typeOnly : Bool) : P text (List ImportSpecifier) := do
  let pos ← position
  if ← eat .times then
    expectWord .kwAs
    let binding ← bindingName false
    return [⟨pos, .namespace, binding, false⟩]
  if ← eat .lbrace then
    let specifiers ← commaList .rbrace (importSpecifier typeOnly)
    expect .rbrace
    return specifiers
  return []

/-- An import declaration. -/
def importItem (go : Go text) (start : Nat) : P text Stmt := do
  bump
  match ← token with
  | .string source _ =>
    bump
    let attributes ← importAttributes go
    expectStatementEnd
    return .imported ⟨start, source, false, []⟩ attributes
  | _ =>
    let (first, typeOnly) ← importStart
    if first.isSome && (← typescript) && (← isSign .eq) then return ← importEquals start
    if first.isSome then
      unless ← isWord .kwFrom do expect .comma
    let names ← importNames typeOnly
    let (source, attributes) ← fromClause go
    let own : List ImportSpecifier := match first with
      | some id => [⟨id.pos, .default, id, false⟩]
      | none => []
    return .imported ⟨start, source, typeOnly, own ++ names⟩ attributes

/-! ## Export lists -/

/-- An entry of an export list, with the name it exports. -/
structure ExportEntry where
  orig : ExportName
  exported : Option ExportName

/-- The rest of an entry of an export list. -/
def exportRest (orig : ExportName) : P text ExportEntry := do
  if ← eatWord .kwAs then return ⟨orig, some (← exportName)⟩ else return ⟨orig, none⟩

/-- An entry of an export list; `typeOnly` if the declaration exports types only. -/
def exportEntry (typeOnly : Bool) : P text ExportEntry := do
  let orig ← exportName
  match orig with
  | .text _ _ => exportRest orig
  | .word id =>
    if (← typescript) && id.name == "type" && (← token).isWord then
      let modified : P text Unit := if typeOnly then emit .typeOnExport id.pos else pure ()
      let second ← word
      if second.name != "as" then
        modified
        return ← exportRest (.word second)
      if !(← token).isWord then
        modified
        return ⟨.word second, none⟩
      let third ← word
      if third.name != "as" then return ⟨orig, some (.word third)⟩
      if (← token).isWord then
        modified
        return ⟨.word second, some (.word (← word))⟩
      return ⟨orig, some (.word third)⟩
    exportRest orig

/-- The entry as it is kept. -/
def ExportEntry.specifier (e : ExportEntry) : ExportSpecifier where
  binding := match e.orig with
    | .word id => some id
    | .text _ _ => none
  exported := (e.exported.getD e.orig).ident

/-- The faults of an export list without `from`. -/
def checkExports (entries : List ExportEntry) : P text Unit :=
  entries.forM fun e => match e.orig with
    | .word id =>
      match Keyword.ofChars? id.name.toList with
      | some k =>
        if k.isReserved then emit (.expected "from" id.name) id.pos else pure ()
      | none => pure ()
    | .text _ pos => emit .stringExportBinding pos

/-- An export list with its braces. -/
def exportList (go : Go text) (start : Nat) (typeOnly : Bool) : P text Stmt := do
  expect .lbrace
  let entries ← commaList .rbrace (exportEntry typeOnly)
  expect .rbrace
  let specifiers := entries.map ExportEntry.specifier
  if ← isWord .kwFrom then
    let (source, attributes) ← fromClause go
    return .exportList start specifiers (some source) attributes
  checkExports entries
  let _ ← eatStatementEnd
  return .exportList start specifiers none none

/-- An export of all that another module exports, from the star on. If all of it gets one name, that
name is the only entry of a list. -/
def exportStar (go : Go text) (start : Nat) : P text Stmt := do
  bump
  if ← eatWord .kwAs then
    let name ← exportName
    let (source, attributes) ← fromClause go
    return .exportList start [⟨none, name.ident⟩] (some source) attributes
  let (_, attributes) ← fromClause go
  return .exportAll start attributes

/-! ## Exports of declarations -/

/-- What follows `export default`. -/
def exportDefault (go : Go text) (start : Nat) (decorators : List Expr) : P text Stmt := do
  let valueStart ← position
  let late ← go.decorators
  if !late.isEmpty && !decorators.isEmpty then failAt .decoratorsTwice valueStart
  let decorators := if late.isEmpty then decorators else late
  if ← typescript then
    if (← isWord .kwAbstract) && (← peek).isKeyword .kwClass && !(← peekLineBreak) then
      bump
      return .exportDefault start (← classValue go valueStart decorators true)
    if (← isWord .kwAbstract) && (← peek).isKeyword .kwInterface then
      emit .abstractPlace (← position)
      bump
    if ← isWord .kwInterface then
      bump
      return .exportDefaultType start (← interfaceDecl go valueStart)
  if ← isWord .kwClass then
    return .exportDefault start (← classValue go valueStart decorators false)
  if (← isWord .kwFunction) || (← startsAsyncFunction) then
    return .exportDefault start (← functionExport go valueStart decorators)
  let value ← allowIn go.assignment
  expectStatementEnd
  return .exportDefault start value
where
  functionExport (go : Go text) (pos : Nat) (decorators : List Expr) : P text Expr := do
    let isAsync ← eatAsync
    let (id, fn) ← functionFrom go decorators isAsync fun _ => optionalName false
    return .function pos id fn

/-- An export that only the dialect with types has, if there is one. -/
def typedExport? (go : Go text) (start : Nat) (decorators : List Expr) : P text (Option Stmt) := do
  if !(← typescript) then return none
  let declStart ← position
  if ← isWord .kwDeclare then
    bump
    match ← ambientDecl? go declStart decorators with
    | some decl => return some (.exported start decl)
    | none => pure ()
  match ← token with
  | .word name _ =>
    let pos ← position
    match ← attempt (typedDecl? go pos decorators name true) with
    | some decl => return some (.exported start decl)
    | none => pure ()
  | _ => pure ()
  if ← eatWord .kwImport then
    if (← isWord .kwType) && (← peek).isWord then bump
    let _ ← word
    return some (← importEquals start)
  if ← eat .eq then
    let e ← go.expression
    expectStatementEnd
    return some (.mention start [e])
  if ← eatWord .kwAs then
    expectWord .kwNamespace
    let _ ← name
    expectStatementEnd
    return some (.mention start [])
  return none

/-- An export declaration. -/
def exportItem (go : Go text) (start : Nat) (decorators : List Expr) : P text Stmt := do
  bump
  if (← token) == .eof then failAt .unexpectedEnd (← state).size
  match ← typedExport? go start decorators with
  | some s => return s
  | none =>
    let typeOnly ← if ← typescript then eatWord .kwType else pure false
    if ← eatWordIf (!typeOnly) .kwDefault then return ← exportDefault go start decorators
    let declStart ← position
    let late ← go.decorators
    if !late.isEmpty && !decorators.isEmpty then failAt .decoratorsTwice declStart
    let decorators := if late.isEmpty then decorators else late
    if !typeOnly then
      if ← isWord .kwClass then
        return .exported start (← classDecl go declStart decorators false)
      if (← isWord .kwFunction) || (← startsAsyncFunction) then
        return .exported start (← functionDecl go declStart decorators)
      if (← typescript) && (← isWord .kwConst) && (← peek).isKeyword .kwEnum then
        bump
        bump
        return .exported start (← enumDecl go declStart)
      if ← startsVariables then return .exported start (← variableDeclaration go declStart false)
    if ← isSign .times then return ← exportStar go start
    exportList go start typeOnly

/-! ## Items -/

/-- An item of a module or namespace. -/
def itemRule (go : Go text) : P text Stmt := do
  let start ← position
  let decorators ← go.decorators
  let pos ← position
  if ← isWord .kwExport then return ← exportItem go pos decorators
  if ← isWord .kwImport then
    let next ← peek
    if next.isPunct .lparen || next.isPunct .dot then
      let e ← go.expression
      let _ ← eatStatementEnd
      return .expr start e
    return ← importItem go pos
  within (statementContext ∘ ({ · with topLevel := true }))
    (statementBody go start true decorators)

end ScriptLint.Syntax.Grammar
