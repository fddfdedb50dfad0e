import ScriptLint.Syntax.Grammar.Function
import ScriptLint.Syntax.Grammar.Subscript

/-!
# Classes

A class is its heritage and its members. A member is read in three steps: the modifiers before its
name, of which any may turn out to be the name itself, the name, and what follows the name, which
tells methods from fields.

## Main definitions

* `Modifiers` — the modifiers of a member
* `member` — a member of a class
* `classBody`, `classRest` — the members of a class, and a class from its keyword on
* `classDecl`, `classValue` — classes as declarations and as values
-/

namespace ScriptLint.Syntax.Grammar

variable {text : List Char}

/-- The modifiers of a member, with the places where those stand that a fault may point at. -/
structure Modifiers where
  start : Nat
  decorators : List Expr
  declared : Bool := false
  access : Bool := false
  static : Option Nat := none
  accessor : Bool := false
  abstract : Bool := false
  overriding : Bool := false
  fixed : Option Nat := none
  /-- Where the last of `abstract`, `readonly`, `override` and `static` stands. -/
  last : Option Nat := none

/-- A member, and whether it is an abstract method or field. -/
abbrev MemberOut := Member × Bool

/-- Whether a method goes on here: its parameters follow its name. -/
def atMethod : P text Bool := do
  return (← isSign .lparen) || ((← typescript) && (← isSign .less))

/-- Whether a field goes on here; `lineEnd` if a line break can end it. -/
def atField (lineEnd : Bool) : P text Bool := do
  let typed := (← typescript) && ((← isSign .bang) || (← isSign .colon))
  return typed || (← isSign .eq) || (← isSign .rbrace) ||
    (← if lineEnd then atStatementEnd else isSign .semi)

/-- Whether a member with the given name is the constructor. -/
def Key.isConstructor : Key → Bool
  | .named _ name => name == "constructor"
  | .computed _ _ => false

/-- The name of a member, and the word that it is written with if it is one. -/
def className (go : Go text) : P text (Key × Option String) := do
  if ← isSign .hash then
    let (name, pos) ← privateName
    if name == "#constructor" then emit .privateConstructor pos
    return (.named pos name, none)
  let (key, plain) ← propertyName go
  return (key, plain.map (·.name))

/-- Whether the name of a member is private. -/
def Key.isPrivate : Key → Bool
  | .named _ name => name.startsWith "#"
  | .computed _ _ => false

/-! ## Methods and fields -/

/-- A method from its type parameters on. -/
def method (go : Go text) (m : Modifiers) (key : Key) (isAsync isGenerator : Bool)
    (params : P text (List Pat)) : P text MemberOut := do
  let fn ← within ({ · with superAllowed := true, inClassField := false })
    (functionRest go m.decorators isAsync isGenerator params)
  let hasBody := match fn with
    | .mk _ _ _ body _ => body.isSome
  if Key.isPrivate key then
    if m.access then emit .accessOnPrivate m.start
  else if m.abstract && hasBody then emit .abstractBody m.start
  return (.method m.start key fn, m.abstract && !Key.isPrivate key)

/-- A field from what follows its name on. -/
def field (go : Go text) (m : Modifiers) (key : Key) (optional : Bool) : P text MemberOut := do
  if Key.isConstructor key then failAt .fieldConstructor key.pos
  if (← typescript) && !optional then let _ ← eat .bang
  let type ← go.annotation?
  within ({ · with inAllowed := true, inClassField := true }) do
    let value ← if ← eat .eq then some <$> go.assignment else pure none
    unless ← eatStatementEnd do emit .semicolonExpected (← position)
    if Key.isPrivate key then
      if m.access then emit .accessOnPrivate m.start
    else if m.abstract && value.isSome && !m.accessor then emit .abstractValue m.start
    return (.field m.start key value (type ++ m.decorators),
      m.abstract && !m.accessor && !Key.isPrivate key)

/-- The faults of a getter's parameters, which point at `pos`. -/
def getterParameters (go : Go text) (pos : Nat) : P text (List Pat) := do
  let params ← parameters go
  if params.any fun p => !p.isReceiver then emit .getterParameters pos
  return params

/-- The faults of a setter's parameters, which point at `pos`. -/
def setterParameters (go : Go text) (pos : Nat) : P text (List Pat) := do
  let params ← parameters go
  if (params.filter fun p => !p.isReceiver).length != 1 then emit .setterParameter pos
  match params with
  | first :: _ => if first.isRest then emit .setterRest first.pos
  | [] => pure ()
  return params

/-- A constructor from its type parameters on. -/
def constructor (go : Go text) (m : Modifiers) (key : Key) : P text MemberOut := do
  if (← typescript) && m.overriding then emit (.constructorModifier "override") m.start
  if (← typescript) && (← isSign .less) then
    let pos ← peekPosition
    let _ ← typeParameters go false
    emit .constructorTypeParameters pos
  expect .lparen
  let (params, properties) ← constructorParameters go
  expect .rparen
  if (← typescript) && (← isSign .colon) then
    let pos ← peekPosition
    let _ ← go.annotation
    emit .constructorReturnType pos
  let body ← within ({ · with superAllowed := true, inClassField := false })
    (blockBody? go false false (params.all Pat.isSimple))
  if body.isNone then
    properties.forM (emit .parameterPropertyOutside ·)
    checkSignature params
  match m.static with
  | some pos => emit (.constructorModifier "static") pos
  | none => pure ()
  match m.last with
  | some pos => if m.abstract then emit .abstractPlace pos
  | none => pure ()
  return (.initializer m.start key params body, false)
where
  peekPosition : P text Nat := return (← state).advance.pos

/-- A block that runs when the class is made. -/
def staticBlock (go : Go text) (m : Modifiers) : P text MemberOut := do
  let body ← within (fun c => { c with
      inStaticBlock := true
      inClassField := true
      usingAllowed := true
      breakAllowed := false
      continueAllowed := false }) (block go)
  match body with
  | .block _ statements => return (.staticBlock m.start statements, false)
  | _ => return (.staticBlock m.start [], false)

/-! ## Members -/

/-- A member whose name is a word that looked like a modifier, if it is one. -/
def memberNamed? (go : Go text) (m : Modifiers) (word : String) (pos : Nat) (lineEnd : Bool) :
    P text (Option MemberOut) := do
  let key : Key := .named pos word
  if ← atMethod then return some (← method go m key false false (parameters go))
  if (← atField lineEnd) || ((← typescript) && (← isSign .question)) then
    let optional ← if ← typescript then eat .question else pure false
    if ← atMethod then return some (← method go m key false false (parameters go))
    return some (← field go m key optional)
  return none

/-- Reads the modifiers that can stand in any order. -/
def looseModifiers (n : Nat) (m : Modifiers) : P text Modifiers :=
  match n with
  | 0 => pure m
  | n + 1 => do
    match ← modifier [.kwAbstract, .kwReadonly, .kwOverride, .kwStatic] true with
    | none => return m
    | some k =>
      let pos ← previous
      let m := { m with last := some pos }
      match k with
      | .kwAbstract =>
        if m.abstract then emit (.duplicateModifier "abstract") pos
        else if m.overriding then emit (.modifierOrder "abstract" "override") pos
        looseModifiers n { m with abstract := true }
      | .kwOverride =>
        if m.overriding then emit (.duplicateModifier "override") pos
        else if m.fixed.isSome then emit (.modifierOrder "override" "readonly") pos
        else if !(← context).hasBase then emit .overrideWithoutBase pos
        looseModifiers n { m with overriding := true }
      | .kwReadonly =>
        if m.fixed.isSome then
          emit (.duplicateModifier "readonly") pos
          looseModifiers n m
        else looseModifiers n { m with fixed := some pos }
      | _ =>
        if m.overriding then emit (.modifierOrder "static" "override") pos
        looseModifiers n { m with static := some pos }

/-- A member from its name on, whose name is read. -/
def memberAfterName (go : Go text) (m : Modifiers) (key : Key) (plain : Option String) :
    P text MemberOut := do
  let optional ← if ← typescript then eat .question else pure false
  if ← atMethod then
    if m.declared then emit .declareMember m.start
    if m.fixed.isSome then failAt .readonlyMethod m.start
    if Key.isConstructor key then return ← constructor go m key
    return ← method go m key false false (parameters go)
  let generatorNext := (← lineBreak) && (← isSign .times)
  let accessor := (plain == some "get" || plain == some "set") && !(← atField false) &&
    !generatorNext
  if !accessor && (← atField true) then return ← field go m key optional
  if plain == some "async" && !(← lineBreak) then
    let isGenerator ← eat .times
    let (key, _) ← className go
    if Key.isConstructor key then failAt .asyncConstructor key.pos
    if m.fixed.isSome then emit .readonlyMethod m.start
    if ← typescript then let _ ← eat .question
    return ← method go m key true isGenerator (parameters go)
  if accessor then
    let (name, _) ← className go
    if m.fixed.isSome then emit .readonlyAccessor key.pos
    if Key.isConstructor name then emit .accessorConstructor key.pos
    if plain == some "get" then return ← method go m name false false (getterParameters go key.pos)
    return ← method go m name false false (setterParameters go key.pos)
  unexpected "* for generator, private key, identifier or async"

/-- A member after `declare`, its access modifier, `static` and `accessor`. -/
def memberRest (go : Go text) (m : Modifiers) : P text MemberOut := do
  let m ← looseModifiers (← state).budget m
  let m ← if !m.accessor && (← typescript) && (← isWord .kwAccessor) &&
      Token.followsModifier (← peek) && !(← peekLineBreak) then do
      bump
      pure { m with accessor := true }
    else pure m
  if m.static.isSome && (← isSign .lbrace) then
    if m.declared then emit .blockModifier m.start
    if m.access then emit .blockModifier (← position)
    return ← staticBlock go m
  if (← isWord .kwStatic) && (← peek).isPunct .lbrace then
    m.last.forM (emit .blockModifier ·)
    m.static.forM (emit .blockModifier ·)
    bump
    return ← staticBlock go m
  if (← typescript) && !m.abstract && !m.overriding && !m.access then
    match ← indexSignature? go with
    | some parts => return (.signature m.start parts, false)
    | none => pure ()
  if ← eat .times then
    let (key, _) ← className go
    if m.fixed.isSome then emit .readonlyMethod m.start
    if Key.isConstructor key then emit .generatorConstructor m.start
    return ← method go m key false true (parameters go)
  match m.fixed with
  | some pos =>
    if (← isSign .bang) || (← isSign .colon) || (← isSign .eq) then
      memberAfterName go { m with fixed := none } (.named pos "readonly") none
    else
      let (key, plain) ← className go
      memberAfterName go m key plain
  | none =>
    let (key, plain) ← className go
    memberAfterName go m key plain

/-- A member of a class. -/
def member (go : Go text) : P text MemberOut := do
  let start ← position
  let decorators ← go.decorators
  let types ← typescript
  let accessWords : List Keyword := [.kwPublic, .kwProtected, .kwPrivate, .kwIn, .kwOut]
  let declaredPos ← position
  let declared ← if types then eatWord .kwDeclare else pure false
  let access ← modifier accessWords false
  let declared ← if declared || !types then pure declared else eatWord .kwDeclare
  let m : Modifiers := { start, decorators, access := access.isSome }
  let access := access.isSome
  if declared then
    match ← memberNamed? go m "declare" declaredPos true with
    | some out => return out
    | none => pure ()
  let m := { m with declared }
  let staticPos ← position
  let isStatic ← eatWord .kwStatic
  let m := { m with static := if isStatic then some staticPos else none, access }
  let accessorPos ← position
  if ← eatWordIf types .kwAccessor then
    match ← memberNamed? go m "accessor" accessorPos true with
    | some out => return out
    | none => return ← memberRest go { m with accessor := true }
  if isStatic && !(← isSign .lbrace) then
    match ← memberNamed? go { m with static := none } "static" staticPos false with
    | some out => return out
    | none => pure ()
  memberRest go m

/-- The members of a class up to its closing brace, and where the abstract ones start. -/
def classBody (go : Go text) : P text (List Member × List Nat) :=
  loop (fun (acc, abstracts, built) => do
    if (← isSign .rbrace) || (← token) == .eof then return .inr (acc.reverse, abstracts.reverse)
    if ← eat .semi then return .inl (acc, abstracts, built)
    let (m, isAbstract) ← within ({ · with superAllowed := true }) (member go)
    let (built, start) ← match m with
      | .initializer start _ _ (some _) => do
        if !(← context).ambient && built then emit .duplicateConstructor start
        pure (true, start)
      | .method start _ _ | .field start _ _ _ | .initializer start _ _ _ | .staticBlock start _
      | .signature start _ => pure (built, start)
    return .inl (m :: acc, if isAbstract then start :: abstracts else abstracts, built))
    (([], [], false) : List Member × List Nat × Bool)

/-! ## Classes -/

/-- The class that another one extends, with its type arguments. -/
def baseClass (go : Go text) : P text (Expr × List Expr) := do
  let e ← go.leftHand
  match e with
  | .typed _ .cast inner types =>
    if types.isEmpty then rest e else return (inner, types)
  | _ => rest e
where
  rest (e : Expr) : P text (Expr × List Expr) := do
    if (← typescript) && (← isSign .less) then return (e, ← typeArguments go) else return (e, [])

/-- A class from what follows its name on. -/
def classTail (go : Go text) (decorators : List Expr) (isAbstract : Bool) : P text Class := do
  let own ← typeParameters? go true
  let types ← typescript
  let base ← if ← eatWord .kwExtends then do
      let base ← baseClass go
      if ← eatIf types .comma then
        let others ← heritage go
        others.forM fun e => emit .baseList e.pos
      pure (some base)
    else pure none
  if ← eatWord .kwExtends then
    emit .extendsTwice (← previous)
    let _ ← baseClass go
  let interfaces ← if ← eatWordIf types .kwImplements then heritage go else pure []
  if ← eatWordIf types .kwImplements then
    emit .implementsTwice (← previous)
    let _ ← heritage go
  let base ← if ← eatWordIf types .kwExtends then do
      emit .extendsAfterImplements (← previous)
      let late ← baseClass go
      pure (base <|> some late)
    else pure base
  expect .lbrace
  let (members, abstracts) ← within ({ · with hasBase := base.isSome }) (classBody go)
  if (← token) == .eof then
    emit (.expected Punct.rbrace.text Token.eof.describe) (← position)
  else expect .rbrace
  unless isAbstract do abstracts.forM (emit .abstractOutside ·)
  let baseTypes := (base.map (·.2)).getD []
  return .mk decorators members (base.map (·.1)) (own ++ baseTypes ++ interfaces)

/-- A class from its keyword on, with the name that `named` reads. -/
def classRest {α : Type} (go : Go text) (decorators : List Expr) (isAbstract : Bool)
    (named : P text α) : P text (α × Class) :=
  within ({ · with inClass := true }) do
    expectWord .kwClass
    let id ← named
    return (id, ← classTail go decorators isAbstract)

/-- The declaration of a class. -/
def classDecl (go : Go text) (start : Nat) (decorators : List Expr) (isAbstract : Bool) :
    P text Stmt := do
  let (id, cls) ← classRest go decorators isAbstract (bindingName true)
  return .classDecl start false id cls

/-- A class as a value. -/
def classValue (go : Go text) (start : Nat) (decorators : List Expr) (isAbstract : Bool) :
    P text Expr := do
  let (id, cls) ← classRest go decorators isAbstract (optionalName true)
  return .classValue start id cls

end ScriptLint.Syntax.Grammar
