import ScriptLint.Syntax.Grammar.Subscript

/-!
# Elements

An element has an opening tag with attributes, children and a closing tag of the same name. Between
the tags all is text except for expressions in braces and further elements.

## Main definitions

* `ElementName` — the name of an element
* `attributes`, `children` — what stands in the opening tag and between the tags
* `elementRule` — the rule for elements
-/

namespace ScriptLint.Syntax.Grammar

variable {text : List Char}

/-- The name of an element: how it is written, and what it refers to. -/
structure ElementName where
  text : String
  pos : Nat
  reference : List Expr

/-! ## Tokens of elements -/

/-- Goes to the token after the current one, which ends a tag or an expression: text, or what starts
the next child. -/
def bumpText : P text Unit := update
  (fun s =>
    if h : s.token.isInvalid = false then
      let scan := Lexer.scanElementText s.after
      let stands := .ofScan s.stands.leads_after (s.stands.closes h) (Lexer.scanElementText_at _)
      let s := { s with previous := s.pos, previousEnd := s.after.pos, lineBreak := false }
      s.withScan s.after scan stands
    else s)
  fun s => by
    split
    · next h => exact ⟨s.stands.leads, fun _ => h⟩
    · exact .refl _

/-- Goes to the value of an attribute, whose equals sign is the current token. -/
def bumpValue : P text Unit := update
  (fun s =>
    let gap := s.after.skipTrivia false
    match hrest : gap.after.rest with
    | c :: _ =>
      if h : (c = '"' ∨ c = '\'') ∧ s.token.isInvalid = false then
        let stands := .ofScan (s.stands.leads_after.trans (Cursor.leads_skipTrivia ..))
          ((s.stands.closes h.2).skipTrivia s.stands.leads_after false)
          (Lexer.scanElementString_at h.1 hrest)
        let s := { s with previous := s.pos, previousEnd := s.after.pos, lineBreak := gap.newline }
        (s.record gap.faults).withScan gap.after (Lexer.scanElementString c gap.after) stands
      else s.advance
    | [] => s.advance)
  fun s => by
    dsimp only
    split
    · split
      · next h => exact ⟨s.stands.leads.trans (Cursor.leads_skipTrivia ..), fun _ => h.2⟩
      · exact s.leads_advance
    · exact s.leads_advance

/-- A word that may go on with hyphens. -/
def hyphenated : P text Ident := do
  match ← token with
  | .word name _ =>
    let pos ← position
    rescan
      (fun s =>
        let tail := Lexer.elementNameTail s.after
        ⟨.elementName (name ++ String.ofList tail.1), tail.2, []⟩)
      fun s => ⟨s.stands.leads.trans (Cursor.leads_takeWhile ..), trivial, nofun,
        fun _ => Lexer.parts_elementNameTail ..⟩
    let text := (← token).describe
    bump
    return ⟨text, pos⟩
  | _ => unexpected "jsx identifier"

/-- The name of an element. -/
def elementName : P text ElementName := do
  let id ← hyphenated
  if ← eat .colon then
    let inner ← hyphenated
    return ⟨id.name ++ ":" ++ inner.name, id.pos, []⟩
  let members ← collect do
    if ← eat .dot then return some (← hyphenated).name else return none
  if members.isEmpty then return ⟨id.name, id.pos, [.elementName id false]⟩
  return ⟨".".intercalate (id.name :: members), id.pos, [.elementName id true]⟩

/-- Ends a tag at its `>`. -/
def closeTag (next : P text Unit) : P text Unit := do
  splitAngle
  unless ← isSign .greater do fail (.expected Punct.greater.text (← token).describe)
  next

/-! ## Attributes -/

/-- The expression in braces that is the value of an attribute. -/
def attributeExpression (go : Go text) : P text (List Expr) := do
  let pos ← position
  expect .lbrace
  if ← eat .rbrace then failAt .emptyAttribute pos
  let e ← go.expressionIn
  expect .rbrace
  return [e]

/-- The value of an attribute, whose equals sign is the current token. -/
def attributeValue (go : Go text) : P text (List Expr) := do
  bumpValue
  match ← token with
  | .string _ _ => bump; return []
  | .punct .lbrace => attributeExpression go
  | .punct .less => return [← go.element true]
  | _ => fail .elementValue

/-- The name of an attribute, which may have two parts. -/
def attributeName : P text (List Expr) := do
  let id ← hyphenated
  if ← eat .colon then
    let inner ← hyphenated
    return [.label id.pos id.name, .label inner.pos inner.name]
  return [.label id.pos id.name]

/-- An attribute: its name and its value. -/
def tagAttribute (go : Go text) : P text (List Expr) := do
  if ← eat .lbrace then
    expect .ellipsis
    let e ← go.assignment
    expect .rbrace
    return [e]
  let name ← attributeName
  if ← isSign .eq then
    let value ← within ({ · with inConditional := false, colonExpected := false })
      (attributeValue go)
    return name ++ value
  else return name

/-- The attributes of an element. -/
def attributes (go : Go text) : P text (List Expr) := do
  let found ← collect do
    splitAngle
    if (← isSign .div) || (← isSign .greater) || (← token) == .eof then return none
    return some (← tagAttribute go)
  return found.flatten

/-! ## Children -/

/-- The expression in braces that is a child. -/
def childExpression (go : Go text) : P text (List Expr) := do
  expect .lbrace
  let _ ← eat .ellipsis
  let e ← if ← isSign .rbrace then pure [] else do pure [← go.expressionIn]
  unless ← isSign .rbrace do fail (.expected Punct.rbrace.text (← token).describe)
  bumpText
  return e

/-- The children of an element, up to its closing tag. -/
def children (go : Go text) : P text (List Expr) := do
  let found ← collect do
    match ← token with
    | .punct .lessSlash => return none
    | .punct .less => return some [← go.element false]
    | .punct .lbrace => return some (← childExpression go)
    | .elementText => bumpText; return some []
    | _ => failAt .unexpectedEnd (← state).size
  return found.flatten

/-! ## Elements -/

/-- Goes past the end of an element. -/
def afterElement (inExpr : Bool) : P text Unit :=
  if inExpr then bump else bumpText

/-- An element without name, from the `>` of its opening tag on. -/
def fragment (go : Go text) (pos : Nat) (inExpr : Bool) : P text Expr := do
  closeTag bumpText
  let inner ← children go
  bump
  closeTag (afterElement inExpr)
  return .element pos inner

/-- An element. -/
def elementRule (go : Go text) (inExpr : Bool) : P text Expr := do
  let pos ← position
  expect .less
  splitAngle
  if ← isSign .greater then return ← fragment go pos inExpr
  let name ← elementName
  let types ← if (← typescript) && (← isSign .less) then typeArguments go else pure []
  let attrs ← attributes go
  if ← eat .div then
    closeTag (afterElement inExpr)
    return .element pos (name.reference ++ attrs ++ types)
  closeTag bumpText
  let inner ← children go
  bump
  let closing ← elementName
  closeTag (afterElement inExpr)
  if closing.text != name.text then failAt (.closingTag name.text) closing.pos
  return .element pos (name.reference ++ attrs ++ types ++ inner ++ closing.reference)

end ScriptLint.Syntax.Grammar
