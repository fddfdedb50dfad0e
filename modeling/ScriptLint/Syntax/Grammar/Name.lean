import ScriptLint.Syntax.Grammar.Rule

/-!
# Names

Where a name is due, words with a meaning of their own are names or not depending on the place: a
property may be called by any word, a binding may not be called by a word that strict code
reserves.

## Main definitions

* `word` — any word
* `name` — a word that can name a value
* `bindingName` — a word that can be bound
* `propertyName` — the name of a property
* `privateName` — a name that starts with `#`
-/

namespace ScriptLint.Syntax.Grammar

variable {text : List Char}

/-- Any word. -/
def word : P text Ident := do
  match ← token with
  | .word name _ =>
    let pos ← position
    bump
    return ⟨name, pos⟩
  | _ => fail .nameExpected

/-- A word that can name a value. Words that only strict code reserves are faults from which
reading goes on. -/
def name : P text Ident := do
  match (← token).keyword? with
  | none => word
  | some k =>
    let pos ← position
    match k with
    | .kwEnum | .kwYield | .kwLet | .kwStatic | .kwImplements | .kwInterface | .kwPackage
    | .kwPrivate | .kwProtected | .kwPublic =>
      let id ← word
      emit (.strictName id.name) pos
      return id
    | .kwAwait =>
      let c ← context
      if c.ambient then word
      else if c.inStaticBlock then fail .nameExpected
      else fail .awaitName
    | .kwThis => if ← typescript then word else fail .nameExpected
    | .kwArguments =>
      if (← context).inClassField then emit .argumentsOutsideFunction pos
      word
    | _ => if k.isReserved then fail .nameExpected else word

/-- Whether strict code refuses to bind a name. -/
def isEvalOrArguments (name : String) : Bool :=
  name == "eval" || name == "arguments"

/-- A word that can be bound; with `noLet`, not `let`. -/
def bindingName (noLet : Bool) : P text Ident := do
  if noLet && (← isWord .kwLet) then
    unexpected "let is reserved in const, let, class declaration"
  let id ← name
  if isEvalOrArguments id.name then emit .evalBinding id.pos
  let c ← context
  if (c.inAsync || c.inStaticBlock) && id.name == "await" then emit .nameExpected id.pos
  if c.inStaticBlock && id.name == "arguments" then emit .argumentsOutsideFunction id.pos
  if c.inGenerator && id.name == "yield" then emit .nameExpected id.pos
  return id

/-- A name that starts with `#`, which must stand directly before the word. -/
def privateName : P text (String × Nat) := do
  let pos ← position
  expect .hash
  let s ← state
  if s.pos != s.previousEnd then failAt .spaceAfterHash pos
  let id ← word
  return ("#" ++ id.name, pos)

/-- The name of a member after a dot. -/
def memberName : P text (String × Nat) := do
  if ← isSign .hash then privateName
  else
    let id ← word
    return (id.name, id.pos)

/-- The name of a property: a word, a literal or an expression in brackets. A word is also yielded
as a name of its own, since it can stand for a binding. -/
def propertyName (go : Go text) : P text (Key × Option Ident) := do
  let pos ← position
  match ← token with
  | .string value _ => bump; return (.named pos value, none)
  | .number raw | .bigint raw => bump; return (.named pos raw, none)
  | .word _ _ =>
    let id ← word
    return (.named pos id.name, some id)
  | .punct .lbracket =>
    bump
    let value ← allowIn go.assignment
    expect .rbracket
    return (.computed pos value, none)
  | _ => unexpected "identifier, string literal, numeric literal or [ for the computed key"

end ScriptLint.Syntax.Grammar
