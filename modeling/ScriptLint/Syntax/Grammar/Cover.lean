import ScriptLint.Syntax.Grammar.Function

/-!
# Expressions that turn out to be patterns

The parameters of an arrow function and the target of an assignment are read as expressions, since
only the sign after them tells what they are. Then they are read again as patterns.

## Main definitions

* `Expr.isAssignable` — whether an expression can be assigned to
* `coverRule` — the rule that reads an expression as a pattern
* `coverParameters` — the items in parentheses as parameters
-/

namespace ScriptLint.Syntax

/-- Whether an expression can be assigned to as it is: a name, a member or an element, maybe in
parentheses or at another type. -/
def Expr.isAssignable : Expr → Bool
  | ident id => !Grammar.isEvalOrArguments id.name
  | paren _ inner | typed _ .cast inner _ => inner.isAssignable
  | member _ (.chain _ _) _ | index _ (.chain _ _) _ => false
  | member _ _ _ | index _ _ _ => true
  | _ => false

namespace Grammar

variable {text : List Char}

/-- The fault of an expression that cannot be assigned to. -/
def checkTarget (e : Expr) : P text Unit := do
  unless e.isAssignable do emit .invalidTarget e.pos

/-- An expression as the target of an assignment: a name is bound, anything else is visited. -/
def asTarget : Expr → Pat
  | .ident id => .name id []
  | e => .target e

/-- The kind of the parts of a pattern. -/
def Cover.part : Cover → Cover
  | .binding => .binding
  | .target | .element => .element

/-- A pattern that could not be read. -/
def refused (pos : Nat) : P text Pat := do
  emit .invalidPattern pos
  return .array pos [] []

/-- The fault of the comma that follows a rest element. -/
def checkRestComma (opening : Nat) : P text Unit := do
  match (← state).commas.lookup opening with
  | some pos => emit .commaAfterRest pos
  | none => pure ()

/-- The properties of an object that is read as a pattern. -/
def coverProperties (go : Go text) (kind : Cover) (opening : Nat) :
    List Property → P text (List Pat)
  | [] => return []
  | property :: more => do
    let pat ← match property with
      | .shorthand id => pure (.shorthand id none)
      | .keyValue key value => .field key <$> go.cover kind.part value
      | .assigned id value =>
        update fun s => { s with assigned := s.assigned.filter (· != id.pos) }
        pure (.shorthand id (some value))
      | .spread pos inner =>
        if more.isEmpty then checkRestComma opening else emit .restElementNotLast pos
        match kind.part, inner with
        | .binding, .ident id => pure (.rest pos (.name id []) [])
        | .binding, _ =>
          emit .restTarget pos
          pure (.rest pos (.array pos [] []) [])
        | part, inner =>
          let pat ← go.cover part inner
          if pat.isValued then emit .restInitializer pos
          pure (.rest pos pat [])
      | p => failAt .invalidPattern p.pos
    return pat :: (← coverProperties go kind opening more)

/-- The elements of an array that is read as a pattern; `closed` if holes follow the last one of
them, so that it cannot be a rest element. -/
def coverElements (go : Go text) (kind : Cover) (opening : Nat) (closed : Bool) :
    List Expr → P text (List Pat)
  | [] => return []
  | .hole _ :: more => coverElements go kind opening closed more
  | .spread pos inner :: more => do
    if !more.isEmpty || closed then
      emit .restElementNotLast pos
      coverElements go kind opening closed more
    else
      match inner with
      | .assign _ _ _ _ => emit .restInitializer pos
      | _ => pure ()
      checkRestComma opening
      return [.rest pos (← go.cover kind.part inner) []]
  | e :: more => do
    let pat ← go.cover kind.part e
    return pat :: (← coverElements go kind opening closed more)

/-- A list without the holes at its end. -/
def dropHoles : List Expr → List Expr
  | [] => []
  | e :: more =>
    match e, dropHoles more with
    | .hole _, [] => []
    | e, more => e :: more

/-- An expression, read again as a pattern. -/
def coverRule (go : Go text) (kind : Cover) (e : Expr) : P text Pat := do
  match e with
  | .object pos properties => return .object pos (← coverProperties go kind pos properties) []
  | .array pos elements =>
    let kept := dropHoles elements
    return .array pos (← coverElements go kind pos (kept.length < elements.length) kept) []
  | _ =>
    match kind with
    | .target =>
      checkTarget e
      return asTarget e
    | .binding =>
      match e with
      | .ident id => return .name id []
      | .assign pos true target value => return .valued pos target value
      | _ => refused e.pos
    | .element =>
      match e with
      | .assign pos true target value => return .valued pos target value
      | .ident _ | .member _ _ _ | .index _ _ _ | .call _ _ _ _ | .construct _ _ _ _ | .literal _
      | .text _ _ | .function _ _ _ | .classValue _ _ _ | .paren _ _ | .typed _ _ _ _ =>
        unless e.isAssignable do emit .notAssignable e.pos
        return asTarget e
      | _ => refused e.pos

/-! ## Parameters of arrow functions -/

/-- An item in parentheses: an expression, or already a pattern since a type follows it. -/
inductive Item where
  | value (e : Expr)
  | pat (p : Pat)

/-- Where an item starts. -/
def Item.pos : Item → Nat
  | value e => e.pos
  | pat p => p.pos

/-- The fault of a parameter that strict code refuses to bind. -/
def checkParameter : Pat → P text Unit
  | .name id _ => if isEvalOrArguments id.name then emit .evalBinding id.pos else pure ()
  | .valued _ (.name id _) _ =>
    if isEvalOrArguments id.name then emit .evalBinding id.pos else pure ()
  | _ => pure ()

/-- The items in parentheses as parameters; `comma` is the one after the last item. -/
def coverItems (go : Go text) (comma : Option Nat) : List Item → P text (List Pat)
  | [] => return []
  | .value (.spread pos inner) :: more => do
    if !more.isEmpty then
      emit .restParameterNotLast pos
      coverItems go comma more
    else
      match inner with
      | .assign _ _ _ _ => emit .restInitializer pos
      | _ => pure ()
      comma.forM (emit .commaAfterRest ·)
      return [.rest pos (← go.cover .binding inner) []]
  | .value e :: more => do
    let pat ← go.cover .binding e
    return pat :: (← coverItems go comma more)
  | .pat p :: more => do
    if p.isRest then
      if !more.isEmpty then
        emit .restParameterNotLast p.pos
        coverItems go comma more
      else
        comma.forM (emit .commaAfterRest ·)
        return [p]
    else return p :: (← coverItems go comma more)

/-- The items in parentheses as the parameters of an arrow function. -/
def coverParameters (go : Go text) (items : List Item) (comma : Option Nat) :
    P text (List Pat) := do
  let params ← coverItems go comma items
  params.forM checkParameter
  return params

end Grammar

end ScriptLint.Syntax
