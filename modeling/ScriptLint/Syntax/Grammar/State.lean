import ScriptLint.Syntax.Place
import ScriptLint.Syntax.Tree

/-!
# Reading with a state

The grammar is read token by token. A reader either yields a value or stops at a fault; in both
cases the state it leaves is kept, because some rules go on after a fault inside them. No reader
leaves a state at an earlier place of the text, and none gets past what is no token. Faults from
which reading goes on are collected in the order in which they are met, and the first of them is the
one that counts.

Some places are first read as one construct and, if that fails, as another. Such an attempt starts
from the same state again, and the faults met during it do not count even if it succeeds.

## Main definitions

* `Options` — the dialect that is read
* `Context` — what the surroundings allow
* `State`, `P` — the state of reading a text, and readers
* `State.Leads` — how states follow each other
* `state`, `update`, `stop` — the readers that all others are made of
* `attempt`, `lookAhead` — readers that may leave no trace
* `loop`, `collect` — repetition, bounded by the size of the text
-/

namespace ScriptLint.Syntax

/-- The dialect of a script: whether types, elements and decorators are part of it. -/
structure Options where
  typescript : Bool
  jsx : Bool
  decorators : Bool
  deriving DecidableEq, Repr

namespace Grammar

/-- What the surroundings of a construct allow or ask for. -/
structure Context where
  inAsync : Bool := false
  inGenerator : Bool := false
  inFunction : Bool := false
  inMethodScope : Bool := false
  inParameters : Bool := false
  inStaticBlock : Bool := false
  inClass : Bool := false
  inClassField : Bool := false
  hasBase : Bool := false
  superAllowed : Bool := false
  breakAllowed : Bool := false
  continueAllowed : Bool := false
  usingAllowed : Bool := false
  topLevel : Bool := false
  inAllowed : Bool := true
  inLoopHead : Bool := false
  inAwaitLoopHead : Bool := false
  inConditional : Bool := false
  colonExpected : Bool := false
  inType : Bool := false
  inMember : Bool := false
  noConditionalType : Bool := false
  ambient : Bool := false
  /-- Faults do not count here. -/
  quiet : Bool := false

/-- The state of reading a text: the current token with the place where it starts, the text after
it, and whether a line break stands before it. -/
structure State (text : List Char) where
  options : Options
  /-- The length of the text in bytes. -/
  size : Nat
  token : Token
  start : Cursor
  after : Cursor
  stands : token.StandsIn text start after
  lineBreak : Bool
  /-- Where the token before the current one starts and ends. -/
  previous : Nat
  previousEnd : Nat
  /-- The faults so far from which reading went on, the last one first. -/
  faults : List Fault := []
  context : Context := {}
  labels : List String := []
  /-- Where an arrow function may start. -/
  arrowStart : Option Nat := none
  /-- The commas that close literals, by the place where the literal starts. -/
  commas : List (Nat × Nat) := []
  /-- Properties with a default value that have not become part of a pattern, the last one first. -/
  assigned : List Nat := []

variable {text : List Char}

/-- Where the current token starts; the end of the text counts as the end of the last token. -/
def State.pos (s : State text) : Nat :=
  match s.token with
  | .eof => s.previousEnd
  | _ => s.start.pos

/-- A bound on the number of tokens. -/
def State.budget (s : State text) : Nat :=
  s.size + 2

/-- Adds faults in the order in which they were met. -/
def State.record (s : State text) (faults : List Fault) : State text :=
  { s with faults := if s.context.quiet then s.faults else faults.reverse ++ s.faults }

/-- The state with the given token, read at `start`. -/
def State.withScan (s : State text) (start : Cursor) (scan : Scan)
    (stands : scan.token.StandsIn text start scan.after) : State text :=
  { s with token := scan.token, start, after := scan.after, stands }.record scan.faults

/-- Whether `<` and `>` are always signs of their own. -/
def Context.splitsAngles (c : Context) : Bool :=
  c.inType && !c.inMember

/-- The state at the next token. Reading does not go past what is no token. -/
def State.advance (s : State text) : State text :=
  if h : s.token.isInvalid = false then
    let gap := s.after.skipTrivia false
    let scan := Lexer.scan s.budget s.context.splitsAngles gap.after
    let stands := .ofScan (s.stands.leads_after.trans (Cursor.leads_skipTrivia ..))
      ((s.stands.closes h).skipTrivia s.stands.leads_after false) (Lexer.scan_at ..)
    let s := { s with previous := s.pos, previousEnd := s.after.pos, lineBreak := gap.newline }
    (s.record gap.faults).withScan gap.after scan stands
  else s

/-- The state `t` follows `s`: it is at the same place of the text or a later one, and not past what
is no token. -/
def State.Leads (s t : State text) : Prop :=
  s.start.Leads t.start ∧ (t.token.isInvalid = false → s.token.isInvalid = false)

theorem State.Leads.refl (s : State text) : s.Leads s :=
  ⟨.refl _, id⟩

theorem State.Leads.trans {s t u : State text} (h : s.Leads t) (h' : t.Leads u) : s.Leads u :=
  ⟨h.1.trans h'.1, h.2 ∘ h'.2⟩

theorem State.leads_advance (s : State text) : s.Leads s.advance := by
  rw [State.advance]
  split
  · next h => exact ⟨s.stands.leads.trans (Cursor.leads_skipTrivia ..), fun _ => h⟩
  · exact .refl _

/-! ## Readers -/

variable {α β : Type}

/-- What a reader comes to: a value or a fault, and the state it leaves in either case. -/
inductive Outcome (s : State text) (α : Type) where
  | ok (value : α) (after : State text) (leads : s.Leads after)
  | error (fault : Fault) (after : State text) (leads : s.Leads after)

/-- An outcome of a reader that was started later. -/
@[inline] def Outcome.since {s t : State text} (h : s.Leads t) : Outcome t α → Outcome s α
  | ok value after leads => ok value after (h.trans leads)
  | error fault after leads => error fault after (h.trans leads)

/-- A reader. -/
def P (text : List Char) (α : Type) : Type := (s : State text) → Outcome s α

@[always_inline] instance : Monad (P text) where
  pure a := fun s => .ok a s (.refl _)
  bind p f := fun s =>
    match p s with
    | .ok a t h => (f a t).since h
    | .error fault t h => .error fault t h

/-- The state. -/
@[inline] def state : P text (State text) := fun s => .ok s s (.refl _)

/-- Changes the state, to one that follows it. -/
@[inline] def update (f : State text → State text)
    (leads : ∀ s : State text, s.Leads (f s) := by exact fun s => ⟨.refl s.start, fun h => h⟩) :
    P text Unit :=
  fun s => .ok () (f s) (leads s)

/-- Stops at a fault. -/
@[inline] def stop (fault : Fault) : P text α := fun s => .error fault s (.refl _)

/-! ## Faults -/

/-- Records a fault and goes on. -/
def emit (cause : Cause) (pos : Nat) : P text Unit :=
  update (·.record [⟨cause, pos⟩])

/-- Stops at a fault. A token that is no token is the fault to report first. -/
def failAt (cause : Cause) (pos : Nat) : P text α := do
  match (← state).token with
  | .invalid fault => update (·.record [fault])
  | _ => pure ()
  stop ⟨cause, pos⟩

/-- Stops at a fault in the current token. -/
def fail (cause : Cause) : P text α := do
  failAt cause (← state).pos

/-- Stops at a fault that no rule may replace by another. -/
def failHard (fault : Fault) : P text α := do
  update (·.record [fault])
  stop fault

/-- Stops because the current token is not what the grammar names here. -/
def unexpected (want : String) : P text α := do
  fail (.unexpected (← state).token.describe want)

/-! ## Tokens -/

/-- The current token. -/
def token : P text Token := return (← state).token

/-- Where the current token starts. -/
def position : P text Nat := return (← state).pos

/-- Where the token before the current one starts. -/
def previous : P text Nat := return (← state).previous

/-- Goes to the next token. -/
def bump : P text Unit := update State.advance State.leads_advance

/-- Reads the current token again in another way. -/
def rescan (scan : State text → Scan) (h : ∀ s, (scan s).At s.start) : P text Unit := update
  (fun s =>
    if s.token.isInvalid then s else s.withScan s.start (scan s) (s.stands.rescan (h s)))
  fun s => by
    split
    · exact .refl _
    · next hvalid => exact ⟨.refl _, fun _ => Bool.eq_false_iff.mpr hvalid⟩

/-- Whether types are read. -/
def typescript : P text Bool := return (← state).options.typescript

/-- Whether elements are read. -/
def jsx : P text Bool := return (← state).options.jsx

/-- What the surroundings allow. -/
def context : P text Context := return (← state).context

/-- Whether a line break stands before the current token. -/
def lineBreak : P text Bool := return (← state).lineBreak

/-- Whether the current token is the sign `p`. -/
def isSign (p : Punct) : P text Bool := return (← state).token.isPunct p

/-- Whether the current token is the keyword `k`. -/
def isWord (k : Keyword) : P text Bool := return (← state).token.isKeyword k

/-- The token after the current one. -/
def peek : P text Token := return (← state).advance.token

/-- Whether a line break stands before the token after the current one. -/
def peekLineBreak : P text Bool := return (← state).advance.lineBreak

/-- Goes past the sign `p` if it is the current token. -/
def eat (p : Punct) : P text Bool := do
  if ← isSign p then bump; return true else return false

/-- Goes past the keyword `k` if it is the current token. -/
def eatWord (k : Keyword) : P text Bool := do
  if ← isWord k then bump; return true else return false

/-- Goes past the sign `p` if it is the current token and the condition holds. -/
def eatIf (condition : Bool) (p : Punct) : P text Bool :=
  if condition then eat p else return false

/-- Goes past the keyword `k` if it is the current token and the condition holds. -/
def eatWordIf (condition : Bool) (k : Keyword) : P text Bool :=
  if condition then eatWord k else return false

/-- Goes past the sign `p`, which must be the current token. -/
def expect (p : Punct) : P text Unit := do
  if ← isSign p then bump else fail (.expected p.text (← token).describe)

/-- Goes past the keyword `k`, which must be the current token. -/
def expectWord (k : Keyword) : P text Unit := do
  if ← isWord k then bump else fail (.expected k.text (← token).describe)

/-- Whether a word can be read as a reference here: all code is strict. -/
def Token.isReference (t : Token) : Bool :=
  match t with
  | .word _ none => true
  | .word _ (some k) => !k.isReserved && !(k.isReservedInStrict && k != .kwStatic)
  | _ => false

/-- Whether the current token can be read as a reference. -/
def isReference : P text Bool := return Token.isReference (← token)

/-- Whether a statement can end before the current token. -/
def atStatementEnd : P text Bool := do
  let s ← state
  return s.token.isPunct .semi || s.token.isPunct .rbrace || s.token == .eof || s.lineBreak

/-- Goes past a semicolon, and tells whether the statement can end here. -/
def eatStatementEnd : P text Bool := do
  if ← eat .semi then return true else atStatementEnd

/-- Ends a statement. -/
def expectStatementEnd : P text Unit := do
  unless ← eatStatementEnd do fail (.expected ";" (← token).describe)

/-! ## Surroundings -/

/-- Reads in changed surroundings. -/
def within (change : Context → Context) (p : P text α) : P text α := fun s =>
  match p { s with context := change s.context } with
  | .ok a t h => .ok a { t with context := s.context } h
  | .error e t h => .error e { t with context := s.context } h

/-- Reads where the operator `in` is allowed. -/
def allowIn (p : P text α) : P text α := within ({ · with inAllowed := true }) p

/-- Reads inside a type. -/
def inType (p : P text α) : P text α := within ({ · with inType := true }) p

/-- Reads outside the test of a conditional expression. -/
def outsideConditional (p : P text α) : P text α := within ({ · with colonExpected := false }) p

/-! ## Attempts -/

/-- The value of a reader if it yields one; otherwise nothing is read. Faults on the way do not
count. Only the dialect with types needs it. -/
def attempt (p : P text (Option α)) : P text (Option α) := fun s =>
  if !s.options.typescript then .ok none s (.refl _)
  else match p { s with context := { s.context with quiet := true } } with
    | .ok (some a) t h => .ok (some a) { t with context := s.context } h
    | _ => .ok none s (.refl _)

/-- Whether a reader would succeed and answer yes; nothing is read. -/
def lookAhead (p : P text Bool) : P text Bool := fun s =>
  match p { s with context := { s.context with quiet := true } } with
  | .ok b _ _ => .ok b s (.refl _)
  | .error _ _ _ => .ok false s (.refl _)

/-- The value of a reader if it yields one; otherwise nothing is read. -/
def whenFound (p : P text (Option α)) : P text (Option α) := fun s =>
  match p s with
  | .ok none _ _ => .ok none s (.refl _)
  | outcome => outcome

/-- The value of a reader, or its fault, as a value. -/
def caught (p : P text α) : P text (Except Fault α) := fun s =>
  match p s with
  | .ok a t h => .ok (.ok a) t h
  | .error e t h => .ok (.error e) t h

/-! ## Repetition -/

/-- At most `n` steps, until one yields the result. -/
def repeatUpTo (n : Nat) (step : α → P text (α ⊕ β)) (a : α) : P text β :=
  match n with
  | 0 => do failHard ⟨.unexpectedEnd, (← state).size⟩
  | n + 1 => do
    match ← step a with
    | .inl a => repeatUpTo n step a
    | .inr b => return b

/-- Steps until one yields the result. Each step reads a token, so that their number is bounded by
the size of the text. -/
def loop (step : α → P text (α ⊕ β)) (a : α) : P text β := do
  repeatUpTo (2 * (← state).budget) step a

/-- The values of a reader until it yields none. -/
def collect (step : P text (Option α)) : P text (List α) :=
  loop (fun acc => do
    match ← step with
    | some a => return .inl (a :: acc)
    | none => return .inr acc.reverse) []

/-- The values of a reader that stand before the sign `close`, with commas between them; a comma
may follow the last one. The closing sign is not read. -/
def commaList (close : Punct) (item : P text α) : P text (List α) :=
  collect do
    if ← isSign close then return none
    let a ← item
    unless ← isSign close do expect .comma
    return some a

end Grammar

end ScriptLint.Syntax
