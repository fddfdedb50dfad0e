import ScriptLint.Outline

/-!
# Walks

A walk visits the functions, blocks, calls and imports of a script in order and folds a step over
these events. A step may stop the walk; functions that are entered by then are still left, so that
whoever counts them stays in balance.

## Main definitions

* `Event` — what a walk meets
* `Flow` — whether to go on
* `Outline.walk` — the fold over the events
* `Outline.events` — the events of a full walk
-/

namespace ScriptLint

open Syntax

/-- What a walk meets. -/
inductive Event where
  | enter (isAsync : Bool)
  | leave (isAsync : Bool)
  | block (pos : Nat) (statements : List Stmt)
  | await (pos : Nat)
  | construct (pos : Nat) (callee : Expr) (args : List Expr)
  | call (pos : Nat) (callee : Expr) (args : List Expr)
  | imported (decl : ImportDecl)

/-- Whether a walk goes on. -/
inductive Flow where
  | onward
  | stop
  deriving DecidableEq, Repr

/-- What a walk has gathered, and whether it goes on. -/
structure Walk (σ : Type) where
  state : σ
  flow : Flow

namespace Walk

variable {σ : Type}

/-- Takes a step at an event that can stop the walk. -/
def meet (step : σ → Event → σ × Flow) (e : Event) (w : Walk σ) : Walk σ :=
  match w.flow with
  | .stop => w
  | .onward =>
    let (state, flow) := step w.state e
    ⟨state, flow⟩

/-- Takes a step at the end of a function, which does not change whether the walk goes on. -/
def leave (step : σ → Event → σ × Flow) (isAsync : Bool) (w : Walk σ) : Walk σ :=
  ⟨(step w.state (.leave isAsync)).1, w.flow⟩

end Walk

/-- The event of a mark. -/
def Mark.event : Mark → Event
  | await pos => .await pos
  | call pos callee args => .call pos callee args
  | construct pos callee args => .construct pos callee args
  | imported decl => .imported decl

namespace Outline

variable {σ : Type}

mutual

/-- Walks through a part. -/
def walkPart (step : σ → Event → σ × Flow) : Outline → Walk σ → Walk σ
  | .read _, w | .bind _ _, w => w
  | .mark m, w => w.meet step m.event
  | .region (.function _ isAsync) parts, w =>
    match w.flow with
    | .stop => w
    | .onward => (walkParts step parts (w.meet step (.enter isAsync))).leave step isAsync
  | .region (.block pos statements _) parts, w =>
    walkParts step parts (w.meet step (.block pos statements))
  | .region _ parts, w => walkParts step parts w

/-- Walks through several parts, one after the other. -/
def walkParts (step : σ → Event → σ × Flow) : List Outline → Walk σ → Walk σ
  | [], w => w
  | o :: more, w => walkParts step more (walkPart step o w)

end

/-- Folds a step over the events of a script, until it stops the walk. -/
def walk (step : σ → Event → σ × Flow) (start : σ) (outline : List Outline) : σ :=
  (walkParts step outline ⟨start, .onward⟩).state

mutual

/-- The events of a part. -/
def partEvents : Outline → List Event
  | .read _ | .bind _ _ => []
  | .mark m => [m.event]
  | .region (.function _ isAsync) parts =>
    .enter isAsync :: (partsEvents parts ++ [.leave isAsync])
  | .region (.block pos statements _) parts => .block pos statements :: partsEvents parts
  | .region _ parts => partsEvents parts

/-- The events of several parts. -/
def partsEvents : List Outline → List Event
  | [] => []
  | o :: more => partEvents o ++ partsEvents more

end

/-- The events of a full walk. -/
def events (outline : List Outline) : List Event :=
  partsEvents outline

end Outline

end ScriptLint
