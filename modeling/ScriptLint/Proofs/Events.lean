import Mathlib.Data.List.Basic
import ScriptLint.Proofs.Node
import ScriptLint.Proofs.Walk

/-!
# What a walk meets at the nodes of a script

A walk goes through the outline of a script. Seen from the syntax, it visits all nodes in the order
of the tree: what it meets at a node stands before what it meets at the children of the node, and
the end of a function after that. So the events that are not the end of a function are the nodes of
the script in the order of a visit, each with what it stands for.

## Main definitions

* `Node.events` — the events of a walk through a node
* `Node.met` — what a walk meets at a node itself

## Main results

* `Node.events_eq` — the events of a node by those of its children
* `Module.flatMap_events` — the events by the nodes of a script, the ends of functions apart
* `stateAfter_gather` — a step that only adds to a list
-/

namespace ScriptLint

open Syntax

namespace Outline

theorem partsEvents_eq (os : List Outline) : partsEvents os = os.flatMap partEvents := by
  induction os with
  | nil => rfl
  | cons o more ih => rw [partsEvents, ih, List.flatMap_cons]

end Outline

namespace Syntax.Node

open Outline

/-- The event at the start of a function or block. -/
def startEvents (n : Node) : List Event :=
  match n.region? with
  | some (.function _ isAsync) => [.enter isAsync]
  | some (.block pos statements _) => [.block pos statements]
  | _ => []

/-- The event at the end of a function. -/
def endEvents (n : Node) : List Event :=
  match n.region? with
  | some (.function _ isAsync) => [.leave isAsync]
  | _ => []

/-- What a walk meets at a node itself, before it goes on to the children. -/
def met (n : Node) : List Event :=
  n.startEvents ++ n.marks.map Mark.event

/-- The events of a walk through a node. -/
def events (n : Node) : List Event :=
  Outline.events n.outline

theorem partsEvents_own (n : Node) : partsEvents n.own = n.marks.map Mark.event := by
  have hsilent : ∀ {α : Type} (xs : List α) (f : α → Outline), (∀ x, partEvents (f x) = []) →
      (xs.map f).flatMap partEvents = [] := by
    intro α xs f hf
    rw [List.flatMap_map, List.flatMap_eq_nil_iff]
    exact fun x _ => hf x
  rw [partsEvents_eq, own, List.flatMap_append, List.flatMap_append, hsilent n.reads _ fun _ => rfl,
    hsilent n.declares _ fun _ => rfl, List.append_nil, List.append_nil, List.flatMap_map,
    List.map_eq_flatMap]
  rfl

theorem partsEvents_part (part : Part) :
    partsEvents part.outline = part.nodes.flatMap events := by
  have hnodes (ns : List Node) : partsEvents (ns.flatMap outline) = ns.flatMap events := by
    rw [partsEvents_eq, List.flatMap_assoc]
    exact List.flatMap_congr fun c _ => (partsEvents_eq c.outline).symm
  cases part with
  | inner ns => exact hnodes ns
  | aside ns =>
    rw [Part.outline, aside]
    split
    · next hempty => rw [Part.nodes, ← hnodes, List.isEmpty_iff.mp hempty]
    · exact (List.append_nil _).trans (hnodes ns)

/-- **The events of a node by those of its children.** -/
theorem events_eq (n : Node) : n.events = n.met ++ n.children.flatMap events ++ n.endEvents := by
  have hparts : partsEvents (n.own ++ n.parts.flatMap Part.outline) =
      n.marks.map Mark.event ++ n.children.flatMap events := by
    rw [partsEvents_eq, List.flatMap_append, ← partsEvents_eq, partsEvents_own, List.flatMap_assoc,
      children, List.flatMap_assoc]
    refine congrArg _ (List.flatMap_congr fun part _ => ?_)
    rw [← partsEvents_eq]
    exact partsEvents_part part
  rw [events, Outline.events, outline_eq, wrap, met, startEvents, endEvents]
  cases n.region? with
  | none => simpa using hparts
  | some r => cases r <;> simp [partsEvents, partEvents, hparts]

end Syntax.Node

/-- **The events of a walk are the nodes of the script** in the order of a visit, except that the
ends of functions stand after all that is inside. -/
theorem Syntax.Module.flatMap_events {α : Type} (m : Module) (f : Event → List α)
    (hleave : ∀ isAsync, f (.leave isAsync) = []) :
    (Outline.events m.outline).flatMap f = m.occurrences.flatMap fun o => o.node.met.flatMap f := by
  have hnode : ∀ (n : Node) (around : List Node),
      n.events.flatMap f = (n.occurrences around).flatMap fun o => o.node.met.flatMap f := by
    intro n
    induction n using Node.induction with
    | step n ih =>
      intro around
      have hends : n.endEvents.flatMap f = [] := by
        rw [Node.endEvents]
        split <;> simp [hleave]
      rw [Node.events_eq, Node.occurrences_eq, List.flatMap_append, List.flatMap_append, hends,
        List.append_nil, List.flatMap_cons, List.flatMap_assoc, List.flatMap_assoc]
      exact congrArg _ (List.flatMap_congr fun c hc => ih c hc (n :: around))
  exact hnode (.module m.items) []

/-- A step that only adds to a list gathers what it adds at each event. -/
theorem stateAfter_gather {α : Type} {step : List α → Event → List α × Flow} {f : Event → List α}
    (hstep : ∀ found e, (step found e).1 = found ++ f e) (found : List α) (events : List Event) :
    stateAfter step found events = found ++ events.flatMap f := by
  induction events generalizing found with
  | nil => exact (List.append_nil _).symm
  | cons e rest ih =>
    have hnext : stateAfter step found (e :: rest) = stateAfter step (found ++ f e) rest := by
      rw [← hstep]
      rfl
    rw [hnext, ih, List.flatMap_cons, List.append_assoc]

end ScriptLint
