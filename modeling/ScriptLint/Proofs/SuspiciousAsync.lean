import ScriptLint.Proofs.Events
import ScriptLint.Rule.SuspiciousAsync

/-!
# The innermost function decides

Whether an `await` is in place depends on the innermost function around it. The rule keeps a stack
of functions while it walks through a script, and at every node the stack holds the functions around
that node, from the innermost outward.

What the walk takes for the inside of a function is all that the node of the function holds. For an
accessor this includes the name of the accessor, and for a method its decorators: parts that are
evaluated where the function is made, not where it is run. An `await` in such a *head* belongs to
the function around the whole object or class, but the rule puts it down to the accessor or method.

## Main definitions

* `Role`, `Node.limbs` — the children of a node by how they belong to the function that it makes
* `Spot`, `Module.spots` — the nodes of a script with the nodes around them and the parts of these
  that they stand in
* `Spot.functions`, `Spot.holder?`, `Spot.InHead` — the functions around a spot, the one that it
  belongs to, and whether it stands in the head of one
* `SuspiciousAsync.MakesPromise` — a `Promise` is made with an `async` function

## Main results

* `Module.spots_occurrences` — the spots are all nodes of a script, in the order of a visit
* `SuspiciousAsync.stateAfter_met`, `SuspiciousAsync.stateAfter_events` — one node, and all of them
* `SuspiciousAsync.check_innermost` — the rule outside of heads
* `SuspiciousAsync.check_heads` — the rule in heads
-/

namespace ScriptLint

open Syntax

/-! ## Spots -/

/-- How a part belongs to the function that it stands in. -/
inductive Role where
  /-- The name of an accessor or constructor, or a decorator of a method. -/
  | head
  /-- A type parameter or the type of the result. -/
  | type
  /-- A parameter or the body. -/
  | code
  deriving DecidableEq, Repr

/-- A node and how one of its parts belongs to it; a role only counts for functions. -/
structure Limb where
  node : Node
  role : Role

/-- Nodes that play the same role. -/
def Limb.all (role : Role) (nodes : List Node) : List Limb :=
  nodes.map (⟨·, role⟩)

namespace Syntax.Node

/-- Whether a function is marked `async`. -/
def isAsync? : Node → Option Bool
  | .function _ (.mk isAsync _ _ _ _) | .expr (.arrow _ isAsync _ _ _) => some isAsync
  | .property (.getter _ _ _) | .property (.setter _ _ _ _) | .member (.initializer _ _ _ _) =>
    some false
  | _ => none

/-- The children of a node, each with its role. -/
def limbs : Node → List Limb
  | .function _ (.mk _ params decorators code types) =>
    Limb.all .code (params.map .pat) ++ Limb.all .head (decorators.map .expr) ++
      Limb.all .code (code.toList.map ofBody) ++ Limb.all .type (types.map .expr)
  | .expr (.arrow _ _ params code types) =>
    Limb.all .code (params.map .pat ++ [ofBody code]) ++ Limb.all .type (types.map .expr)
  | .property (.getter name types code) =>
    Limb.all .head [.key name] ++ Limb.all .type (types.map .expr) ++
      Limb.all .code (code.toList.map ofBody)
  | .property (.setter name receiver param code) =>
    Limb.all .head [.key name] ++
      Limb.all .code (receiver.map .expr ++ .pat param :: code.toList.map ofBody)
  | .member (.initializer _ name params code) =>
    Limb.all .head [.key name] ++ Limb.all .code (params.map .pat ++ code.toList.map ofBody)
  | n => Limb.all .code n.children

theorem map_node_all (role : Role) (nodes : List Node) :
    (Limb.all role nodes).map Limb.node = nodes := by
  simp [Limb.all, Function.comp_def]

/-- The limbs of a node are its children. -/
theorem map_node_limbs (n : Node) : n.limbs.map Limb.node = n.children := by
  cases n with
  | function name fn =>
    cases fn
    simp [limbs, map_node_all, children, parts, Part.nodes]
  | expr e =>
    cases e
    case arrow => simp [limbs, map_node_all, children, parts, Expr.parts, Part.nodes]
    all_goals exact map_node_all _ _
  | property p =>
    cases p
    case getter | setter => simp [limbs, map_node_all, children, parts, Property.parts, Part.nodes]
    all_goals exact map_node_all _ _
  | member m =>
    cases m
    case initializer => simp [limbs, map_node_all, children, parts, Member.parts, Part.nodes]
    all_goals exact map_node_all _ _
  | _ => exact map_node_all _ _

theorem mem_children_of_mem_limbs {n : Node} {l : Limb} (h : l ∈ n.limbs) :
    l.node ∈ n.children := by
  rw [← map_node_limbs]
  exact List.mem_map_of_mem h

/-- A node is an accessor of an object, or a constructor. -/
def IsAccessor : Node → Prop
  | .property (.getter _ _ _) | .property (.setter _ _ _ _) | .member (.initializer _ _ _ _) => True
  | _ => False

/-- Only functions with decorators, accessors and constructors have a head. -/
theorem decorated_or_isAccessor {n : Node} {l : Limb} (hl : l ∈ n.limbs) (hrole : l.role = .head) :
    (∃ name isAsync params decorators code types, decorators ≠ [] ∧
      n = .function name (.mk isAsync params decorators code types)) ∨ n.IsAccessor := by
  have hall : ∀ nodes, l ∈ Limb.all .code nodes → False := by
    intro nodes h
    obtain ⟨_, -, rfl⟩ := List.mem_map.mp h
    cases hrole
  cases n with
  | function name fn =>
    obtain ⟨isAsync, params, decorators, code, types⟩ := fn
    refine .inl ⟨name, isAsync, params, decorators, code, types, ?_, rfl⟩
    rintro rfl
    obtain ⟨node, role⟩ := l
    cases hrole
    simp [limbs, Limb.all] at hl
  | expr e =>
    cases e
    case arrow =>
      obtain ⟨node, role⟩ := l
      cases hrole
      simp [limbs, Limb.all] at hl
    all_goals exact (hall _ hl).elim
  | property p =>
    cases p
    case getter | setter => exact .inr trivial
    all_goals exact (hall _ hl).elim
  | member m =>
    cases m
    case initializer => exact .inr trivial
    all_goals exact (hall _ hl).elim
  | _ => exact (hall _ hl).elim

theorem IsAccessor.isAsync? {n : Node} (h : n.IsAccessor) : n.isAsync? = some false := by
  unfold IsAccessor at h
  split at h
  · rfl
  · rfl
  · rfl
  · exact h.elim

end Syntax.Node

/-- A node with the nodes around it, the innermost first, and the parts of these that it stands
in. -/
structure Spot where
  node : Node
  around : List Limb

/-- The spots inside a node, in the order of a visit. -/
def Syntax.Node.spots (around : List Limb) (n : Node) : List Spot :=
  ⟨n, around⟩ :: n.limbs.attach.flatMap fun ⟨l, _⟩ => l.node.spots (⟨n, l.role⟩ :: around)
termination_by n.size
decreasing_by exact Node.size_lt_of_mem_children (Node.mem_children_of_mem_limbs ‹_›)

theorem Syntax.Node.spots_eq (around : List Limb) (n : Node) : n.spots around =
    ⟨n, around⟩ :: n.limbs.flatMap fun l => l.node.spots (⟨n, l.role⟩ :: around) := by
  rw [Node.spots]
  simp

/-- The spots of a script. -/
def Syntax.Module.spots (m : Module) : List Spot :=
  (Node.module m.items).spots []

namespace Spot

/-- The node of a spot with the nodes around it. -/
def occurrence (spot : Spot) : Occurrence :=
  ⟨spot.node, spot.around.map Limb.node⟩

/-- The functions around a spot, the innermost first: whether they are `async`, and how the spot
belongs to them. -/
def functions (spot : Spot) : List (Bool × Role) :=
  spot.around.filterMap fun l => l.node.isAsync?.map (·, l.role)

/-- The innermost function that a spot belongs to. -/
def holder? (spot : Spot) : Option Bool :=
  (spot.functions.find? (·.2 != .head)).map Prod.fst

/-- A spot stands in the head of a function, and in no function inside of it. -/
def InHead (spot : Spot) : Prop :=
  spot.functions.head?.map Prod.snd = some .head

/-- The innermost function around a spot comes first. -/
theorem functions_eq_cons {spot : Spot} {inner outer : List Limb} {n : Node} {role : Role}
    {isAsync : Bool} (haround : spot.around = inner ++ ⟨n, role⟩ :: outer)
    (hinner : ∀ l ∈ inner, l.node.isAsync? = none) (hn : n.isAsync? = some isAsync) :
    spot.functions =
      (isAsync, role) :: outer.filterMap fun l => l.node.isAsync?.map (·, l.role) := by
  refine List.filterMap_eq_cons_iff.mpr ⟨inner, ⟨n, role⟩, outer, haround, ?_, ?_, rfl⟩
  · intro l hl
    rw [hinner l hl, Option.map_none]
  · rw [hn, Option.map_some]

end Spot

/-- **The spots are all nodes of a script**, in the order of a visit. -/
theorem Syntax.Module.spots_occurrences (m : Module) :
    m.spots.map Spot.occurrence = m.occurrences := by
  have hnode : ∀ (n : Node) (around : List Limb),
      (n.spots around).map Spot.occurrence = n.occurrences (around.map Limb.node) := by
    intro n
    induction n using Node.induction with
    | step n ih =>
      intro around
      rw [Node.spots_eq, Node.occurrences_eq, List.map_cons, List.map_flatMap, ← n.map_node_limbs,
        List.flatMap_map]
      refine congrArg _ (List.flatMap_congr fun l hl => ?_)
      exact ih l.node (Node.mem_children_of_mem_limbs hl) (⟨n, l.role⟩ :: around)
  exact hnode (.module m.items) []

/-- A spot only stands in parts that the nodes around it have. -/
theorem Syntax.Module.exists_limb_of_around {m : Module} {spot : Spot} (h : spot ∈ m.spots) :
    ∀ l ∈ spot.around, ∃ part ∈ l.node.limbs, part.role = l.role := by
  have hnode : ∀ (n : Node) (around : List Limb),
      (∀ l ∈ around, ∃ part ∈ l.node.limbs, part.role = l.role) →
      ∀ spot ∈ n.spots around, ∀ l ∈ spot.around, ∃ part ∈ l.node.limbs, part.role = l.role := by
    intro n
    induction n using Node.induction with
    | step n ih =>
      intro around haround spot hspot
      rw [Node.spots_eq, List.mem_cons, List.mem_flatMap] at hspot
      rcases hspot with rfl | ⟨part, hpart, hspot⟩
      · exact haround
      · refine ih part.node (Node.mem_children_of_mem_limbs hpart) _ ?_ spot hspot
        exact List.forall_mem_cons.mpr ⟨⟨part, hpart, rfl⟩, haround⟩
  exact hnode (.module m.items) [] (by simp) spot h

namespace SuspiciousAsync

/-! ## Promises -/

/-- An expression is another one with any number of parentheses around it. -/
inductive Wraps : Expr → Expr → Prop
  | bare (e : Expr) : Wraps e e
  | paren (pos : Nat) {e inner : Expr} (h : Wraps e inner) : Wraps (.paren pos e) inner

/-- An expression is a function marked `async`. -/
def IsAsyncFunction (e : Expr) : Prop :=
  (∃ pos name params decorators body types,
    e = .function pos name (.mk true params decorators body types)) ∨
  ∃ pos params body types, e = .arrow pos true params body types

/-- A `Promise` is made, and the first thing that it is made with is an `async` function. One that is
spread is not the function itself. -/
def MakesPromise (callee : Expr) (args : List Expr) : Prop :=
  (∃ pos, Wraps callee (.ident ⟨"Promise", pos⟩)) ∧
    ∃ first more fn, args = first :: more ∧ Wraps first fn ∧ IsAsyncFunction fn

theorem wraps_unparen (e : Expr) : Wraps e e.unparen := by
  fun_induction Expr.unparen e with
  | case1 pos inner ih => exact .paren pos ih
  | case2 e _ => exact .bare e

theorem Wraps.eq_unparen {e inner : Expr} (h : Wraps e inner) (hinner : inner.unparen = inner) :
    inner = e.unparen := by
  induction h with
  | bare e => exact hinner.symm
  | paren pos _ ih => exact ih hinner

theorem isAsyncFunction_iff {e : Expr} :
    isAsyncFunction e = true ↔ ∃ fn, Wraps e fn ∧ IsAsyncFunction fn := by
  constructor
  · intro h
    refine ⟨e.unparen, wraps_unparen e, ?_⟩
    rw [isAsyncFunction] at h
    split at h
    · next pos name isAsync params decorators body types heq =>
      subst h
      exact .inl ⟨pos, name, params, decorators, body, types, heq⟩
    · next pos isAsync params body types heq =>
      subst h
      exact .inr ⟨pos, params, body, types, heq⟩
    · cases h
  · rintro ⟨fn, hwraps, ⟨_, _, _, _, _, _, rfl⟩ | ⟨_, _, _, _, rfl⟩⟩ <;>
      rw [isAsyncFunction, ← hwraps.eq_unparen rfl]

theorem isAsyncExecutor_iff {callee : Expr} {args : List Expr} :
    isAsyncExecutor callee args = true ↔ MakesPromise callee args := by
  constructor
  · intro h
    rw [isAsyncExecutor.eq_def] at h
    split at h
    · next id first more heq =>
      rw [Bool.and_eq_true, beq_iff_eq] at h
      obtain ⟨name, pos⟩ := id
      obtain ⟨rfl, hfirst⟩ := h
      obtain ⟨fn, hwraps, hfn⟩ := isAsyncFunction_iff.mp hfirst
      exact ⟨⟨pos, heq ▸ wraps_unparen callee⟩, first, more, fn, rfl, hwraps, hfn⟩
    · cases h
  · rintro ⟨⟨pos, hcallee⟩, first, more, fn, rfl, hwraps, hfn⟩
    rw [isAsyncExecutor.eq_def, ← hcallee.eq_unparen rfl]
    exact Bool.and_eq_true_iff.mpr ⟨rfl, isAsyncFunction_iff.mpr ⟨fn, hwraps, hfn⟩⟩

/-! ## The stack of functions -/

/-- The stack that the rule has at a place: the functions around it, heads included. -/
def stackOf (around : List Limb) : List Bool :=
  around.filterMap (·.node.isAsync?)

/-- What the rule has to say about a spot. -/
def issue? (s : Subject) (spot : Spot) : Option Issue :=
  match spot.node with
  | .expr (.await pos _) =>
    if (stackOf spot.around).head? = some false then some (awaitIssue s pos) else none
  | .expr (.construct pos callee args _) =>
    if isAsyncExecutor callee args then some (executorIssue s pos) else none
  | _ => none

/-- A step of the walk. -/
def step (s : Subject) (p : Progress) (e : Event) : Progress × Flow :=
  (look s p e, .onward)

theorem stackOf_cons (n : Node) (role : Role) (around : List Limb) :
    stackOf (⟨n, role⟩ :: around) = n.isAsync?.toList ++ stackOf around := by
  rw [stackOf, List.filterMap_cons]
  cases n.isAsync? <;> rfl

section Run

variable (s : Subject) (found : List Issue) (around : List Limb)

/-- **At a node** the rule puts the function that the node makes on its stack, and says what there is
to say about the spot. -/
theorem stateAfter_met (n : Node) :
    stateAfter (step s) ⟨stackOf around, found⟩ n.met =
      ⟨n.isAsync?.toList ++ stackOf around, found ++ (issue? s ⟨n, around⟩).toList⟩ := by
  have hquiet : ∀ p : Progress, p = ⟨[] ++ p.functions, p.issues ++ []⟩ := by simp
  cases n with
  | expr e =>
    cases e with
    | await pos operand =>
      simp only [issue?]
      by_cases h : (stackOf around).head? = some false <;>
        simp [stateAfter, Node.met, Node.startEvents, Node.region?, Node.marks, Mark.event, step,
          look, Node.isAsync?, h]
    | construct pos callee args types =>
      by_cases h : isAsyncExecutor callee args <;>
        simp [stateAfter, Node.met, Node.startEvents, Node.region?, Node.marks, Mark.event, step,
          look, Node.isAsync?, issue?, h]
    | arrow _ _ _ _ _ => exact congrArg (Progress.mk _) (List.append_nil found).symm
    | _ => exact hquiet _
  | property p =>
    cases p with
    | getter _ _ _ | setter _ _ _ _ => exact congrArg (Progress.mk _) (List.append_nil found).symm
    | _ => exact hquiet _
  | member m =>
    cases m with
    | initializer _ _ _ _ => exact congrArg (Progress.mk _) (List.append_nil found).symm
    | _ => exact hquiet _
  | stmt st => cases st <;> exact hquiet _
  | function name fn =>
    cases fn
    exact congrArg (Progress.mk _) (List.append_nil found).symm
  | _ => exact hquiet _

/-- At the end of a node its function is taken off the stack again. -/
theorem stateAfter_endEvents (n : Node) :
    stateAfter (step s) ⟨n.isAsync?.toList ++ stackOf around, found⟩ n.endEvents =
      ⟨stackOf around, found⟩ := by
  cases n with
  | expr e => cases e <;> rfl
  | property p => cases p <;> rfl
  | member m => cases m <;> rfl
  | stmt st => cases st <;> rfl
  | function name fn => cases fn; rfl
  | _ => rfl

end Run

/-- **Along a whole node** the rule says what there is to say about its spots, in order, and leaves
its stack as it was. -/
theorem stateAfter_events (s : Subject) (n : Node) (around : List Limb) (found : List Issue) :
    stateAfter (step s) ⟨stackOf around, found⟩ n.events =
      ⟨stackOf around, found ++ (n.spots around).filterMap (issue? s)⟩ := by
  induction n using Node.induction generalizing around found with
  | step n ih =>
    -- The invariant for the children: the stack holds the functions around them.
    have hlimbs : ∀ ls : List Limb, (∀ l ∈ ls, l ∈ n.limbs) → ∀ found : List Issue,
        stateAfter (step s) ⟨n.isAsync?.toList ++ stackOf around, found⟩
            ((ls.map Limb.node).flatMap Node.events) =
          ⟨n.isAsync?.toList ++ stackOf around, found ++
            (ls.flatMap fun l => l.node.spots (⟨n, l.role⟩ :: around)).filterMap (issue? s)⟩ := by
      intro ls
      induction ls with
      | nil => exact fun _ found => congrArg (Progress.mk _) (List.append_nil found).symm
      | cons l ls ihl =>
        intro hls found
        have hl := ih l.node (Node.mem_children_of_mem_limbs (hls l List.mem_cons_self))
          (⟨n, l.role⟩ :: around) found
        rw [stackOf_cons] at hl
        rw [List.map_cons, List.flatMap_cons, stateAfter_append, hl,
          ihl fun x hx => hls x (List.mem_cons_of_mem _ hx), List.flatMap_cons,
          List.filterMap_append, List.append_assoc]
    rw [Node.events_eq, stateAfter_append, stateAfter_append, stateAfter_met, ← n.map_node_limbs,
      hlimbs n.limbs fun _ hl => hl, stateAfter_endEvents, Node.spots_eq, List.append_assoc]
    cases hissue : issue? s ⟨n, around⟩ <;> simp [hissue]

/-- The issues by the spots of the script, in the order of a visit. -/
theorem check_eq_spots (s : Subject) :
    check s = s.script.module.spots.filterMap (issue? s) := by
  have hwalk : check s = (stateAfter (step s) ⟨[], []⟩ (Outline.events s.script.outline)).issues :=
    congrArg Progress.issues (Outline.walk_eq_stateAfter (fun _ _ => rfl) _ _)
  rw [hwalk]
  exact congrArg Progress.issues (stateAfter_events s (.module s.script.module.items) [] [])

/-! ## Which function decides -/

theorem map_fst_functions (spot : Spot) : spot.functions.map Prod.fst = stackOf spot.around := by
  rw [Spot.functions, List.map_filterMap, stackOf]
  refine congrArg (List.filterMap · spot.around) (funext fun l => ?_)
  cases l.node.isAsync? <;> rfl

/-- Outside of heads, the top of the stack is the function that a spot belongs to. -/
theorem head?_stackOf {spot : Spot} (h : ¬ spot.InHead) :
    (stackOf spot.around).head? = spot.holder? := by
  rw [← map_fst_functions, Spot.holder?]
  rw [Spot.InHead] at h
  cases hfunctions : spot.functions with
  | nil => rfl
  | cons f outer =>
    have hrole : (f.2 != .head) = true := by
      rw [hfunctions] at h
      simpa using h
    simp [hrole]

open Classical in
/-- **The innermost function decides.** The issues are those of the spots of the script, in the order
of a visit. An `await` that does not stand in a head has one exactly if it belongs to some function
and the innermost such function is not `async`. A `new` has one exactly if it makes a `Promise` with
an `async` function. No other spot has one. -/
theorem check_innermost (s : Subject) : ∃ issue? : Spot → Option Issue,
    check s = s.script.module.spots.filterMap issue? ∧
    (∀ spot ∈ s.script.module.spots,
      (∀ pos operand, spot.node = .expr (.await pos operand) → ¬ spot.InHead →
        issue? spot = if spot.holder? = some false then some (awaitIssue s pos) else none) ∧
      (∀ pos callee args types, spot.node = .expr (.construct pos callee args types) →
        issue? spot = if MakesPromise callee args then some (executorIssue s pos) else none) ∧
      ((∀ pos operand, spot.node ≠ .expr (.await pos operand)) →
        (∀ pos callee args types, spot.node ≠ .expr (.construct pos callee args types)) →
        issue? spot = none)) ∧
    ∀ pos, (awaitIssue s pos).title = "await used inside non-async function" ∧
      (awaitIssue s pos).line = some (s.script.position pos).line ∧
      (awaitIssue s pos).column = some (s.script.position pos).column := by
  refine ⟨issue? s, check_eq_spots s, fun spot _ => ⟨?_, ?_, ?_⟩, fun _ => ⟨rfl, rfl, rfl⟩⟩
  · intro pos operand hnode hhead
    rw [issue?, hnode, ← head?_stackOf hhead]
  · intro pos callee args types hnode
    simp only [issue?, hnode, isAsyncExecutor_iff]
  · intro hawait hconstruct
    rw [issue?]
    split
    · next pos operand hnode => exact absurd hnode (hawait pos operand)
    · next pos callee args types hnode => exact absurd hnode (hconstruct pos callee args types)
    · rfl

/-- A file of one script. -/
def fileOf (path text : String) (items : List Stmt) : Subject where
  file := ⟨path, text.toList⟩
  script := ⟨text.toList, ⟨items⟩⟩
  exports := .empty
  overrides := []

/-- Where the `await`s of a script stand, and the functions around each. -/
def awaits (m : Module) : List (Nat × List (Bool × Role)) :=
  m.spots.filterMap fun spot =>
    match spot.node with
    | .expr (.await pos _) => some (pos, spot.functions)
    | _ => none

theorem exists_of_mem_awaits {m : Module} {pos : Nat} {functions : List (Bool × Role)}
    (h : (pos, functions) ∈ awaits m) : ∃ spot ∈ m.spots, ∃ operand,
      spot.node = .expr (.await pos operand) ∧ spot.functions = functions := by
  obtain ⟨spot, hspot, hsome⟩ := List.mem_filterMap.mp h
  refine ⟨spot, hspot, ?_⟩
  split at hsome
  · next pos operand hnode =>
    cases hsome
    exact ⟨operand, hnode, rfl⟩
  · cases hsome

/-- A function that is not `async` inside one that is. -/
def nestedFunctions : Subject :=
  fileOf "a.js" "async () => () => await b" [
    .expr 0 (.arrow 0 true [] (.expr 12
      (.arrow 12 false [] (.expr 18 (.await 18 (.ident ⟨"b", 24⟩))) [])) [])]

theorem check_innermost_nestedFunctions :
    awaits nestedFunctions.script.module = [(18, [(false, .code), (true, .code)])] ∧
    ∃ issue? : Spot → Option Issue,
      check nestedFunctions = nestedFunctions.script.module.spots.filterMap issue? ∧
      ∃ spot ∈ nestedFunctions.script.module.spots, ∃ operand,
        spot.node = .expr (.await 18 operand) ∧ ¬ spot.InHead ∧
          issue? spot = some (awaitIssue nestedFunctions 18) := by
  have hawaits : awaits nestedFunctions.script.module =
      [(18, [(false, .code), (true, .code)])] := by decide +kernel
  obtain ⟨spot, hspot, operand, hnode, hfunctions⟩ :=
    exists_of_mem_awaits (hawaits ▸ List.mem_singleton_self _)
  have hhead : ¬ spot.InHead := by simp [Spot.InHead, hfunctions]
  obtain ⟨issue?, hcheck, hexact, -⟩ := check_innermost nestedFunctions
  refine ⟨hawaits, issue?, hcheck, spot, hspot, operand, hnode, hhead, ?_⟩
  rw [(hexact spot hspot).1 18 operand hnode hhead]
  simp [Spot.holder?, hfunctions]

/-- A function whose result type has an `await`. -/
def awaitInResultType : Subject :=
  fileOf "a.ts" "function f(): \x7b [await x]: number \x7d \x7b\x7d" [
    .function 0 false ⟨"f", 9⟩ (.mk false [] [] (some (.block 36 []))
      [.await 17 (.ident ⟨"x", 23⟩), .literal 25])]

/-- An `await` in the type of a result is reported, though it stands in no parameter, body or
head. -/
theorem awaitInResultType_reported :
    awaits awaitInResultType.script.module = [(17, [(false, .type)])] ∧
    (check awaitInResultType).map (·.title) = ["await used inside non-async function"] := by
  decide +kernel

/-! ## Heads -/

/-- In a head, the top of the stack is the function that the head is of. -/
theorem exists_head {spot : Spot} (h : spot.InHead) : ∃ inner n outer isAsync,
    spot.around = inner ++ ⟨n, .head⟩ :: outer ∧ (∀ l ∈ inner, l.node.isAsync? = none) ∧
      n.isAsync? = some isAsync ∧ (stackOf spot.around).head? = some isAsync := by
  rw [Spot.InHead] at h
  rw [← map_fst_functions]
  cases hfunctions : spot.functions with
  | nil => simp [hfunctions] at h
  | cons f rest =>
    obtain ⟨inner, ⟨n, role⟩, outer, haround, hinner, hf, -⟩ :=
      List.filterMap_eq_cons_iff.mp hfunctions
    obtain ⟨isAsync, hisAsync, rfl⟩ := Option.map_eq_some_iff.mp hf
    obtain rfl : role = .head := by simpa [hfunctions] using h
    exact ⟨inner, n, outer, isAsync, haround, fun l hl => by simpa using hinner l hl, hisAsync, rfl⟩

/-- **The owner of a head decides.** An `await` that stands in a head, and in no function inside of
it, stands in a decorator of a function or in the name of an accessor or constructor. In a decorator
it has an issue exactly if that function is not `async`, in a name it always has one. The functions
around the whole object or class have no part in this. -/
theorem check_heads (s : Subject) : ∃ issue? : Spot → Option Issue,
    check s = s.script.module.spots.filterMap issue? ∧
    ∀ spot ∈ s.script.module.spots, ∀ pos operand,
      spot.node = .expr (.await pos operand) → spot.InHead →
      ∃ inner n outer, spot.around = inner ++ ⟨n, .head⟩ :: outer ∧
        (∀ l ∈ inner, l.node.isAsync? = none) ∧
        ((∃ name isAsync params decorators code types, decorators ≠ [] ∧
            n = .function name (.mk isAsync params decorators code types) ∧
            issue? spot = if isAsync then none else some (awaitIssue s pos)) ∨
          n.IsAccessor ∧ issue? spot = some (awaitIssue s pos)) := by
  refine ⟨issue? s, check_eq_spots s, fun spot hspot pos operand hnode hhead => ?_⟩
  obtain ⟨inner, n, outer, isAsync, haround, hinner, hisAsync, htop⟩ := exists_head hhead
  refine ⟨inner, n, outer, haround, hinner, ?_⟩
  have hissue : issue? s spot = if isAsync then none else some (awaitIssue s pos) := by
    rw [issue?, hnode]
    cases isAsync <;> simp [htop]
  have hmem : ⟨n, .head⟩ ∈ spot.around := by simp [haround]
  obtain ⟨part, hpart, hrole⟩ := Module.exists_limb_of_around hspot _ hmem
  rcases Node.decorated_or_isAccessor hpart hrole with
    ⟨name, isAsync', params, decorators, code, types, hne, rfl⟩ | haccessor
  · obtain rfl : isAsync' = isAsync := Option.some.inj hisAsync
    exact .inl ⟨name, isAsync', params, decorators, code, types, hne, rfl, hissue⟩
  · obtain rfl : false = isAsync := Option.some.inj (haccessor.isAsync?.symm.trans hisAsync)
    exact .inr ⟨haccessor, hissue⟩

/-- A decorator of an `async` method, in a function that is not `async`. -/
def decoratedAsyncMethod : Subject :=
  fileOf "a.ts" "function f() \x7b class A \x7b @d(await x) async m() \x7b\x7d \x7d \x7d" [
    .function 0 false ⟨"f", 9⟩ (.mk false [] [] (some (.block 13 [
      .classDecl 15 false ⟨"A", 21⟩ (.mk [] [
        .method 25 (.named 43 "m") (.mk true []
          [.call 26 (.ident ⟨"d", 26⟩) [.await 28 (.ident ⟨"x", 34⟩)] []]
          (some (.block 47 [])) [])] none [])])) [])]

theorem check_heads_decoratedAsyncMethod :
    awaits decoratedAsyncMethod.script.module = [(28, [(true, .head), (false, .code)])] ∧
    ∃ issue? : Spot → Option Issue,
      check decoratedAsyncMethod = decoratedAsyncMethod.script.module.spots.filterMap issue? ∧
      ∃ spot ∈ decoratedAsyncMethod.script.module.spots, ∃ operand,
        spot.node = .expr (.await 28 operand) ∧ spot.InHead ∧ issue? spot = none := by
  have hawaits : awaits decoratedAsyncMethod.script.module =
      [(28, [(true, .head), (false, .code)])] := by decide +kernel
  obtain ⟨spot, hspot, operand, hnode, hfunctions⟩ :=
    exists_of_mem_awaits (hawaits ▸ List.mem_singleton_self _)
  have hhead : spot.InHead := by simp [Spot.InHead, hfunctions]
  obtain ⟨issue?, hcheck, hheads⟩ := check_heads decoratedAsyncMethod
  refine ⟨hawaits, issue?, hcheck, spot, hspot, operand, hnode, hhead, ?_⟩
  obtain ⟨inner, n, outer, haround, hinner, howner⟩ := hheads spot hspot 28 operand hnode hhead
  have hfirst : ∀ isAsync, n.isAsync? = some isAsync → isAsync = true := by
    intro isAsync hn
    have hcons := hfunctions.symm.trans (Spot.functions_eq_cons haround hinner hn)
    exact (Prod.mk.inj (List.cons.inj hcons).1).1.symm
  rcases howner with ⟨name, isAsync, _, _, _, _, -, rfl, hissue⟩ | ⟨haccessor, -⟩
  · obtain rfl := hfirst isAsync rfl
    exact hissue
  · cases hfirst false haccessor.isAsync?

/-- A decorator of a method, outside of all functions. -/
def decoratedMethod : Subject :=
  fileOf "a.ts" "class A \x7b @dec(await x) m() \x7b\x7d \x7d" [
    .classDecl 0 false ⟨"A", 6⟩ (.mk [] [
      .method 10 (.named 24 "m") (.mk false []
        [.call 11 (.ident ⟨"dec", 11⟩) [.await 15 (.ident ⟨"x", 21⟩)] []]
        (some (.block 28 [])) [])] none [])]

/-- An `await` in a decorator is reported, though no function is around the whole class. -/
theorem decoratedMethod_reported :
    awaits decoratedMethod.script.module = [(15, [(false, .head)])] ∧
    (check decoratedMethod).map (·.title) = ["await used inside non-async function"] := by
  decide +kernel

end SuspiciousAsync

end ScriptLint
