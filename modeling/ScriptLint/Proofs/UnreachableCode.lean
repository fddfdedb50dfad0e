import ScriptLint.Proofs.Events
import ScriptLint.Rule.UnreachableCode

/-!
# Every block is looked at once

Blocks stand anywhere in a script: as bodies of functions, accessors, loops and handlers, inside
other blocks, and inside any expression that holds a function or a class. The walk comes by each of
them once, and what it says about a block depends on the statements of that block alone, not on the
blocks around it or inside it.

The braces of a static block, the cases of a choice, a namespace and the script itself hold
statements, but are no blocks.

## Main definitions

* `Node.statements?`, `Module.blocks` — the blocks of a script, in the order of a visit
* `UnreachableCode.FollowsJump` — a statement stands right after the first jump of a block

## Main results

* `UnreachableCode.unreachable?_eq_some_iff` — which statement of a block is named
* `UnreachableCode.check_eq_blocks` — the issues, by the blocks of the script
* `UnreachableCode.check_exact_blocks` — which blocks have an issue, and where
-/

namespace ScriptLint

open Syntax

/-- The statements of a block. -/
def Syntax.Node.statements? : Node → Option (List Stmt)
  | .stmt (.block _ statements) | .body _ statements => some statements
  | _ => none

/-- The blocks of a script, each by its statements, in the order of a visit. -/
def Syntax.Module.blocks (m : Module) : List (List Stmt) :=
  m.occurrences.filterMap (·.node.statements?)

namespace UnreachableCode

/-! ## One block -/

/-- A statement leaves its block for good. -/
def Jumps (statement : Stmt) : Prop :=
  ∃ pos kind value, statement = .jump pos kind value

/-- A statement stands right after the first jump of a block. -/
def FollowsJump (statements : List Stmt) (next : Stmt) : Prop :=
  ∃ before jump after, statements = before ++ jump :: next :: after ∧ Jumps jump ∧
    ∀ earlier ∈ before, ¬ Jumps earlier

theorem isJump_iff {statement : Stmt} : isJump statement = true ↔ Jumps statement := by
  cases statement <;> simp [isJump, Jumps]

/-- The statements from the first jump of a block on. -/
theorem exists_dropWhile_isJump (statements : List Stmt) :
    (statements.dropWhile (!isJump ·) = [] ∧ ∀ s ∈ statements, ¬ Jumps s) ∨
      ∃ before jump after, statements = before ++ jump :: after ∧ Jumps jump ∧
        (∀ earlier ∈ before, ¬ Jumps earlier) ∧
        statements.dropWhile (!isJump ·) = jump :: after := by
  induction statements with
  | nil => exact .inl ⟨rfl, nofun⟩
  | cons s more ih =>
    cases hs : isJump s with
    | true =>
      refine .inr ⟨[], s, more, rfl, isJump_iff.mp hs, nofun, ?_⟩
      rw [List.dropWhile_cons_of_neg (by simp [hs])]
    | false =>
      have hstays : ¬ Jumps s := fun h => by simp [isJump_iff.mpr h] at hs
      rw [List.dropWhile_cons_of_pos (by simp [hs])]
      rcases ih with ⟨hdrop, hmore⟩ | ⟨before, jump, after, rfl, hjump, hbefore, hdrop⟩
      · exact .inl ⟨hdrop, List.forall_mem_cons.mpr ⟨hstays, hmore⟩⟩
      · exact .inr ⟨s :: before, jump, after, rfl, hjump,
          List.forall_mem_cons.mpr ⟨hstays, hbefore⟩, hdrop⟩

/-- The first jump of a block is in one place only. -/
theorem eq_of_first_jump {before before' after after' : List Stmt} {jump jump' : Stmt}
    (h : before ++ jump :: after = before' ++ jump' :: after') (hjump : Jumps jump)
    (hjump' : Jumps jump') (hbefore : ∀ earlier ∈ before, ¬ Jumps earlier)
    (hbefore' : ∀ earlier ∈ before', ¬ Jumps earlier) : after = after' := by
  obtain ⟨between, rfl, hrest⟩ | ⟨between, rfl, hrest⟩ := List.append_eq_append_iff.mp h
  · cases between with
    | nil => exact (List.cons.inj hrest).2
    | cons s between =>
      obtain ⟨rfl, -⟩ := List.cons.inj hrest
      exact absurd hjump (hbefore' jump (by simp))
  · cases between with
    | nil => exact (List.cons.inj hrest).2.symm
    | cons s between =>
      obtain ⟨rfl, -⟩ := List.cons.inj hrest
      exact absurd hjump' (hbefore jump' (by simp))

/-- **The statement of a block that is named** stands right after its first jump. -/
theorem unreachable?_eq_some_iff {statements : List Stmt} {next : Stmt} :
    unreachable? statements = some next ↔ FollowsJump statements next := by
  rw [unreachable?]
  rcases exists_dropWhile_isJump statements with
    ⟨hdrop, hnone⟩ | ⟨before, jump, after, rfl, hjump, hbefore, hdrop⟩
  · rw [hdrop]
    constructor
    · exact nofun
    · rintro ⟨before, jump, after, rfl, hjump, -⟩
      exact absurd hjump (hnone jump (by simp))
  · rw [hdrop, List.getElem?_cons_succ]
    constructor
    · intro hnext
      cases after with
      | nil => cases hnext
      | cons first rest =>
        obtain rfl := Option.some.inj hnext
        exact ⟨before, jump, rest, rfl, hjump, hbefore⟩
    · rintro ⟨before', jump', rest, heq, hjump', hbefore'⟩
      rw [eq_of_first_jump heq hjump hjump' hbefore hbefore']
      rfl

/-- A statement is named exactly in the blocks that hold a jump which is not their last
statement. -/
theorem exists_followsJump_iff {statements : List Stmt} :
    (∃ next, FollowsJump statements next) ↔
      ∃ before jump after, statements = before ++ jump :: after ∧ Jumps jump ∧ after ≠ [] := by
  constructor
  · rintro ⟨next, before, jump, after, heq, hjump, -⟩
    exact ⟨before, jump, next :: after, heq, hjump, List.cons_ne_nil _ _⟩
  · rintro ⟨before, jump, after, heq, hjump, hafter⟩
    rcases exists_dropWhile_isJump statements with
      ⟨-, hnone⟩ | ⟨before', jump', after', heq', hjump', hbefore', -⟩
    · exact absurd hjump (hnone jump (by rw [heq]; simp))
    · -- The first jump is not the last statement either, since no other jump stands before it.
      cases after' with
      | cons next rest => exact ⟨next, before', jump', rest, heq', hjump', hbefore'⟩
      | nil =>
        rw [heq'] at heq
        obtain ⟨between, rfl, hrest⟩ | ⟨between, hbetween, hrest⟩ :=
          List.append_eq_append_iff.mp heq
        · cases between <;> simp_all
        · cases between with
          | nil => simp_all
          | cons s between =>
            obtain ⟨rfl, -⟩ := List.cons.inj hrest
            exact absurd hjump (hbefore' jump (by rw [hbetween]; simp))

/-! ## All blocks -/

/-- What the rule has to say about a block. -/
def issues (s : Subject) (statements : List Stmt) : List Issue :=
  ((unreachable? statements).map (issueAt s)).toList

/-- What the rule has to say at an event. -/
def issuesAt (s : Subject) : Event → List Issue
  | .block _ statements => issues s statements
  | _ => []

theorem flatMap_met (s : Subject) (n : Node) :
    n.met.flatMap (issuesAt s) = n.statements?.toList.flatMap (issues s) := by
  have hmarks : (n.marks.map Mark.event).flatMap (issuesAt s) = [] := by
    rw [List.flatMap_map, List.flatMap_eq_nil_iff]
    rintro (_ | _ | _ | _) _ <;> rfl
  rw [Node.met, List.flatMap_append, hmarks, List.append_nil]
  cases n with
  | expr e => cases e <;> rfl
  | property p => cases p <;> rfl
  | member m => cases m <;> rfl
  | stmt st => cases st <;> rfl
  | function name fn => cases fn; rfl
  | _ => rfl

/-- **The issues by the blocks of the script**, in the order of a visit. -/
theorem check_eq_blocks (s : Subject) : check s =
    (s.script.module.blocks.filterMap unreachable?).map (issueAt s) := by
  have hstep (found : List Issue) (e : Event) :
      (step s found e).1 = found ++ issuesAt s e := by
    cases e with
    | block pos statements => rfl
    | _ => exact (List.append_nil found).symm
  have hflow (found : List Issue) (e : Event) : (step s found e).2 = .onward := by
    cases e <;> rfl
  have hissues (n : Node) : n.statements?.toList.flatMap (issues s) =
      ((n.statements?.bind unreachable?).map (issueAt s)).toList := by
    cases n.statements? with
    | none => rfl
    | some statements => exact List.append_nil _
  rw [check, Outline.walk_eq_stateAfter hflow, stateAfter_gather hstep, List.nil_append,
    Script.outline, Module.flatMap_events _ _ fun _ => rfl, Module.blocks, List.filterMap_filterMap,
    List.map_filterMap, List.filterMap_eq_flatMap_toList]
  exact List.flatMap_congr fun o _ => (flatMap_met s o.node).trans (hissues o.node)

/-- **Every block is looked at once.** The issues are those of the blocks of the script, one after
the other. A block has an issue exactly if a jump stands among its statements that is not the last of
them, and the issue is then about the statement right after the first jump. -/
theorem check_exact_blocks (s : Subject) : ∃ dead? : List Stmt → Option Stmt,
    check s = (s.script.module.blocks.filterMap dead?).map (issueAt s) ∧
    (∀ statements, (dead? statements).isSome ↔
      ∃ before jump after, statements = before ++ jump :: after ∧ Jumps jump ∧ after ≠ []) ∧
    (∀ statements next, dead? statements = some next ↔ FollowsJump statements next) ∧
    ∀ next, (issueAt s next).line = some (s.script.position next.pos).line ∧
      (issueAt s next).column = some (s.script.position next.pos).column := by
  refine ⟨unreachable?, check_eq_blocks s, fun statements => ?_, fun _ _ =>
    unreachable?_eq_some_iff, fun _ => ⟨rfl, rfl⟩⟩
  rw [← exists_followsJump_iff, Option.isSome_iff_exists]
  exact exists_congr fun _ => unreachable?_eq_some_iff

end UnreachableCode

end ScriptLint
