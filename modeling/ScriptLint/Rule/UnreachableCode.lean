import ScriptLint.Rule.Basic
import ScriptLint.Walk

/-!
# Code that cannot be reached

In a block, nothing after an unconditional jump is ever run. Only the first such statement of a
block is named.

## Main definitions

* `UnreachableCode.unreachable?` — the first statement after a jump
* `UnreachableCode.check` — the unreachable statements of a file
-/

namespace ScriptLint.UnreachableCode

open Syntax

/-- What the catalogue says. -/
def info : RuleInfo where
  id := "ast.unreachable_code"
  title := "Unreachable code"
  description := "Flags the first statement after an unconditional jump in a block"
  severity := .warn

/-- Whether a statement is an unconditional jump. -/
def isJump : Stmt → Bool
  | .jump _ _ _ => true
  | _ => false

/-- The statement after the first jump of a block. -/
def unreachable? (statements : List Stmt) : Option Stmt :=
  (statements.dropWhile (!isJump ·))[1]?

/-- The issue about a statement. -/
def issueAt (s : Subject) (statement : Stmt) : Issue :=
  s.finding info "Code is unreachable in this block"
    "Statement appears after a terminating control-flow statement."
    (s.script.position statement.pos) "Remove dead code or restructure control flow."
    ["ast", "control-flow"]

/-- Looks at an event of a walk. -/
def step (s : Subject) (found : List Issue) : Event → List Issue × Flow
  | .block _ statements =>
    (found ++ ((unreachable? statements).map (issueAt s)).toList, .onward)
  | _ => (found, .onward)

/-- The unreachable statements of a file, one for each block that has any. -/
def check (s : Subject) : List Issue :=
  Outline.walk (step s) [] s.script.outline

end ScriptLint.UnreachableCode
