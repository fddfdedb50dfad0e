import ScriptLint.Rule.Basic
import ScriptLint.Walk

/-!
# Logging that is left in code

Calls of the logging methods of `console` are named wherever they stand.

## Main definitions

* `ConsoleLeft.method?` — the logging method that is called
* `ConsoleLeft.check` — the logging calls of a file
-/

namespace ScriptLint.ConsoleLeft

open Syntax

/-- What the catalogue says. -/
def info : RuleInfo where
  id := "ast.console_left"
  title := "Console statement left in code"
  description := "Flags console logging calls that may ship to production"
  severity := .info

/-- The logging methods. -/
def methods : List String :=
  ["log", "info", "warn", "error", "debug"]

/-- The logging method that a callee names. Parentheses around the whole callee do not matter, those
inside it do. -/
def method? (callee : Expr) : Option String :=
  match callee.unparen with
  | .member _ (.ident object) name =>
    if object.name == "console" && methods.contains name then some name else none
  | _ => none

/-- The issue about a call. -/
def issueAt (s : Subject) (method : String) (pos : Nat) : Issue :=
  s.finding info s!"console.{method} found"
    "Console call can leak debugging output in production." (s.script.position pos)
    "Remove or gate debug logs by environment." ["ast", "logging"]

/-- Looks at an event of a walk. -/
def step (s : Subject) (found : List Issue) : Event → List Issue × Flow
  | .call pos callee _ => (found ++ ((method? callee).map (issueAt s · pos)).toList, .onward)
  | _ => (found, .onward)

/-- The logging calls of a file, in order. -/
def check (s : Subject) : List Issue :=
  Outline.walk (step s) [] s.script.outline

end ScriptLint.ConsoleLeft
