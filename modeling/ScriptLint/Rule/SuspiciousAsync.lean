import ScriptLint.Rule.Basic
import ScriptLint.Walk

/-!
# Misplaced asynchronous code

Two patterns are named: an `await` whose innermost function is not marked `async`, and a `Promise`
made with an `async` function. An `await` outside all functions is fine.

## Main definitions

* `SuspiciousAsync.isAsyncExecutor` — a `Promise` is made with an `async` function
* `SuspiciousAsync.check` — the suspicious places of a file
-/

namespace ScriptLint.SuspiciousAsync

open Syntax

/-- What the catalogue says. -/
def info : RuleInfo where
  id := "ast.suspicious_async"
  title := "Suspicious async pattern"
  description := "Flags await in non-async functions and async Promise executors"
  severity := .warn

/-- Whether an expression is a function marked `async`, possibly in parentheses. -/
def isAsyncFunction (e : Expr) : Bool :=
  match e.unparen with
  | .function _ _ (.mk isAsync _ _ _ _) => isAsync
  | .arrow _ isAsync _ _ _ => isAsync
  | _ => false

/-- Whether `new callee(args)` makes a `Promise` with an `async` function. -/
def isAsyncExecutor (callee : Expr) (args : List Expr) : Bool :=
  match callee.unparen, args with
  | .ident id, first :: _ => id.name == "Promise" && isAsyncFunction first
  | _, _ => false

/-- The functions around a place, the innermost first and each by whether it is `async`, and the
issues so far. -/
structure Progress where
  functions : List Bool
  issues : List Issue

/-- The issue about an `await`. -/
def awaitIssue (s : Subject) (pos : Nat) : Issue :=
  s.finding info "await used inside non-async function"
    "Function containing await is not marked async." (s.script.position pos)
    "Add async to the function or remove await." ["ast", "async"]

/-- The issue about a `Promise`. -/
def executorIssue (s : Subject) (pos : Nat) : Issue :=
  s.finding info "new Promise(async ...) anti-pattern"
    "Using async executor in Promise constructor may hide errors." (s.script.position pos)
    "Avoid async Promise executors; use async function directly." ["ast", "async", "antipattern"]

/-- Looks at an event of a walk. -/
def look (s : Subject) (p : Progress) : Event → Progress
  | .enter isAsync => { p with functions := isAsync :: p.functions }
  | .leave _ => { p with functions := p.functions.tail }
  | .await pos =>
    if p.functions.head? == some false then { p with issues := p.issues ++ [awaitIssue s pos] }
    else p
  | .construct pos callee args =>
    if isAsyncExecutor callee args then { p with issues := p.issues ++ [executorIssue s pos] }
    else p
  | _ => p

/-- The suspicious places of a file, in order. -/
def check (s : Subject) : List Issue :=
  (Outline.walk (fun p e => (look s p e, .onward)) ⟨[], []⟩ s.script.outline).issues

end ScriptLint.SuspiciousAsync
