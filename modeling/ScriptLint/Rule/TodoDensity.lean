import ScriptLint.Rule.Basic
import ScriptLint.Text.Word

/-!
# Many notes to do something

Marks such as `TODO` are counted on lines that look like comments. A file with more than five of
them is named once.

## Main definitions

* `TodoDensity.countMarks` — the number of marks in a text
* `TodoDensity.check` — the issue about a file with too many
-/

namespace ScriptLint.TodoDensity

open Text

/-- What the catalogue says. -/
def info : RuleInfo where
  id := "ast.todo_density"
  title := "High TODO/FIXME density"
  description := "Flags files with many TODO/FIXME comment markers"
  severity := .info

/-- How many marks a file may have. -/
def threshold : Nat := 5

/-- The words that are counted. -/
def marks : List (List Char) :=
  ["TODO".toList, "FIXME".toList]

/-- Whether a line looks like a comment: after blanks it starts with `//`, `/*` or `*`. -/
def isCommentLine (line : List Char) : Bool :=
  match trimStart line with
  | '/' :: '/' :: _ | '/' :: '*' :: _ | '*' :: _ => true
  | _ => false

/-- The number of marks in a text. -/
def countMarks (text : List Char) : Nat :=
  ((lines text).filter isCommentLine).foldl (fun total line => total + countFound marks line) 0

/-- The issue about a file with too many marks. -/
def check (s : Subject) : List Issue :=
  let count := countMarks s.file.content
  if count ≤ threshold then []
  else
    [s.finding info s!"File has high TODO/FIXME count ({count})"
      "Large TODO/FIXME density can indicate unfinished or placeholder logic." ⟨1, 1⟩
      "Resolve stale TODO/FIXME notes or convert them to tracked issues." ["ast", "quality"]]

end ScriptLint.TodoDensity
