import ScriptLint.Rule

/-!
# The analysis of files

Every file is looked at on its own, once it is known what all of them export. A file that does not
parse has one issue, about that.

## Main definitions

* `Source.analyze` — the issues of a file
* `analyze` — the issues of several files
-/

namespace ScriptLint

/-- The name of the issue about a file that does not parse. -/
def parseErrorId : String :=
  "ast.parse_error"

/-- The issue about a file that does not parse. -/
def Source.parseErrorIssue (file : Source) (overrides : Overrides) (e : SyntaxError) : Issue where
  id := parseErrorId
  title := "Parse error"
  description := e.display
  severity := overrides.severity parseErrorId .warn
  file := some file.path
  line := some 1
  column := some 1
  snippet := file.snippet 1
  suggestion := some "Fix syntax issues to enable AST checks."
  tags := ["ast", "parser"]

/-- The issues of a file, in the order of the rules. -/
def Source.analyze (file : Source) (exports : ExportIndex) (overrides : Overrides) : List Issue :=
  match Script.parse file with
  | .error e => [file.parseErrorIssue overrides e]
  | .ok script => Rule.all.flatMap fun rule => rule.check ⟨file, script, exports, overrides⟩

/-- The issues of several files, in their order. -/
def analyze (files : List Source) (overrides : Overrides) : List Issue :=
  let exports := ExportIndex.ofSources files
  files.flatMap fun file => file.analyze exports overrides

end ScriptLint
