import ScriptLint.Export.Index
import ScriptLint.Issue
import ScriptLint.Script

/-!
# What rules share

A rule looks at one file at a time. It sees the file, what it spells, the exports of the other files
and the severities that the user sets, and nothing else.

## Main definitions

* `RuleInfo` — what the catalogue says of a rule
* `Subject` — what a rule sees
* `Subject.finding` — an issue of a rule at a place
-/

namespace ScriptLint

open Text

/-- What the catalogue says of a rule. -/
structure RuleInfo where
  id : String
  title : String
  description : String
  severity : Severity
  deriving DecidableEq, Repr

/-- How many lines of a file an issue shows. -/
def snippetLines : Nat := 2

/-- The lines of a file that an issue shows. -/
def Source.snippet (file : Source) (line : Nat) : Option String :=
  (excerpt file.content line snippetLines).map String.ofList

/-- What a rule sees. -/
structure Subject where
  file : Source
  script : Script
  exports : ExportIndex
  overrides : Overrides

namespace Subject

/-- An issue of a rule at a place of the file. -/
def finding (s : Subject) (rule : RuleInfo) (title description : String) (place : Position)
    (suggestion : String) (tags : List String) : Issue :=
  { id := rule.id
    title
    description
    severity := s.overrides.severity rule.id rule.severity
    file := some s.file.path
    line := some place.line
    column := some place.column
    snippet := s.file.snippet place.line
    suggestion := some suggestion
    tags }

/-- The import declarations of the script. -/
def imports (s : Subject) : List Syntax.ImportDecl :=
  s.script.module.items.filterMap fun
    | .imported decl _ => some decl
    | _ => none

end Subject

end ScriptLint
