import ScriptLint.Rule.ConsoleLeft
import ScriptLint.Rule.FakeImportSymbol
import ScriptLint.Rule.SuspiciousAsync
import ScriptLint.Rule.TodoDensity
import ScriptLint.Rule.UnreachableCode
import ScriptLint.Rule.UnusedImport

/-!
# The rules

## Main definitions

* `Rule` — the rules
* `Rule.all` — their order
* `Rule.check` — the issues of a rule in a file
-/

namespace ScriptLint

/-- The rules. -/
inductive Rule where
  | unusedImport
  | unreachableCode
  | suspiciousAsync
  | fakeImportSymbol
  | consoleLeft
  | todoDensity
  deriving DecidableEq, Repr

namespace Rule

/-- The rules in the order in which they look at a file. -/
def all : List Rule :=
  [unusedImport, unreachableCode, suspiciousAsync, fakeImportSymbol, consoleLeft, todoDensity]

/-- What the catalogue says of a rule. -/
def info : Rule → RuleInfo
  | unusedImport => UnusedImport.info
  | unreachableCode => UnreachableCode.info
  | suspiciousAsync => SuspiciousAsync.info
  | fakeImportSymbol => FakeImportSymbol.info
  | consoleLeft => ConsoleLeft.info
  | todoDensity => TodoDensity.info

/-- The issues of a rule in a file. -/
def check : Rule → Subject → List Issue
  | unusedImport => UnusedImport.check
  | unreachableCode => UnreachableCode.check
  | suspiciousAsync => SuspiciousAsync.check
  | fakeImportSymbol => FakeImportSymbol.check
  | consoleLeft => ConsoleLeft.check
  | todoDensity => TodoDensity.check

/-- The rule of a name. -/
def ofId? (id : String) : Option Rule :=
  all.find? fun r => r.info.id == id

end Rule

end ScriptLint
