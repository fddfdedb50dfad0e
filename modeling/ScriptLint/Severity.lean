/-!
# Severities

How grave an issue is, and what a user may set instead.

## Main definitions

* `Severity` — the three grades, with their rank and name
* `Severity.ofName?` — reads a name
* `Overrides` — severities that a user sets for rules
-/

namespace ScriptLint

/-- How grave an issue is. -/
inductive Severity where
  | info
  | warn
  | error
  deriving DecidableEq, Repr

namespace Severity

/-- The place of a severity in their order. -/
def rank : Severity → Nat
  | info => 1
  | warn => 2
  | error => 3

/-- How a severity is written. -/
def name : Severity → String
  | info => "info"
  | warn => "warn"
  | error => "error"

/-- How a severity is written where it heads an issue. -/
def label : Severity → String
  | info => "INFO"
  | warn => "WARN"
  | error => "ERROR"

/-- The severities from the least to the gravest. -/
def all : List Severity :=
  [info, warn, error]

/-- The severity of a name. -/
def ofName? (name : String) : Option Severity :=
  all.find? fun s => s.name == name

/-- What is said of a name that is no severity. -/
def invalidMessage (name : String) : String :=
  s!"invalid severity '{name}', expected one of: info, warn, error"

end Severity

/-- Severities that a user sets for rules, by the name of the rule. -/
abbrev Overrides := List (String × Severity)

namespace Overrides

/-- The severity of a rule: what the user sets, or else its own. -/
def severity (o : Overrides) (rule : String) (own : Severity) : Severity :=
  (o.lookup rule).getD own

end Overrides

end ScriptLint
