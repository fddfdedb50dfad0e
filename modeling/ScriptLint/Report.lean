import ScriptLint.Issue

/-!
# Reports

A report keeps the gravest issues of a run, up to a limit, and sums them up. What is left out counts
nowhere.

## Main definitions

* `Counts` — how many issues there are of each severity
* `RuleCount` — how many issues a rule has
* `Report.build` — the report on a list of issues
* `exitCode` — what a run tells its caller
* `Report.toDatum` — the report as a record
-/

namespace ScriptLint

/-- How many issues there are of each severity. -/
structure Counts where
  info : Nat
  warn : Nat
  error : Nat
  deriving DecidableEq, Repr

namespace Counts

/-- The number of all issues. -/
def total (c : Counts) : Nat :=
  c.info + c.warn + c.error

/-- Counts the issues of each severity. -/
def ofIssues (issues : List Issue) : Counts where
  info := issues.countP (·.severity == .info)
  warn := issues.countP (·.severity == .warn)
  error := issues.countP (·.severity == .error)

/-- The counts as a record. -/
def toDatum (c : Counts) : Datum :=
  .record [("info", .integer c.info), ("warn", .integer c.warn), ("error", .integer c.error)]

end Counts

/-- How many issues a rule has. -/
structure RuleCount where
  id : String
  count : Nat
  deriving DecidableEq, Repr

/-- The count of a rule as a record. -/
def RuleCount.toDatum (r : RuleCount) : Datum :=
  .record [("id", .text r.id), ("count", .integer r.count)]

/-- The issues that are kept, and their summaries. -/
structure Report where
  issues : List Issue
  counts : Counts
  topRules : List RuleCount
  deriving DecidableEq, Repr

namespace Report

/-- How many rules a summary names at most. -/
def topRulesLimit : Nat := 10

/-- The issues with the gravest first; those of one severity keep their order. -/
def bySeverity (issues : List Issue) : List Issue :=
  issues.mergeSort fun a b => b.severity.rank ≤ a.severity.rank

/-- The rules with issues and their counts, in the order in which they first appear. -/
def ruleCounts (issues : List Issue) : List RuleCount :=
  let ids := issues.map (·.id)
  ids.eraseDups.map fun id => ⟨id, ids.count id⟩

/-- The rules with the most issues; of two with equally many, the one that appears first. -/
def topRulesOf (issues : List Issue) : List RuleCount :=
  ((ruleCounts issues).mergeSort fun a b => b.count ≤ a.count).take topRulesLimit

/-- The report on a list of issues that keeps at most `limit` of them. -/
def build (issues : List Issue) (limit : Nat) : Report :=
  let kept := (bySeverity issues).take limit
  ⟨kept, .ofIssues kept, topRulesOf kept⟩

/-- The report as a record, with the number of files that were looked at. -/
def toDatum (r : Report) (filesScanned : Nat) : Datum :=
  .record [
    ("summary", .record [("filesScanned", .integer filesScanned), ("counts", r.counts.toDatum),
      ("topRules", .list (r.topRules.map RuleCount.toDatum))]),
    ("issues", .list (r.issues.map Issue.toDatum))]

end Report

/-- What a run tells its caller: 2 if there is an error, 1 if there is a warning and the threshold is
not `error`, and otherwise 0. -/
def exitCode (issues : List Issue) (threshold : Severity) : Nat :=
  if issues.any (·.severity == .error) then 2
  else if threshold != .error && issues.any (·.severity == .warn) then 1
  else 0

end ScriptLint
