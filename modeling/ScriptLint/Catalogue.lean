import ScriptLint.Analysis
import ScriptLint.Report.Text

/-!
# The catalogue of rules

What a user can read about the rules: one entry for each of them and one for files that have no rules
applied to them because they cannot be parsed.

## Main definitions

* `catalogue` — all entries, in the order in which the rules run
* `Catalogue.text`, `Catalogue.datum` — the two forms in which it is shown
-/

namespace ScriptLint

/-- What the catalogue says about files that cannot be parsed. -/
def parseErrorInfo : RuleInfo where
  id := parseErrorId
  title := "Parse error"
  description := "Reported once for a file that cannot be parsed; no other rules run on it"
  severity := .warn

/-- All entries, in the order in which the rules run. -/
def catalogue : List RuleInfo :=
  Rule.all.map Rule.info ++ [parseErrorInfo]

/-- An entry as data. -/
def RuleInfo.toDatum (r : RuleInfo) : Datum :=
  .record [("id", .text r.id), ("severity", .text r.severity.name), ("title", .text r.title),
    ("description", .text r.description)]

/-- A text with blanks after it, up to a width. -/
def padded (width : Nat) (text : String) : String :=
  text ++ String.ofList (List.replicate (width - text.length) ' ')

namespace Catalogue

/-- The width of the column with the names of the rules. -/
def idWidth (entries : List RuleInfo) : Nat :=
  (entries.map (·.id.length)).foldl max 0

/-- The width of the column with the severities. -/
def severityWidth : Nat := 5

/-- An entry in one line. -/
def line (colours : Bool) (width : Nat) (r : RuleInfo) : String :=
  "  ".intercalate
    [Style.bold.paint colours (padded width r.id), padded severityWidth r.severity.name, r.title]

/-- The entries, one a line. -/
def text (colours : Bool) (entries : List RuleInfo) : String :=
  String.join (entries.map fun r => line colours (idWidth entries) r ++ "\n")

/-- The entries as data. -/
def datum (entries : List RuleInfo) : Datum :=
  .list (entries.map RuleInfo.toDatum)

end Catalogue

end ScriptLint
