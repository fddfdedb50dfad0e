import ScriptLint.Report
import ScriptLint.Text.Line

/-!
# Reports for reading

A report as text: a summary, and then for every issue a line that starts with its severity in
brackets, followed by indented lines with a suggestion and a snippet.

## Main definitions

* `Style`, `paint` — colours for terminals
* `Issue.textLines` — the lines on an issue
* `Report.text` — the text of a report
-/

namespace ScriptLint

/-- The styles in which a terminal shows a text. -/
inductive Style where
  | bold
  | dim
  | red
  | yellow
  | blue
  deriving DecidableEq, Repr

namespace Style

/-- The sequence that switches a style on. -/
def start : Style → List Char
  | bold => "\x1b[1m".toList
  | dim => "\x1b[2m".toList
  | red => "\x1b[1;31m".toList
  | yellow => "\x1b[1;33m".toList
  | blue => "\x1b[1;34m".toList

/-- The sequence that switches all styles off. -/
def reset : List Char :=
  "\x1b[0m".toList

/-- A text in which the style is switched on again wherever the text itself switches it off. -/
def resume (style : Style) : List Char → List Char
  | [] => []
  | '\x1b' :: '[' :: '0' :: 'm' :: rest =>
    '\x1b' :: '[' :: '0' :: 'm' :: (style.start ++ resume style rest)
  | c :: rest => c :: resume style rest

/-- A text in a style, if colours are wanted. -/
def paint (style : Style) (colours : Bool) (text : String) : String :=
  if colours then String.ofList (style.start ++ style.resume text.toList ++ reset) else text

end Style

/-- The style of a severity. -/
def Severity.style : Severity → Style
  | info => .blue
  | warn => .yellow
  | error => .red

namespace Issue

/-- Where an issue is, as far as it is known. -/
def place (i : Issue) : String :=
  let file := i.file.getD "<unknown>"
  match i.line, i.column with
  | some line, some column => s!"{file}:{line}:{column}"
  | some line, none => s!"{file}:{line}"
  | none, _ => file

/-- The first line on an issue. -/
def headline (colours : Bool) (i : Issue) : String :=
  let severity := i.severity.style.paint colours s!"[{i.severity.label}]"
  let id := Style.dim.paint colours s!"[{i.id}]"
  let confidence := match i.confidence with
    | some c => "[conf=" ++ c.fixed 2 ++ "]"
    | none => ""
  s!"{severity}{id}{confidence} {i.place} {i.title}"

/-- A text whose lines after the first one stand under it. -/
def hanging (s : String) : String :=
  String.ofList (s.toList.flatMap fun c => if c = '\n' then c :: List.replicate 11 ' ' else [c])

/-- The lines on an issue. -/
def textLines (colours : Bool) (i : Issue) : List String :=
  i.headline colours ::
    ((i.suggestion.map fun s => s!"  Suggestion: {s}").toList ++
      (i.snippet.map fun s => s!"  Snippet: {hanging s}").toList)

end Issue

namespace Report

/-- The lines of a report. -/
def textLines (colours : Bool) (r : Report) (filesScanned : Nat) : List String :=
  let summary := [
    Style.bold.paint colours "Summary:",
    s!"  files scanned: {filesScanned}",
    s!"  issues: error={r.counts.error}, warn={r.counts.warn}, info={r.counts.info}",
    "  top rules:"] ++ r.topRules.map (fun t => s!"    - {t.id}: {t.count}") ++ [""]
  if r.issues.isEmpty then summary ++ ["No issues found."]
  else
    summary ++ Style.bold.paint colours "Issues:" :: r.issues.flatMap (Issue.textLines colours)

/-- The text of a report. -/
def text (colours : Bool) (r : Report) (filesScanned : Nat) : String :=
  "\n".intercalate (r.textLines colours filesScanned)

end Report

end ScriptLint
