import ScriptLint.Datum
import ScriptLint.Record

/-!
# Issues

An issue is what a rule has to say about a place of a file. Issues are also read from records, where
what is optional may be left out.

## Main definitions

* `Issue` — a finding, with what is known about its place
* `Issue.toDatum` — the record of an issue
* `Issue.ofDatum` — the issue of a record
-/

namespace ScriptLint

open Number

/-- A finding. -/
structure Issue where
  id : String
  title : String
  description : String
  severity : Severity
  confidence : Option Binary64 := none
  file : Option String := none
  line : Option Nat := none
  column : Option Nat := none
  snippet : Option String := none
  suggestion : Option String := none
  tags : List String := []
  deriving DecidableEq, Repr

namespace Issue

/-- The issue in a file. -/
def withFile (i : Issue) (file : String) : Issue :=
  { i with file := some file }

/-- The issue at a place. -/
def withLocation (i : Issue) (line column : Nat) : Issue :=
  { i with line := some line, column := some column }

/-- The issue with the lines that it is about. -/
def withSnippet (i : Issue) (snippet : Option String) : Issue :=
  { i with snippet }

/-- The issue with a suggestion. -/
def withSuggestion (i : Issue) (suggestion : String) : Issue :=
  { i with suggestion := some suggestion }

/-- The issue with a confidence, which is at least 0 and at most 1. -/
def withConfidence (i : Issue) (confidence : Binary64) : Issue :=
  { i with confidence := some confidence.clampUnit }

/-- The issue with other tags. -/
def withTags (i : Issue) (tags : List String) : Issue :=
  { i with tags }

/-! ## Records -/

/-- A member that is left out if there is nothing to say. -/
def member (key : String) : Option Datum → List (String × Datum)
  | some d => [(key, d)]
  | none => []

/-- A natural number as a datum. -/
def natDatum (n : Nat) : Datum :=
  .integer n

/-- The record of an issue. What it does not have is left out. -/
def toDatum (i : Issue) : Datum :=
  .record ([("id", .text i.id), ("title", .text i.title), ("description", .text i.description),
      ("severity", .text i.severity.name)] ++
    member "confidence" (i.confidence.map .real) ++ member "file" (i.file.map .text) ++
    member "line" (i.line.map natDatum) ++ member "column" (i.column.map natDatum) ++
    member "snippet" (i.snippet.map .text) ++ member "suggestion" (i.suggestion.map .text) ++
    [("tags", .list (i.tags.map .text))])

end Issue

namespace Datum

/-- A datum as messages speak of it. -/
def described : Datum → String
  | null => "null"
  | bool b => Described.bool b
  | integer i => Described.integer i
  | real x => Described.real x
  | text s => Described.text s
  | list _ => Described.list
  | record _ => Described.record

/-- Reads a text. -/
def getText : Datum → Except RecordError String
  | text s => .ok s
  | d => .error (.wrongKind d.described "a string")

/-- Reads a natural number of 64 bits. -/
def getNat : Datum → Except RecordError Nat
  | integer i => if i < 0 then .error (.wrongValue (Described.integer i) "usize") else .ok i.natAbs
  | d => .error (.wrongKind d.described "usize")

/-- Reads a number. -/
def getReal : Datum → Except RecordError Binary64
  | real x => .ok x
  | integer i => .ok (.ofInt i)
  | d => .error (.wrongKind d.described "f64")

/-- Reads a list of texts. -/
def getTexts : Datum → Except RecordError (List String)
  | list items => items.mapM getText
  | d => .error (.wrongKind d.described "a sequence")

/-- Reads a severity: its name, or a record whose only member is named for it and holds nothing. -/
def getSeverity : Datum → Except RecordError Severity
  | text s => RecordError.severity s
  | record [(name, value)] => do
    let severity ← RecordError.severity name
    match value with
    | null => return severity
    | d => throw (.wrongKind d.described "unit")
  | record _ => .error (.wrongValue "map" "map with a single key")
  | d => .error (.wrongKind d.described "string or map")

/-- Reads what may be missing. -/
def optional {α : Type} (read : Datum → Except RecordError α) : Datum → Except RecordError (Option α)
  | null => .ok none
  | d => some <$> read d

end Datum

namespace Issue

/-- The parts of an issue that have been read. -/
structure Draft where
  id : Option String := none
  title : Option String := none
  description : Option String := none
  severity : Option Severity := none
  confidence : Option Binary64 := none
  file : Option String := none
  line : Option Nat := none
  column : Option Nat := none
  snippet : Option String := none
  suggestion : Option String := none
  tags : Option (List String) := none

namespace Draft

/-- Reads a member; members of other names are passed over. -/
def read (d : Draft) (key : String) (value : Datum) : Except RecordError Draft :=
  match key with
  | "id" => do return { d with id := ← value.getText }
  | "title" => do return { d with title := ← value.getText }
  | "description" => do return { d with description := ← value.getText }
  | "severity" => do return { d with severity := ← value.getSeverity }
  | "confidence" => do return { d with confidence := ← Datum.optional Datum.getReal value }
  | "file" => do return { d with file := ← Datum.optional Datum.getText value }
  | "line" => do return { d with line := ← Datum.optional Datum.getNat value }
  | "column" => do return { d with column := ← Datum.optional Datum.getNat value }
  | "snippet" => do return { d with snippet := ← Datum.optional Datum.getText value }
  | "suggestion" => do return { d with suggestion := ← Datum.optional Datum.getText value }
  | "tags" => do return { d with tags := ← value.getTexts }
  | _ => return d

/-- A part that must not be missing. -/
def need {α : Type} (field : String) : Option α → Except RecordError α
  | some a => .ok a
  | none => .error (.missing field)

/-- The issue, if nothing is missing. -/
def finish (d : Draft) : Except RecordError Issue := do
  return {
    id := ← need "id" d.id
    title := ← need "title" d.title
    description := ← need "description" d.description
    severity := ← need "severity" d.severity
    confidence := d.confidence
    file := d.file
    line := d.line
    column := d.column
    snippet := d.snippet
    suggestion := d.suggestion
    tags := ← need "tags" d.tags }

end Draft

/-- The issue of a record. -/
def ofDatum : Datum → Except RecordError Issue
  | .record members => do
    (← members.foldlM (fun d (key, value) => d.read key value) ({} : Draft)).finish
  | d => .error (.wrongKind d.described "struct Issue")

end Issue

end ScriptLint
