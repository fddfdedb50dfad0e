import ScriptLint.Number.Shortest
import ScriptLint.Severity
import ScriptLint.Text.Shown

/-!
# Reading records

Issues and settings are read from records, whose members must be of the right kind. Here is what is
said of members that are not.

## Main definitions

* `Described.bool`, `Described.integer`, `Described.text` — values as messages speak of them
* `RecordError` — why a record cannot be read
-/

namespace ScriptLint

open Number

/-! ## Values in messages -/

namespace Described

/-- A truth value as messages speak of it. -/
def bool (b : Bool) : String :=
  s!"boolean `{b}`"

/-- An integer as messages speak of it. -/
def integer (i : Int) : String :=
  s!"integer `{i}`"

/-- A number as messages speak of it. -/
def real (x : Binary64) : String :=
  let digits := match x with
    | .nan _ => "NaN"
    | x => x.written .plain
  s!"floating point `{digits}`"

/-- A text as messages speak of it. -/
def text (s : String) : String :=
  "string " ++ Text.shown s

/-- A list as messages speak of it. -/
def list : String :=
  "sequence"

/-- A record as messages speak of it. -/
def record : String :=
  "map"

end Described

/-- Why a record cannot be read. -/
inductive RecordError where
  | missing (field : String)
  /-- A name that is no severity. -/
  | unknownVariant (name : String)
  /-- A value of another kind than is expected. -/
  | wrongKind (found expected : String)
  /-- A value of the right kind that does not fit. -/
  | wrongValue (found expected : String)
  /-- A value that cannot name a severity. -/
  | nameExpected
  /-- A table that cannot name a severity, since it has not exactly one member. -/
  | oneMember (found : String)
  /-- A severity that is followed by a value. -/
  | tableExpected (found : String)
  /-- A severity that is followed by members. -/
  | emptyExpected (kind : String)
  deriving DecidableEq, Repr

namespace RecordError

/-- The error in words. -/
def message : RecordError → String
  | missing field => s!"missing field `{field}`"
  | unknownVariant name =>
    s!"unknown variant `{name}`, expected one of `info`, `warn`, `error`"
  | wrongKind found expected => s!"invalid type: {found}, expected {expected}"
  | wrongValue found expected => s!"invalid value: {found}, expected {expected}"
  | nameExpected => "wanted string or table"
  | oneMember found => s!"wanted exactly 1 element, {found}"
  | tableExpected found => s!"expected table, found {found}"
  | emptyExpected kind => s!"expected empty {kind}"

/-- The severity of a name. -/
def severity (name : String) : Except RecordError Severity :=
  match Severity.ofName? name with
  | some s => .ok s
  | none => .error (.unknownVariant name)

end RecordError

end ScriptLint
