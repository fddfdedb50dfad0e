import ScriptLint.Number.Shortest

/-!
# TOML values

## Main definitions

* `Toml.Value` — values of a TOML document
* `Toml.Key` — a part of a key, as it is meant and as it is written
-/

namespace ScriptLint.Toml

open Number

/-- Values of a TOML document. The entries of a table are in the order in which they are defined. -/
inductive Value where
  | text (s : String)
  | integer (i : Int)
  | real (x : Binary64)
  | bool (b : Bool)
  /-- A date, a time or both, in its normal form. -/
  | moment (written : String)
  | list (items : List Value)
  | table (entries : List (String × Value))
  deriving Inhabited

namespace Value

/-- How the kind of a value is named. -/
def kindName : Value → String
  | text _ => "string"
  | integer _ => "integer"
  | real _ => "float"
  | bool _ => "boolean"
  | moment _ => "datetime"
  | list _ => "array"
  | table _ => "inline table"

/-- The key under which a date or time stands where a table is expected. -/
def momentKey : String :=
  "$__toml_private_datetime"

/-- The entries of a table. A date or time counts as a table with one entry. -/
def entries? : Value → Option (List (String × Value))
  | table entries => some entries
  | moment written => some [(momentKey, text written)]
  | _ => none

end Value

/-- A part of a key, as it is meant and as it is written. -/
structure Key where
  name : String
  written : String
  deriving DecidableEq, Repr

end ScriptLint.Toml
