import ScriptLint.Toml.Value

/-!
# What is wrong with a TOML document

A fault names the construct that is broken, what could have stood there, and the reason, each as far
as it is known.

## Main definitions

* `Toml.Cause` — reasons beyond what is written
* `Toml.Fault` — what is wrong
* `Toml.Failure` — a fault, and whether another way of reading may still succeed
-/

namespace ScriptLint.Toml

/-- Reasons beyond what is written. -/
inductive Cause where
  /-- A key that is defined twice, and the table that it is defined in, if that is known. -/
  | duplicateKey (key : String) (table : Option (List String))
  /-- A key inside something that is no table. -/
  | notTable (path : List String) (kind : String)
  | outOfRange
  | tooLarge
  | tooSmall
  | tooDeep
  deriving DecidableEq, Repr

namespace Cause

/-- The reason in words. -/
def message : Cause → String
  | duplicateKey key none => s!"duplicate key `{key}`"
  | duplicateKey key (some []) => s!"duplicate key `{key}` in document root"
  | duplicateKey key (some table) =>
    let path := ".".intercalate table
    s!"duplicate key `{key}` in table `{path}`"
  | notTable path kind =>
    let path := ".".intercalate path
    s!"dotted key `{path}` attempted to extend non-table type ({kind})"
  | outOfRange => "value is out of range"
  | tooLarge => "number too large to fit in target type"
  | tooSmall => "number too small to fit in target type"
  | tooDeep => "recursion limit exceeded"

end Cause

/-- What is wrong: a broken construct, what was expected, and a reason. -/
structure Fault where
  construct : Option String := none
  expected : List String := []
  cause : Option Cause := none
  deriving DecidableEq, Repr

namespace Fault

/-- The fault in words, one line for each thing that is known. -/
def message (f : Fault) : String :=
  let construct := (f.construct.map fun c => s!"invalid {c}").toList
  let expected := if f.expected.isEmpty then [] else ["expected " ++ ", ".intercalate f.expected]
  let cause := (f.cause.map Cause.message).toList
  "\n".intercalate (construct ++ expected ++ cause)

/-- The fault inside a construct; the innermost construct is the one that is named. -/
def inside (f : Fault) (construct : String) : Fault :=
  { f with construct := f.construct.or (some construct) }

/-- The fault where something else was expected, too. -/
def orElse (f : Fault) (expected : List String) : Fault :=
  { f with expected := f.expected ++ expected }

end Fault

/-- A fault, and whether it is final. If it is not, another way of reading may still succeed. -/
structure Failure where
  fault : Fault
  final : Bool
  deriving DecidableEq, Repr

/-- What reading gives: a value and the rest of the text. -/
abbrev Reading (α : Type) := Except Failure (α × List Char)

namespace Failure

/-- A fault after which another way of reading may still succeed. -/
def soft (fault : Fault) : Failure :=
  ⟨fault, false⟩

/-- A fault that ends the reading. -/
def hard (fault : Fault) : Failure :=
  ⟨fault, true⟩

/-- The failure as a final one. -/
def committed (f : Failure) : Failure :=
  { f with final := true }

end Failure

/-- A reading inside a construct. -/
def inside {α : Type} (construct : String) (r : Reading α) : Reading α :=
  r.mapError fun f => { f with fault := f.fault.inside construct }

/-- A reading where something else could stand. -/
def expecting {α : Type} (expected : List String) (r : Reading α) : Reading α :=
  r.mapError fun f => { f with fault := f.fault.orElse expected }

/-- A reading without another way. -/
def committed {α : Type} (r : Reading α) : Reading α :=
  r.mapError Failure.committed

end ScriptLint.Toml
