import ScriptLint.Text.Line

/-!
# Source files

A file with its path, as it is handed to the analysis.

## Main definitions

* `Source` — a path and a text
-/

namespace ScriptLint

/-- A file: a path relative to where the run looks, and its text. -/
structure Source where
  path : String
  content : List Char
  deriving DecidableEq, Repr

namespace Source

/-- The number of bytes of a file. -/
def size (s : Source) : Nat :=
  Text.byteSize s.content

end Source

end ScriptLint
