import ScriptLint.Config
import ScriptLint.FileTree

/-!
# Finding settings

The settings of a run are in a file with a fixed name, in the directory that the run starts from or
the nearest one above it.

## Main definitions

* `Config.find?` — the file with the settings
* `ConfigError` — why settings cannot be loaded
* `Config.resolve` — the settings of a run
-/

namespace ScriptLint

open FileTree

namespace Config

/-- The name of the file with the settings. -/
def fileName : String :=
  "aicheck.toml"

/-- Looks for the file in a directory and in at most `steps` directories above it. -/
def findFrom (d : Disk) (directory : List Char) : Nat → Option (List Char)
  | 0 => none
  | steps + 1 =>
    let path := Path.child directory fileName.toList
    if d.contains path then some path
    else
      match Path.parent? directory with
      | some above => findFrom d above steps
      | none => none

/-- The file with the settings, in a directory or above it. A step upward shortens the path. -/
def find? (d : Disk) (directory : List Char) : Option (List Char) :=
  findFrom d directory (directory.length + 1)

end Config

/-- Why settings cannot be loaded. -/
inductive ConfigError where
  | unreadable (path : String) (e : ReadError)
  | invalid (path : String) (f : ConfigFault)
  deriving DecidableEq, Repr

namespace ConfigError

/-- The error in words. -/
def message : ConfigError → String
  | unreadable path e => s!"Failed to read config file '{path}': {e.message}"
  | invalid path f => s!"Invalid TOML in '{path}': {f.message}"

/-- The error in words, followed by what caused it. -/
def withCause (e : ConfigError) : String :=
  match e with
  | unreadable _ cause => s!"{e.message}: {cause.message}"
  | invalid _ _ => e.message

end ConfigError

namespace Config

/-- The settings and warnings in a file. -/
def load (d : Disk) (path : List Char) : Except ConfigError (Config × List String) := do
  let name := String.ofList path
  let text ← (d.read path).mapError (.unreadable name)
  (Config.parse text).mapError (.invalid name)

/-- The settings of a run: those in the file that the user names, or else those that are found. -/
def resolve (d : Disk) (directory : List Char) (chosen : Option (List Char)) :
    Except ConfigError (Config × List String) :=
  match chosen.or (find? d directory) with
  | some path => load d path
  | none => .ok (default, [])

end Config

end ScriptLint
