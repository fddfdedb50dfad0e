import ScriptLint.Record
import ScriptLint.Toml.Printer
import ScriptLint.Toml.Reader

/-!
# Settings

Settings are read from a TOML document. Every key may be missing. Keys that mean nothing, and
severities that are none, are passed over with a warning.

## Main definitions

* `Config` — the settings of a run
* `ConfigFault` — why a document holds no settings
* `Config.ofTable` — the settings of a table
* `Config.parse` — the settings and warnings of a document
-/

namespace ScriptLint

open Toml

/-- The settings of a run. -/
structure Config where
  includeExtensions : List String
  /-- Names of directories that are passed over. -/
  exclude : List String
  maxFileSizeKb : Nat
  maxIssues : Nat
  minExitSeverity : Severity
  astEnabled : Bool
  /-- By increasing name of the rule. -/
  overrides : Overrides
  deriving DecidableEq, Repr

namespace Config

/-- The settings of a run without a document. -/
def default : Config where
  includeExtensions := ["js", "jsx", "ts", "tsx", "mjs", "cjs"]
  exclude := ["node_modules", "dist", "build", ".git"]
  maxFileSizeKb := 300
  maxIssues := 200
  minExitSeverity := .warn
  astEnabled := true
  overrides := []

end Config

/-! ## Reading values -/

namespace Toml.Value

/-- A value as messages speak of it. -/
def described : Value → String
  | text s => Described.text s
  | integer i => Described.integer i
  | real x => Described.real x
  | bool b => Described.bool b
  | list _ => Described.list
  | moment _ | table _ => Described.record

/-- Reads a text. -/
def getText : Value → Except RecordError String
  | text s => .ok s
  | v => .error (.wrongKind v.described "a string")

/-- Reads a list of texts. -/
def getTexts : Value → Except RecordError (List String)
  | list items => items.mapM getText
  | v => .error (.wrongKind v.described "a sequence")

/-- Reads a natural number, which messages call by the name of its type. -/
def getNat (type : String) : Value → Except RecordError Nat
  | integer i => if i < 0 then .error (.wrongValue (Described.integer i) type) else .ok i.natAbs
  | v => .error (.wrongKind v.described type)

/-- Reads a truth value. -/
def getBool : Value → Except RecordError Bool
  | bool b => .ok b
  | v => .error (.wrongKind v.described "a boolean")

/-- Reads what may follow the name of a severity: nothing. -/
def checkEmpty : Value → Except RecordError Unit
  | list items => if items.isEmpty then .ok () else .error (.emptyExpected "array")
  | table entries => if entries.isEmpty then .ok () else .error (.emptyExpected "table")
  | v => .error (.tableExpected v.kindName)

/-- Reads a severity: its name, or a table whose only key is named for it. -/
def getSeverity : Value → Except RecordError Severity
  | text s => RecordError.severity s
  | table [] => .error (.oneMember "found 0 elements")
  | table [(name, v)] => do
    let severity ← RecordError.severity name
    checkEmpty v
    return severity
  | table _ => .error (.oneMember "more than 1 element")
  | _ => .error .nameExpected

/-- Reads whether the analysis runs: from a table, or from the first element of a list. -/
def getEnabled (v : Value) : Except RecordError Bool :=
  match v, v.entries? with
  | list [], _ => .ok Config.default.astEnabled
  | list (first :: _), _ => first.getBool
  | _, some entries => ((entries.lookup "enabled").map getBool).getD (.ok Config.default.astEnabled)
  | _, none => .error (.wrongKind v.described "struct AstConfig")

/-- The severity that a value names, if it does. -/
def severity? : Value → Option Severity
  | text s => Severity.ofName? s
  | _ => none

/-- Reads the severities of rules, by increasing name. -/
def getOverrides (v : Value) : Except RecordError Overrides :=
  match v.entries? with
  | some entries =>
    .ok ((sortedEntries entries).filterMap fun (rule, v) => v.severity?.map fun s => (rule, s))
  | none => .error (.wrongKind v.described "a map")

end Toml.Value

/-! ## Reading settings -/

namespace Config

/-- Reads an entry; entries of other names are passed over. -/
def readEntry (c : Config) (entry : String × Value) : Except RecordError Config :=
  let v := entry.2
  match entry.1 with
  | "include_extensions" => do return { c with includeExtensions := ← v.getTexts }
  | "exclude" => do return { c with exclude := ← v.getTexts }
  | "max_file_size_kb" => do return { c with maxFileSizeKb := ← v.getNat "u64" }
  | "max_issues" => do return { c with maxIssues := ← v.getNat "usize" }
  | "min_exit_severity" => do return { c with minExitSeverity := ← v.getSeverity }
  | "ast" => do return { c with astEnabled := ← v.getEnabled }
  | "severity_overrides" => do return { c with overrides := ← v.getOverrides }
  | _ => return c

/-- The settings of a table. -/
def ofTable (entries : List (String × Value)) : Except RecordError Config :=
  entries.foldlM readEntry default

/-- The keys that mean something. -/
def knownKeys : List String :=
  ["include_extensions", "exclude", "max_file_size_kb", "max_issues", "min_exit_severity", "ast",
    "severity_overrides"]

/-- The keys of the table `ast` that mean something. -/
def knownAstKeys : List String :=
  ["enabled"]

/-- The keys of a table that are not known, in increasing order. -/
def unknownKeys (known : List String) (entries : List (String × Value)) : List String :=
  ((sortedEntries entries).map (·.1)).filter (!known.contains ·)

/-- The entries of a table inside a table. A date or time is none. -/
def inner (entries : List (String × Value)) (key : String) : List (String × Value) :=
  match entries.lookup key with
  | some (.table inner) => inner
  | _ => []

/-- Adds a text at its place. -/
def insertText (s : String) : List String → List String
  | [] => [s]
  | t :: more => if t.toList < s.toList then t :: insertText s more else s :: t :: more

/-- The warnings about severities that are none, in increasing order. -/
def overrideWarnings (entries : List (String × Value)) : List String :=
  let invalid := (sortedEntries (inner entries "severity_overrides")).filter (·.2.severity?.isNone)
  (invalid.map fun (rule, v) =>
    s!"Ignoring invalid severity override for '{rule}': {v.print}").foldr insertText []

/-- The warnings about a table. -/
def warnings (entries : List (String × Value)) : List String :=
  (unknownKeys knownKeys entries).map (fun key => s!"Unknown config option: '{key}'") ++
    (unknownKeys knownAstKeys (inner entries "ast")).map
      (fun key => s!"Unknown config option in [ast]: '{key}'") ++
    overrideWarnings entries

end Config

/-- Why a document holds no settings. -/
inductive ConfigFault where
  | syntaxFault (f : Toml.Fault)
  | record (e : RecordError)
  deriving DecidableEq, Repr

/-- The fault in words. -/
def ConfigFault.message : ConfigFault → String
  | syntaxFault f => f.message
  | record e => e.message

/-- The settings and warnings of a document. -/
def Config.parse (text : List Char) : Except ConfigFault (Config × List String) := do
  let entries ← (Toml.parse text).mapError .syntaxFault
  let config ← (Config.ofTable entries).mapError .record
  return (config, Config.warnings entries)

end ScriptLint
