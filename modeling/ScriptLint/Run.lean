import ScriptLint.Catalogue
import ScriptLint.Command
import ScriptLint.Scan

/-!
# Running a command

What a command line writes and how it ends, as a function of the files it can see and of its
environment.

## Main definitions

* `Environment` — what the environment says about colours
* `Outcome` — what a run writes and how it ends
* `Invocation.run` — the outcome of a command
* `run` — the outcome of a command line
-/

namespace ScriptLint

open Text

/-! ## Environment and outcome -/

/-- What the environment says about colours. -/
structure Environment where
  /-- Colours can be shown. -/
  colours : Bool
  /-- Colours are declined, which a report respects even where they can be shown. -/
  noColor : Bool
  deriving DecidableEq, Repr

namespace Environment

/-- Reads the variables. Colours are forced by any value but zero and declined by any value, also an
empty one; otherwise a terminal shows them unless it is told not to. -/
def ofVariables (isTerminal : Bool) (get? : String → Option String) : Environment where
  colours := (get? "CLICOLOR_FORCE").any (· != "0") ||
    ((get? "NO_COLOR").isNone && (get? "CLICOLOR").all (· != "0") && isTerminal)
  noColor := (get? "NO_COLOR").isSome

end Environment

/-- What a run writes and how it ends. -/
structure Outcome where
  exit : Nat
  output : String
  messages : String
  deriving DecidableEq, Repr

/-- How a run ends that cannot do what it is asked for. -/
def failureExit : Nat := 2

/-- Why a run cannot do what it is asked for. -/
inductive RunError where
  | config (error : ConfigError)
  | scan (path : String) (error : ScanError)
  deriving DecidableEq, Repr

/-- The error in words, followed by what caused it. -/
def RunError.message : RunError → String
  | config error => error.withCause
  | scan path error => s!"Failed to scan {path}: {error.withCause}"

/-! ## Checking -/

/-- The entries of a list given as an option, without blanks around them and dots in front. -/
def tidied (values : List String) : List String :=
  (values.map fun value => String.ofList ((trim value.toList).dropWhile (· == '.'))).filter
    fun value => !value.isEmpty

namespace CheckOptions

/-- The settings of a run: what the options say goes before what a file says. -/
def override (o : CheckOptions) (c : Config) : Config :=
  let only := tidied o.only
  { c with
    maxIssues := o.maxIssues.getD c.maxIssues
    minExitSeverity := o.severity.getD c.minExitSeverity
    astEnabled := c.astEnabled && !o.noAst
    includeExtensions :=
      if only.isEmpty then c.includeExtensions else c.includeExtensions.filter only.contains
    exclude := c.exclude ++ tidied o.exclude }

/-- The directory from which the settings are looked for. -/
def configStart (o : CheckOptions) (d : Disk) : List Char :=
  let path := o.path.toList
  if d.isFile path then (Path.parent? path).getD ['.'] else path

/-- A warning about the settings, in a line. -/
def warningLine (colours : Bool) (warning : String) : String :=
  Style.yellow.paint colours "warning:" ++ s!" {warning}\n"

/-- The report on the files that a run looks at, and their number. -/
def report (o : CheckOptions) (d : Disk) (c : Config) : Except RunError (Report × Nat) := do
  let files ← (Scan.files d o.path.toList c).mapError (.scan o.path)
  let issues := if c.astEnabled then analyze (files.map (·.file)) c.overrides else []
  return (Report.build issues c.maxIssues, files.length)

/-- A report in the form that is asked for. -/
def shownReport (o : CheckOptions) (e : Environment) (r : Report) (filesScanned : Nat) : String :=
  match o.format with
  | .json => (r.toDatum filesScanned).render
  | .text => r.text (e.colours && !e.noColor && !o.noColor) filesScanned

/-- The outcome of a run that cannot do what it is asked for. -/
def failed (warnings : String) (error : RunError) : Outcome where
  exit := failureExit
  output := ""
  messages := s!"{warnings}{programName} failed: {error.message}\n"

/-- The settings of a run, with warnings about the file that they come from. -/
def settings (o : CheckOptions) (d : Disk) : Except ConfigError (Config × List String) := do
  let (c, warnings) ← Config.resolve d (o.configStart d) (o.config.map String.toList)
  return (o.override c, warnings)

/-- The outcome of a check. -/
def run (o : CheckOptions) (d : Disk) (e : Environment) : Outcome :=
  match o.settings d with
  | .error error => failed "" (.config error)
  | .ok (c, warnings) =>
    let warningText := String.join (warnings.map (warningLine e.colours))
    match o.report d c with
    | .error error => failed warningText error
    | .ok (r, filesScanned) =>
      { exit := exitCode r.issues c.minExitSeverity
        output := o.shownReport e r filesScanned ++ "\n"
        messages := warningText }

end CheckOptions

/-! ## All commands -/

/-- The version of the program. -/
def version : String :=
  "0.1.0"

/-- The outcome of a command. -/
def Command.run (d : Disk) (e : Environment) : Command → Outcome
  | check options => options.run d e
  | rules true => ⟨0, (Catalogue.datum catalogue).render ++ "\n", ""⟩
  | rules false => ⟨0, Catalogue.text e.colours catalogue, ""⟩
  | version => ⟨0, s!"{programName} {ScriptLint.version}\n", ""⟩

/-- The outcome of a command line, or why it means nothing. -/
def run (d : Disk) (e : Environment) (arguments : List String) : Except UsageError Outcome :=
  (Invocation.parse arguments).map fun i => i.command.run d e

end ScriptLint
