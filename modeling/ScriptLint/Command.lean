import ScriptLint.Severity
import ScriptLint.Text.Line

/-!
# Command lines

What a user asks for. Options can stand before and after the path; an option with a value takes it
after an equals sign or from the next argument.

## Main definitions

* `Command` — what to do
* `UsageError` — why a command line means nothing
* `Invocation.parse` — what a command line means
-/

namespace ScriptLint

open Text

/-! ## Options -/

/-- An option: its name, how its value is called if it takes one, and whether it can be repeated. -/
structure OptionInfo where
  name : String
  value : Option String := none
  isRepeatable : Bool := false
  deriving DecidableEq, Repr

namespace OptionInfo

/-- How messages call an option. -/
def shown (o : OptionInfo) : String :=
  match o.value with
  | some value => s!"--{o.name} <{value}>"
  | none => s!"--{o.name}"

end OptionInfo

/-- The forms of a report. -/
inductive Format where
  | text
  | json
  deriving DecidableEq, Repr

/-- What the command `check` is asked for. -/
structure CheckOptions where
  path : String := "."
  format : Format := .text
  severity : Option Severity := none
  maxIssues : Option Nat := none
  only : List String := []
  exclude : List String := []
  config : Option String := none
  noAst : Bool := false
  noColor : Bool := false
  deriving DecidableEq, Repr

/-- What to do. -/
inductive Command where
  | check (options : CheckOptions)
  | rules (json : Bool)
  | version
  deriving DecidableEq, Repr

/-- A command and what is to be said about its progress. -/
structure Invocation where
  command : Command
  verbose : Bool
  logJson : Bool
  deriving DecidableEq, Repr

/-! ## Errors -/

/-- Why a command line means nothing. -/
inductive UsageError where
  | unexpectedArgument (argument : String)
  | unexpectedValue (value option : String)
  | invalidValue (value option : String)
  | invalidNumber (value option reason : String)
  | missingValue (option : String)
  | repeated (option : String)
  | unknownCommand (name : String)
  | missingCommand
  /-- Nothing at all is asked for. -/
  | empty
  deriving DecidableEq, Repr

/-- What the program is for. -/
def summary : String :=
  "Static checks for AI-assisted JavaScript/TypeScript code"

/-- The name under which the program is called. -/
def programName : String :=
  "aicheck"

namespace UsageError

/-- The first line of what is said about the error. -/
def message : UsageError → String
  | unexpectedArgument argument => s!"error: unexpected argument '{argument}' found"
  | unexpectedValue value option =>
    s!"error: unexpected value '{value}' for '{option}' found; no more were expected"
  | invalidValue value option => s!"error: invalid value '{value}' for '{option}'"
  | invalidNumber value option reason =>
    s!"error: invalid value '{value}' for '{option}': {reason}"
  | missingValue option =>
    s!"error: a value is required for '{option}' but none was supplied"
  | repeated option => s!"error: the argument '{option}' cannot be used multiple times"
  | unknownCommand name => s!"error: unrecognized subcommand '{name}'"
  | missingCommand =>
    s!"error: '{programName}' requires a subcommand but one was not provided"
  | empty => summary

end UsageError

/-! ## Values -/

/-- Reads the digits of a number below `2 ^ 64` from left to right. -/
def readDigits (value : Nat) : List Char → Except String Nat
  | [] => .ok value
  | c :: rest =>
    if !isDigit c then .error "invalid digit found in string"
    else
      let next := 10 * value + (c.toNat - 48)
      if next ≥ 2 ^ 64 then .error "number too large to fit in target type"
      else readDigits next rest

/-- Reads a number, which may have a plus sign. -/
def readNumber (text : List Char) : Except String Nat :=
  match text with
  | [] => .error "cannot parse integer from empty string"
  | ['+'] => .error "invalid digit found in string"
  | '+' :: rest => readDigits 0 rest
  | _ => readDigits 0 text

/-! ## Matching arguments -/

/-- The options of all commands. -/
def globalOptions : List OptionInfo :=
  [{ name := "verbose" }, { name := "log-json" }]

/-- The options of the command `check`. -/
def checkOptions : List OptionInfo :=
  [{ name := "format", value := "FORMAT" }, { name := "json" },
    { name := "severity", value := "LEVEL" }, { name := "max-issues", value := "N" },
    { name := "only", value := "EXTS", isRepeatable := true },
    { name := "exclude", value := "DIRS", isRepeatable := true },
    { name := "config", value := "FILE" }, { name := "no-ast" }, { name := "no-color" }] ++
    globalOptions

/-- The options of the command `rules`. -/
def rulesOptions : List OptionInfo :=
  { name := "json" } :: globalOptions

/-- The arguments of a command that have been matched. -/
structure Matched where
  options : List (String × String)
  path : Option String

namespace Matched

/-- Nothing yet. -/
def empty : Matched :=
  ⟨[], none⟩

/-- Whether an option is given. -/
def has (m : Matched) (name : String) : Bool :=
  m.options.any fun o => o.1 == name

/-- The value of an option. -/
def get? (m : Matched) (name : String) : Option String :=
  m.options.lookup name

/-- All values of an option, split at commas. -/
def getAll (m : Matched) (name : String) : List String :=
  (m.options.filter fun o => o.1 == name).flatMap fun o =>
    (splitOn ',' o.2.toList).map String.ofList

end Matched

/-- Whether the value of an option is one that it can have. -/
def OptionInfo.checkValue (o : OptionInfo) (value : String) : Except UsageError Unit :=
  let oneOf := fun (known : List String) =>
    if known.contains value then .ok ()
    else if value.isEmpty then .error (.missingValue o.shown)
    else .error (.invalidValue value o.shown)
  match o.name with
  | "format" => oneOf ["text", "json"]
  | "severity" => oneOf ["warn", "error"]
  | "max-issues" =>
    match readNumber value.toList with
    | .ok _ => .ok ()
    | .error reason => .error (.invalidNumber value o.shown reason)
  | "config" => if value.isEmpty then .error (.missingValue o.shown) else .ok ()
  | _ => .ok ()

namespace Matched

/-- Adds an option with its value. -/
def add (m : Matched) (o : OptionInfo) (value : String) : Except UsageError Matched := do
  if !o.isRepeatable && m.has o.name then throw (.repeated o.shown)
  o.checkValue value
  return { m with options := m.options ++ [(o.name, value)] }

end Matched

/-- What has been read of an option or path and is still to be added. Faults of what stands after it
come first. -/
inductive Pending where
  | nothing
  | option (o : OptionInfo) (value : Option String)
  | path (value : String)

/-- Adds what is pending. -/
def Pending.settle (p : Pending) (m : Matched) : Except UsageError Matched :=
  match p with
  | nothing => .ok m
  | option o none => .error (.missingValue o.shown)
  | option o (some value) => m.add o value
  | path value =>
    if value.isEmpty then .error (.missingValue "[PATH]")
    else .ok { m with path := some value }

/-- The parts of a long argument: its name and the value after an equals sign. -/
def splitEquals (text : List Char) : String × Option String :=
  let name := String.ofList (text.takeWhile (· != '='))
  match text.dropWhile (· != '=') with
  | _ :: value => (name, some (String.ofList value))
  | [] => (name, none)

/-- The kinds of arguments. -/
inductive ArgumentKind where
  | long (name : String) (value : Option String)
  /-- One or more letters after a hyphen. -/
  | short (letter : Char)
  /-- The mark after which everything is a path. -/
  | divider
  | value (text : String)

/-- The kind of an argument. -/
def ArgumentKind.of (argument : String) : ArgumentKind :=
  match argument.toList with
  | ['-', '-'] => divider
  | '-' :: '-' :: rest =>
    let parts := splitEquals rest
    long parts.1 parts.2
  | '-' :: letter :: _ => short letter
  | _ => value argument

/-- Whether an option still waits for its value. -/
def Pending.waits : Pending → Option OptionInfo
  | option o none => some o
  | _ => none

/-- Matches a path. -/
def matchPath (takesPath : Bool) (m : Matched) (p : Pending) (text : String) :
    Except UsageError (Matched × Pending) :=
  let isFree := takesPath && m.path.isNone && !(p matches .path _)
  if isFree then do return (← p.settle m, .path text)
  else .error (.unexpectedArgument text)

/-- Matches the arguments of a command. -/
def matchArguments (known : List OptionInfo) (takesPath isDivided : Bool) (m : Matched)
    (p : Pending) : List String → Except UsageError Matched
  | [] => p.settle m
  | argument :: rest =>
    match if isDivided then .value argument else ArgumentKind.of argument with
    | .divider => matchArguments known takesPath true m p rest
    | .short letter => .error (.unexpectedArgument (String.ofList ['-', letter]))
    | .long name value =>
      match known.find? (·.name == name), value with
      | none, _ => .error (.unexpectedArgument s!"--{name}")
      | some o, value =>
        match o.value, value with
        | none, some value => .error (.unexpectedValue value o.shown)
        | none, none => do
          let m ← (← p.settle m).add o ""
          matchArguments known takesPath isDivided m .nothing rest
        | some _, some value => do
          let m ← (← p.settle m).add o value
          matchArguments known takesPath isDivided m .nothing rest
        | some _, none => do
          let m ← p.settle m
          matchArguments known takesPath isDivided m (.option o none) rest
    | .value text =>
      match if isDivided then none else p.waits with
      | some o => matchArguments known takesPath isDivided m (.option o (some text)) rest
      | none => do
        let (m, p) ← matchPath takesPath m p text
        matchArguments known takesPath isDivided m p rest

/-! ## Commands -/

/-- What the arguments of the command `check` mean. -/
def CheckOptions.ofMatched (m : Matched) : CheckOptions where
  path := m.path.getD "."
  format := if m.has "json" || m.get? "format" == some "json" then .json else .text
  severity := (m.get? "severity").bind Severity.ofName?
  maxIssues := (m.get? "max-issues").bind fun value => (readNumber value.toList).toOption
  only := m.getAll "only"
  exclude := m.getAll "exclude"
  config := m.get? "config"
  noAst := m.has "no-ast"
  noColor := m.has "no-color"

namespace Invocation

/-- A command with the options that can stand before it. -/
def ofCommand (outer m : Matched) (command : Command) : Invocation where
  command
  verbose := outer.has "verbose" || m.has "verbose"
  logJson := outer.has "log-json" || m.has "log-json"

/-- What the arguments after the name of a command mean. -/
def parseCommand (outer : Matched) (name : String) (arguments : List String) :
    Except UsageError Invocation :=
  match name with
  | "check" => do
    let m ← matchArguments checkOptions true false .empty .nothing arguments
    return ofCommand outer m (.check (.ofMatched m))
  | "rules" => do
    let m ← matchArguments rulesOptions false false .empty .nothing arguments
    return ofCommand outer m (.rules (m.has "json"))
  | _ => .error (.unknownCommand name)

/-- What arguments mean, after the options that stand before the command. -/
def parseFrom (outer : Matched) : List String → Except UsageError Invocation
  | [] => .error .missingCommand
  | argument :: rest =>
    match ArgumentKind.of argument with
    | .divider =>
      match rest with
      | [] => .error .missingCommand
      | next :: _ => .error (.unexpectedArgument next)
    | .short letter =>
      if letter = 'V' then .ok (ofCommand outer .empty .version)
      else .error (.unexpectedArgument (String.ofList ['-', letter]))
    | .long name value =>
      match name, globalOptions.find? (·.name == name), value with
      | _, some o, none => do parseFrom (← outer.add o "") rest
      | _, some o, some value => .error (.unexpectedValue value o.shown)
      | "version", none, none => .ok (ofCommand outer .empty .version)
      | "version", none, some value => .error (.unexpectedValue value "--version")
      | _, none, _ => .error (.unexpectedArgument s!"--{name}")
    | .value name => parseCommand outer name rest

/-- What a command line means. -/
def parse (arguments : List String) : Except UsageError Invocation :=
  if arguments.isEmpty then .error .empty else parseFrom .empty arguments

end Invocation

end ScriptLint
