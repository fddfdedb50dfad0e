import ScriptLint.Redeclaration
import ScriptLint.Source
import ScriptLint.Syntax.Grammar
import ScriptLint.Text.Position

/-!
# Scripts

A script is a text together with what it spells. The name of a file tells which dialect to try
first; what that dialect refuses may still be a script with types and elements.

## Main definitions

* `Language` — the dialects by file name
* `SyntaxError` — a fault and where it shows
* `Script.parse` — the script in a file
-/

namespace ScriptLint

open Syntax Text

/-- The dialects by file name. -/
inductive Language where
  | javaScript
  | typeScript
  | jsx
  | tsx
  deriving DecidableEq, Repr

namespace Language

/-- How the language is named. -/
def name : Language → String
  | javaScript => "JavaScript"
  | typeScript => "TypeScript"
  | jsx => "Jsx"
  | tsx => "Tsx"

/-- The part of a path after its last dot, or the whole path if it has none. -/
def extension (path : List Char) : List Char :=
  (path.reverse.takeWhile (· != '.')).reverse

/-- The language of a file, by the extension of its path. -/
def ofPath (path : String) : Language :=
  match String.ofList ((extension path.toList).map Char.toLower) with
  | "ts" | "mts" | "cts" => typeScript
  | "tsx" => tsx
  | "jsx" => jsx
  | _ => javaScript

/-- Everything that a script can hold. -/
def typed (jsx : Bool) : Options :=
  { typescript := true, jsx, decorators := true }

/-- The dialects to try, in order. Plain scripts may hold elements, since much code that does is
kept in files named for plain scripts. -/
def dialects : Language → List Options
  | javaScript | jsx => [{ typescript := false, jsx := true, decorators := false }, typed true]
  | typeScript => [typed false, typed true]
  | tsx => [typed true]

end Language

/-- A fault and where it shows. -/
structure SyntaxError where
  message : String
  position : Position
  deriving DecidableEq, Repr

/-- The error in one line. -/
def SyntaxError.display (e : SyntaxError) : String :=
  s!"{e.message} at {e.position.line}:{e.position.column}"

/-- A text without the mark that tells its byte order. -/
def withoutMark : List Char → List Char
  | c :: rest => if c.toNat == 0xfeff then rest else c :: rest
  | [] => []

/-- What a text spells in a dialect. -/
def Syntax.Module.ofText (options : Options) (text : List Char) : Except SyntaxError Module :=
  let text := withoutMark text
  (Module.parse options text).mapError fun fault =>
    ⟨fault.cause.message, displayPositionAt text fault.pos⟩

/-- A text and what it spells. -/
structure Script where
  source : List Char
  module : Module

namespace Script

/-- A script without names that are bound twice. The position of such a name is counted in the text
with its mark. -/
def check (s : Script) : Except SyntaxError Script :=
  match Outline.redeclared s.module.outline with
  | none => .ok s
  | some id =>
    .error ⟨s!"Identifier '{id.name}' has already been declared", positionAt s.source id.pos⟩

/-- The script that a text spells in the first dialect of a list that accepts it; otherwise the
error of the first dialect. -/
def ofDialects (source : List Char) (earlier : Option SyntaxError) :
    List Options → Except SyntaxError Script
  | [] => .error (earlier.getD ⟨"unknown parse failure", ⟨1, 0⟩⟩)
  | options :: more =>
    match Module.ofText options source with
    | .ok module => check ⟨source, module⟩
    | .error e => ofDialects source (some (earlier.getD e)) more

/-- The script in a file. -/
def parse (file : Source) : Except SyntaxError Script :=
  ofDialects file.content none (Language.ofPath file.path).dialects

/-- The position of a place in a script. Places are counted without a mark at the start of the
text, positions with it. -/
def position (s : Script) (pos : Nat) : Position :=
  positionAt s.source pos

/-- The outline of a script. -/
def outline (s : Script) : List Outline :=
  s.module.outline

/-- A script in one line. -/
def describe (s : Script) : String :=
  s!"ParsedFile \x7b bytes: {byteSize s.source}, statements: {s.module.items.length} \x7d"

end Script

end ScriptLint
