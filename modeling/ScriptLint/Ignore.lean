import ScriptLint.FileTree
import ScriptLint.Ignore.Glob

/-!
# Files that are to be ignored

A directory can hold a file that says which paths below it are to be ignored, one pattern a line. Of
all patterns that match a path the last one decides.

## Main definitions

* `Ignore.Rule` — a line of such a file
* `Ignore.Rule.ofLine?` — reads a line
* `Ignore.parse` — reads the lines of a file
* `Ignore.Rules.ignores` — whether a path is to be ignored
-/

namespace ScriptLint.Ignore

open Text FileTree

/-- A line that says what is to be ignored, or what is to be kept in spite of earlier lines. -/
structure Rule where
  tokens : List Glob.Token
  keeps : Bool
  onlyDirectories : Bool

namespace Rule

/-- A line without the blanks after it, unless the last of them is escaped. -/
def trimLine (line : List Char) : List Char :=
  if ['\\', ' '].isSuffixOf line then line else trimEnd line

/-- The pattern that a line means. A pattern without a slash matches at every depth, and one that
ends with two stars matches what is inside a directory but not the directory itself. -/
def pattern (anchored : Bool) (text : List Char) : List Char :=
  let deep :=
    if anchored ∨ text.contains '/' ∨ text = ['*', '*'] then text else ['*', '*', '/'] ++ text
  if ['/', '*', '*'].isSuffixOf deep then deep ++ ['/', '*'] else deep

/-- A line without a slash at its end, which may be escaped, and whether it had one. -/
def splitSlash (text : List Char) : List Char × Bool :=
  if text.getLast? = some '/' then
    let rest := text.dropLast
    (if rest.getLast? = some '\\' then rest.dropLast else rest, true)
  else (text, false)

/-- A line without the signs at its start: whether it keeps paths, whether it is anchored, and the
rest. -/
def splitStart (text : List Char) : Bool × Bool × List Char :=
  match text with
  | '\\' :: '!' :: rest => (false, false, '!' :: rest)
  | '\\' :: '#' :: rest => (false, false, '#' :: rest)
  | '!' :: '/' :: rest => (true, true, rest)
  | '!' :: rest => (true, false, rest)
  | '/' :: rest => (false, true, rest)
  | _ => (false, false, text)

/-- Reads a trimmed line. -/
def ofText (line : List Char) : Except Glob.Error Rule := do
  let (keeps, anchored, text) := splitStart line
  let (text, onlyDirectories) := splitSlash text
  return ⟨← Glob.parse (pattern anchored text), keeps, onlyDirectories⟩

/-- Reads a line; empty lines and comments say nothing. -/
def ofLine? (line : List Char) : Except (List Char × Glob.Error) (Option Rule) :=
  if line.head? = some '#' then .ok none
  else
    let line := trimLine line
    if line.isEmpty then .ok none
    else ((ofText line).map some).mapError fun e => (line, e)

end Rule

/-- Why a line cannot be read. -/
inductive LineError where
  | pattern (line : List Char) (e : Glob.Error)
  | notText
  deriving DecidableEq, Repr

/-- The error in words. -/
def LineError.message : LineError → String
  | pattern line e => s!"error parsing glob '{String.ofList line}': {e.message}"
  | notText => ReadError.notText.message

/-- Lines that are still to be read: texts, and maybe one at their end that is none. -/
structure Lines where
  texts : List (List Char)
  broken : Bool

/-- The lines of bytes, up to the first one that is no text. -/
def linesOfBytes : List (List UInt8) → Lines
  | [] => ⟨[], false⟩
  | line :: more =>
    match String.fromUTF8? ⟨line.toArray⟩ with
    | none => ⟨[], true⟩
    | some s =>
      let rest := linesOfBytes more
      let text := s.toList
      ⟨(if text.getLast? = some '\r' then text.dropLast else text) :: rest.texts, rest.broken⟩

/-- Splits bytes at line feeds. -/
def splitBytes : List UInt8 → List (List UInt8)
  | [] => []
  | b :: rest =>
    if b = 10 then [] :: splitBytes rest
    else match splitBytes rest with
      | [] => [[b]]
      | line :: more => (b :: line) :: more

/-- The lines of a file. -/
def Lines.ofContent : Content → Except ReadError Lines
  | .text chars => .ok ⟨lines chars, false⟩
  | .binary bytes _ => .ok (linesOfBytes (splitBytes bytes))
  | .unreadable _ reason => .error (.refused reason)

/-- The lines with their numbers, the first one without marks of the byte order. -/
def Lines.numbered (l : Lines) : List (List Char × Nat) :=
  match l.texts with
  | [] => []
  | first :: more => ((first.dropWhile (·.toNat == 0xfeff)) :: more).zipIdx 1

/-- The lines of a file that say something, in order. -/
abbrev Rules := List Rule

/-- Reads lines: their rules, or all lines that cannot be read with their numbers. -/
def parse (l : Lines) : Except (List (Nat × LineError)) Rules :=
  let read := l.numbered.map fun (line, number) => (number, Rule.ofLine? line)
  let faults := read.filterMap fun (number, r) =>
    match r with
    | .error (line, e) => some (number, LineError.pattern line e)
    | .ok _ => none
  let ends := if l.broken then [(l.texts.length + 1, LineError.notText)] else []
  if (faults ++ ends).isEmpty then .ok (read.filterMap fun (_, r) => r.toOption.join)
  else .error (faults ++ ends)

/-- Whether a path is to be ignored: what the last rule that matches it says. -/
def Rules.ignores (rules : Rules) (path : List Char) (isDirectory : Bool) : Bool :=
  match rules.reverse.find? fun r =>
      (!r.onlyDirectories || isDirectory) && Glob.isMatch r.tokens path with
  | some r => !r.keeps
  | none => false

/-! ## Paths below a directory -/

/-- A text without another one at its start. -/
def dropStart? : List Char → List Char → Option (List Char)
  | [], text => some text
  | _ :: _, [] => none
  | w :: start, c :: text => if w = c then dropStart? start text else none

/-- A path without a leading step to the directory itself. -/
def dropDot (path : List Char) : List Char :=
  (dropStart? ['.', '/'] path).getD path

/-- A path seen from the directory `root`, which it is below of. -/
def relative (root path : List Char) : List Char :=
  let root := dropDot root
  let path := dropDot path
  if root = ['.'] ∨ ¬path.contains '/' then path
  else
    match dropStart? root path with
    | some rest => (dropStart? ['/'] rest).getD rest
    | none => path

end ScriptLint.Ignore
