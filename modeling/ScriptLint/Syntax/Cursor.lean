import ScriptLint.Syntax.Fault
import ScriptLint.Text.CharClass

/-!
# Places in a text and the space between tokens

A cursor is the rest of a text with the byte offset at which it starts. Between two tokens stand
blanks, line breaks and comments; skipping them tells whether a line break was among them, which
the grammar asks for in places.

## Main definitions

* `Cursor` — the rest of a text and its offset
* `Cursor.takeWhile` — the longest run of characters of a class
* `Cursor.skipTrivia` — the first place at or after a cursor where a token starts
-/

namespace ScriptLint.Syntax

/-- The rest of a text and the byte offset at which it starts. -/
structure Cursor where
  rest : List Char
  pos : Nat

namespace Cursor

/-- The cursor after `n` ASCII characters. -/
def drop (c : Cursor) (n : Nat) : Cursor :=
  ⟨c.rest.drop n, c.pos + n⟩

/-- The longest run of characters with `p` at the front of a text, and the place after it. -/
def takeWhileFrom (p : Char → Bool) : List Char → Nat → List Char × Cursor
  | [], pos => ([], ⟨[], pos⟩)
  | c :: cs, pos =>
    if p c then
      let (run, after) := takeWhileFrom p cs (pos + c.utf8Size)
      (c :: run, after)
    else ([], ⟨c :: cs, pos⟩)

/-- The longest run of characters with `p` at a cursor, and the place after it. -/
def takeWhile (p : Char → Bool) (c : Cursor) : List Char × Cursor :=
  takeWhileFrom p c.rest c.pos

/-- Whether the text goes on with the given characters. -/
def startsWith (mark : String) (cs : List Char) : Bool :=
  mark.toList.isPrefixOf cs

/-- What is being skipped between two tokens. -/
inductive Gap where
  | blank
  | line
  | blockStart
  | block
  | blockEnd

/-- The space before a token: where it ends, whether it holds a line break, and the faults in it. -/
structure Trivia where
  after : Cursor
  newline : Bool
  faults : List Fault

/-- A sign at the start of a line that a version control tool leaves where it could not merge. -/
def isConflictMarker (cs : List Char) : Bool :=
  startsWith "<<<<<<< " cs || startsWith "=======" cs || startsWith ">>>>>>> " cs

/-- Skips from `cs`, which starts at `pos`; `faults` holds the faults so far, the last one first. -/
def skipFrom (gap : Gap) (cs : List Char) (pos : Nat) (newline : Bool) (faults : List Fault) :
    Trivia :=
  match cs with
  | [] =>
    let faults : List Fault := match gap with
      | .blockStart | .block => ⟨.unterminatedComment, pos⟩ :: faults
      | _ => faults
    ⟨⟨[], pos⟩, newline, faults.reverse⟩
  | c :: rest =>
    let next := pos + c.utf8Size
    match gap with
    | .line =>
      if Text.isLineBreak c then skipFrom .blank rest next true faults
      else skipFrom .line rest next newline faults
    | .blockStart => skipFrom .block rest next newline faults
    | .block =>
      if c == '*' && rest.head? == some '/' then skipFrom .blockEnd rest next newline faults
      else skipFrom .block rest next (newline || Text.isLineBreak c) faults
    | .blockEnd => skipFrom .blank rest next newline faults
    | .blank =>
      if Text.isLineBreak c then skipFrom .blank rest next true faults
      else if Text.isGap c then skipFrom .blank rest next newline faults
      else if c == '/' && rest.head? == some '/' then skipFrom .line rest next newline faults
      else if c == '/' && rest.head? == some '*' then skipFrom .blockStart rest next newline faults
      else if (c == '<' && startsWith "!--" rest) || (newline && c == '-' && startsWith "->" rest)
      then skipFrom .line rest next newline (⟨.legacyComment, pos⟩ :: faults)
      else if newline && (c == '<' || c == '=' || c == '>') && isConflictMarker (c :: rest) then
        skipFrom .line rest next newline (⟨.conflictMarker, pos⟩ :: faults)
      else ⟨⟨c :: rest, pos⟩, newline, faults.reverse⟩

/-- The first place at or after a cursor where a token starts. The start of a text counts as the
start of a line. -/
def skipTrivia (c : Cursor) (atStart : Bool) : Trivia :=
  skipFrom .blank c.rest c.pos atStart []

end Cursor

end ScriptLint.Syntax
