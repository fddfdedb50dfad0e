import ScriptLint.Text.Line

/-!
# Lines and columns

Two ways to tell where a byte offset lies in a text. A *position* counts characters and ends lines
at line feeds only. A *display position* counts the columns that characters take on a screen and
also ends lines at lone carriage returns. In both, a line feed at the very end of the text ends the
last line and starts no new one.

Positions are found in the table of the ranges that the lines of the text take: the line is the last
one that starts at the offset or before it, and the column is the number of characters from there to
the offset.

## Main definitions

* `Position` — a line, counted from 1, and a column, counted from 0
* `slice?` — the characters between two byte offsets
* `lineRanges` — the bytes that each line takes
* `positionAt` — the position of a byte offset
* `positionOf` — the position of a place that is not counted from 0
* `displayPositionAt` — the display position of a byte offset
-/

namespace ScriptLint.Text

/-- A line, counted from 1, and a column, counted from 0. -/
structure Position where
  line : Nat
  column : Nat
  deriving DecidableEq, Repr

/-! ## Byte offsets -/

/-- The text after its first `count` bytes; none if they end inside a character or past the end. -/
def dropBytes? : (count : Nat) → List Char → Option (List Char)
  | 0, text => some text
  | _ + 1, [] => none
  | n + 1, c :: rest =>
    if c.utf8Size ≤ n + 1 then dropBytes? (n + 1 - c.utf8Size) rest else none

/-- The first `count` bytes of a text; none if they end inside a character or past the end. -/
def takeBytes? : (count : Nat) → List Char → Option (List Char)
  | 0, _ => some []
  | _ + 1, [] => none
  | n + 1, c :: rest =>
    if c.utf8Size ≤ n + 1 then (takeBytes? (n + 1 - c.utf8Size) rest).map (c :: ·) else none

/-- What stands in a text from the byte offset `start` up to `stop`; none if one of them lies inside
a character or past the end, or if they are in the wrong order. -/
def slice? (text : List Char) (start stop : Nat) : Option (List Char) :=
  if stop < start then none else (dropBytes? start text).bind (takeBytes? (stop - start))

/-! ## Ranges of lines -/

/-- The bytes that a line takes, without its end: from `start` up to `stop`. -/
structure LineRange where
  start : Nat
  stop : Nat
  deriving DecidableEq, Repr

/-- The ranges of the lines of a text from the byte offset `pos` on, which lies in a line that
starts at `start`; `afterReturn` tells whether the character before it is a carriage return of this
line. -/
def lineRangesFrom (start pos : Nat) (afterReturn : Bool) : List Char → List LineRange
  | [] => if start < pos then [⟨start, pos⟩] else []
  | c :: rest =>
    if c = '\n' then
      ⟨start, if afterReturn then pos - 1 else pos⟩ :: lineRangesFrom (pos + 1) (pos + 1) false rest
    else lineRangesFrom start (pos + c.utf8Size) (c == '\r') rest

/-- The bytes that the lines of a text take. -/
def lineRanges (text : List Char) : List LineRange :=
  lineRangesFrom 0 0 false text

/-! ## Positions -/

/-- The position of a byte offset; an offset past the end counts as the end. An offset inside a
character has column 0. -/
def positionAt (text : List Char) (offset : Nat) : Position :=
  let size := byteSize text
  let offset := min offset size
  let ranges := lineRanges text
  let index := (ranges.takeWhile (·.start ≤ offset)).length - 1
  match ranges[index]? with
  | some range =>
    let stop := min (max offset range.start) size
    ⟨index + 1, ((slice? text range.start stop).map List.length).getD 0⟩
  | none => ⟨1, 0⟩

/-- The position of a place in a text whose first byte has the place `first`. A place before that
counts as the start of the text, and one past its end as the end. -/
def positionOf (first : Nat) (text : List Char) (place : Nat) : Position :=
  positionAt text (place - first)

/-- Walks a text from the byte offset `current`, whose display position is `here`, to `offset`. -/
def displayPositionFrom (here : Position) (current offset : Nat) : List Char → Position
  | [] => here
  | c :: rest =>
    if offset ≤ current then here
    else
      let ends := c = '\n' ∨ (c = '\r' ∧ rest.head? ≠ some '\n')
      let next := current + c.utf8Size
      if ends ∧ rest ≠ [] then displayPositionFrom ⟨here.line + 1, 0⟩ next offset rest
      else displayPositionFrom { here with column := here.column + displayWidth c } next offset rest

/-- The display position of a byte offset. -/
def displayPositionAt (text : List Char) (offset : Nat) : Position :=
  displayPositionFrom ⟨1, 0⟩ 0 offset text

end ScriptLint.Text
