import ScriptLint.Number.Shortest

/-!
# JSON data

The data that a report consists of, and how it is written: one member or element a line, indented by
two blanks for every level.

## Main definitions

* `Datum` — JSON data
* `Datum.quoted` — a text in quotes
* `Datum.write` — the lines of a datum, indented
-/

namespace ScriptLint

open Number

/-- JSON data. The members of a record are in order. -/
inductive Datum where
  | null
  | bool (b : Bool)
  | integer (i : Int)
  | real (x : Binary64)
  | text (s : String)
  | list (items : List Datum)
  | record (members : List (String × Datum))
  deriving Inhabited

namespace Datum

/-- Numbers are written with an exponent if they are at least `10 ^ 16` or below `10 ^ -5`. -/
def layout : Layout :=
  ⟨-5, 15, "+"⟩

/-- A digit of a code point. -/
def hexDigit (n : Nat) : Char :=
  Nat.digitChar (n % 16)

/-- How a character is written inside quotes. -/
def escaped (c : Char) : List Char :=
  if c = '"' then ['\\', '"']
  else if c = '\\' then ['\\', '\\']
  else if c = '\n' then ['\\', 'n']
  else if c = '\r' then ['\\', 'r']
  else if c = '\t' then ['\\', 't']
  else if c = '\x08' then ['\\', 'b']
  else if c = '\x0c' then ['\\', 'f']
  else if c.toNat < 0x20 then ['\\', 'u', '0', '0', hexDigit (c.toNat / 16), hexDigit c.toNat]
  else [c]

/-- A text in quotes. -/
def quoted (s : String) : List Char :=
  '"' :: (s.toList.flatMap escaped ++ ['"'])

/-- The text of an integer. -/
def integerText (i : Int) : List Char :=
  (if i < 0 then ['-'] else []) ++ Nat.toDigits 10 i.natAbs

/-- A new line at a level. -/
def newLine (level : Nat) : List Char :=
  '\n' :: List.replicate (2 * level) ' '

/-- The text of a number. What is not finite has no digits and is written like nothing at all. -/
def realText : Binary64 → List Char
  | .finite negative m e => ((Binary64.finite negative m e).written layout).toList
  | _ => ['n', 'u', 'l', 'l']

mutual

/-- The text of a datum that stands at a level. -/
def write (level : Nat) : Datum → List Char
  | null => ['n', 'u', 'l', 'l']
  | bool b => if b then ['t', 'r', 'u', 'e'] else ['f', 'a', 'l', 's', 'e']
  | integer i => integerText i
  | real x => realText x
  | text s => quoted s
  | list [] => ['[', ']']
  | list (item :: items) =>
    '[' :: (newLine (level + 1) ++ write (level + 1) item ++ writeItems (level + 1) items ++
      newLine level ++ [']'])
  | record [] => ['\x7b', '\x7d']
  | record ((key, value) :: members) =>
    '\x7b' :: (newLine (level + 1) ++ quoted key ++ [':', ' '] ++ write (level + 1) value ++
      writeMembers (level + 1) members ++ newLine level ++ ['\x7d'])

/-- The elements after the first one, each after a comma. -/
def writeItems (level : Nat) : List Datum → List Char
  | [] => []
  | item :: items => ',' :: (newLine level ++ write level item ++ writeItems level items)

/-- The members after the first one, each after a comma. -/
def writeMembers (level : Nat) : List (String × Datum) → List Char
  | [] => []
  | (key, value) :: members =>
    ',' :: (newLine level ++ quoted key ++ [':', ' '] ++ write level value ++
      writeMembers level members)

end

/-- The text of a datum. -/
def render (d : Datum) : String :=
  String.ofList (d.write 0)

end Datum

end ScriptLint
