import ScriptLint.Text.CharClass

/-!
# Texts in messages

A text that a message quotes is shown so that every character can be seen: control characters, blanks
other than the space, and characters without a width of their own are written by their code points.

## Main definitions

* `shown` — a text as messages quote it
-/

namespace ScriptLint.Text

/-- Whether a character cannot be seen on its own. -/
def isUnseen (c : Char) : Bool :=
  let n := c.toNat
  if n < 0x80 then n < 0x20 || n == 0x7f
  else n < 0xa0 || n == 0xad || isBlank c || (0xe000 ≤ n && n ≤ 0xf8ff) || 0xf0000 ≤ n ||
    (inTable WidthTable.zero n && !(0x1160 ≤ n && n ≤ 0x11ff) && !(0xd7b0 ≤ n && n ≤ 0xd7fb))

/-- A character as messages quote it. -/
def shownChar (c : Char) : List Char :=
  if c = '"' then ['\\', '"']
  else if c = '\\' then ['\\', '\\']
  else if c = '\n' then ['\\', 'n']
  else if c = '\r' then ['\\', 'r']
  else if c = '\t' then ['\\', 't']
  else if c.toNat = 0 then ['\\', '0']
  else if isUnseen c then ['\\', 'u', '\x7b'] ++ Nat.toDigits 16 c.toNat ++ ['\x7d']
  else [c]

/-- A text as messages quote it. -/
def shown (s : String) : String :=
  String.ofList ('"' :: (s.toList.flatMap shownChar ++ ['"']))

end ScriptLint.Text
