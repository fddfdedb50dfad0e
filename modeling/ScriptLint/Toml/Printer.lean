import ScriptLint.Toml.Value

/-!
# Printing TOML values

A text is printed in the plainest form that holds it without escapes; if there is none, with escapes.

## Main definitions

* `Toml.printText` — a text
* `Toml.printKey` — a key
* `Toml.Value.print` — a value, on one line unless its texts have several
-/

namespace ScriptLint.Toml

open Number

/-! ## Texts -/

/-- The length of the longest run of a character, where `run` and `best` are those so far. -/
def longestRunFrom (c : Char) (run best : Nat) : List Char → Nat
  | [] => max run best
  | d :: rest =>
    if d = c then longestRunFrom c (run + 1) best rest
    else longestRunFrom c 0 (max run best) rest

/-- The length of the longest run of a character. -/
def longestRun (c : Char) (text : List Char) : Nat :=
  longestRunFrom c 0 0 text

/-- Control characters other than the end of a line. -/
def needsEscape (c : Char) : Bool :=
  (c.toNat < 0x20 && c != '\n') || c.toNat == 0x7f

/-- The four forms of a text. -/
inductive TextForm where
  | quoted
  | literal
  | longQuoted
  | longLiteral
  deriving DecidableEq, Repr

/-- The form in which a text is printed. -/
def TextForm.of (text : List Char) : TextForm :=
  let escapes := text.any needsEscape
  let backslash := text.contains '\\'
  let newline := text.contains '\n'
  let double := longestRun '"' text
  let single := longestRun '\'' text
  if !escapes && !backslash && double == 0 && !newline then quoted
  else if !escapes && single == 0 && !newline then literal
  else if !escapes && !backslash && double ≤ 2 then longQuoted
  else if !escapes && single ≤ 2 then longLiteral
  else if newline then longQuoted
  else quoted

/-- A code point in four digits. -/
def fourDigits (n : Nat) : List Char :=
  [12, 8, 4, 0].map fun shift => (Nat.digitChar (n / Nat.pow 2 shift % 16)).toUpper

/-- A text with escapes that follows `run` double quotes. On several lines, two of them in a row
stand as they are. -/
def escapedText (long : Bool) (run : Nat) : List Char → List Char
  | [] => []
  | c :: rest =>
    if c = '"' then
      if run < (if long then 2 else 0) then c :: escapedText long (run + 1) rest
      else '\\' :: c :: escapedText long 0 rest
    else
      let shown :=
        if c = '\x08' then ['\\', 'b']
        else if c = '\t' then ['\\', 't']
        else if c = '\n' then if long then [c] else ['\\', 'n']
        else if c = '\x0c' then ['\\', 'f']
        else if c = '\r' then ['\\', 'r']
        else if c = '\\' then ['\\', '\\']
        else if needsEscape c then ['\\', 'u'] ++ fourDigits c.toNat
        else [c]
      shown ++ escapedText long 0 rest

/-- A text in a form. A text on several lines starts on a line of its own. -/
def TextForm.print (form : TextForm) (text : List Char) : List Char :=
  let start := if text.contains '\n' then ['\n'] else []
  match form with
  | quoted => ['"'] ++ escapedText false 0 text ++ ['"']
  | literal => ['\''] ++ text ++ ['\'']
  | longQuoted => ['"', '"', '"'] ++ start ++ escapedText true 0 text ++ ['"', '"', '"']
  | longLiteral => ['\'', '\'', '\''] ++ start ++ text ++ ['\'', '\'', '\'']

/-- A text in the form that suits it. -/
def printText (s : String) : List Char :=
  (TextForm.of s.toList).print s.toList

/-! ## Keys and values -/

/-- Characters of keys that need no quotes. -/
def isPlainKeyChar (c : Char) : Bool :=
  ('a' ≤ c && c ≤ 'z') || ('A' ≤ c && c ≤ 'Z') || ('0' ≤ c && c ≤ '9') || c == '-' || c == '_'

/-- A key, in quotes if it needs them. Keys have no forms on several lines. -/
def printKey (s : String) : List Char :=
  let text := s.toList
  if !text.isEmpty && text.all isPlainKeyChar then text
  else
    let form := if TextForm.of text = .literal then TextForm.literal else .quoted
    form.print text

/-- Entries by key, in increasing order; of two with one key, the later one counts. -/
def insertEntry (entry : String × Value) : List (String × Value) → List (String × Value)
  | [] => [entry]
  | e :: more =>
    if e.1 = entry.1 then entry :: more
    else if entry.1.toList < e.1.toList then entry :: e :: more
    else e :: insertEntry entry more

/-- The entries of a table by increasing key. -/
def sortedEntries (entries : List (String × Value)) : List (String × Value) :=
  entries.foldl (fun sorted e => insertEntry e sorted) []

mutual

/-- The value with all tables sorted by key. -/
def Value.sorted : Value → Value
  | .list items => .list (sortedItems items)
  | .table entries => .table (sortedEntries (sortedMembers entries))
  | v => v

/-- The values of a list with all tables sorted by key. -/
def sortedItems : List Value → List Value
  | [] => []
  | v :: more => v.sorted :: sortedItems more

/-- The entries of a table with all tables inside sorted by key. -/
def sortedMembers : List (String × Value) → List (String × Value)
  | [] => []
  | (key, v) :: more => (key, v.sorted) :: sortedMembers more

end

/-- The text of an integer. -/
def printInteger (i : Int) : List Char :=
  (if i < 0 then ['-'] else []) ++ Nat.toDigits 10 i.natAbs

mutual

/-- The text of a value, with the entries of tables in the order they have. -/
def Value.written : Value → List Char
  | .text s => printText s
  | .integer i => printInteger i
  | .real x => (x.written .plain).toList
  | .bool b => if b then "true".toList else "false".toList
  | .moment s =>
    "\x7b ".toList ++ printKey Value.momentKey ++ " = ".toList ++ printText s ++ " \x7d".toList
  | .list items => '[' :: (writtenItems true items ++ [']'])
  | .table [] => ['\x7b', '\x7d']
  | .table (entry :: entries) =>
    '\x7b' :: (writtenMembers true (entry :: entries) ++ [' ', '\x7d'])

/-- The elements of a list, with commas between them. -/
def writtenItems (first : Bool) : List Value → List Char
  | [] => []
  | v :: more => (if first then [] else [',', ' ']) ++ v.written ++ writtenItems false more

/-- The entries of a table, with commas between them. -/
def writtenMembers (first : Bool) : List (String × Value) → List Char
  | [] => []
  | (key, v) :: more =>
    (if first then [' '] else [',', ' ']) ++ printKey key ++ " = ".toList ++ v.written ++
      writtenMembers false more

end

/-- The text of a value, with the entries of tables by increasing key. -/
def Value.print (v : Value) : String :=
  String.ofList v.sorted.written

end ScriptLint.Toml
