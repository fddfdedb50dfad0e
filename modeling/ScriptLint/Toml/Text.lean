import ScriptLint.Toml.Fault

/-!
# Texts in a TOML document

Texts come in four forms: with or without escapes, on one line or on several.

## Main definitions

* `Toml.skipBlanks`, `Toml.afterNewline?`, `Toml.afterComment` — what stands between values
* `Toml.readText` — a text in any of the four forms
* `Toml.readQuoted`, `Toml.readLiteral` — the forms that a key can have
-/

namespace ScriptLint.Toml

/-! ## Between values -/

/-- Blanks within a line. -/
def isSpace (c : Char) : Bool :=
  c == ' ' || c == '\t'

/-- A text without the blanks before it. -/
def skipBlanks (text : List Char) : List Char :=
  text.dropWhile isSpace

/-- What follows the end of a line. -/
def afterNewline? : List Char → Option (List Char)
  | '\n' :: rest | '\r' :: '\n' :: rest => some rest
  | _ => none

/-- Characters that are not allowed as they are. -/
def isControl (c : Char) : Bool :=
  (c.toNat < 0x20 && c != '\t') || c.toNat == 0x7f

/-- What follows a comment, if one stands here. -/
def afterComment : List Char → List Char
  | '#' :: rest => rest.dropWhile (!isControl ·)
  | text => text

/-- What follows the end of a line or stands at the end of the document. -/
def afterLine? (text : List Char) : Option (List Char) :=
  if text.isEmpty then some [] else afterNewline? text

/-- What follows the rest of a line, which may hold a comment. -/
def afterRestOfLine? (text : List Char) : Option (List Char) :=
  afterLine? (afterComment (skipBlanks text))

/-- Skips blanks, comments and ends of lines. A comment counts only if its line ends. -/
def skipLines : Nat → List Char → List Char
  | 0, text => text
  | fuel + 1, text =>
    let text := skipBlanks text
    match afterNewline? (afterComment text) with
    | some rest => skipLines fuel rest
    | none => text

/-! ## Escapes -/

/-- The value of a hexadecimal digit. -/
def hexValue? (c : Char) : Option Nat :=
  if '0' ≤ c ∧ c ≤ '9' then some (c.toNat - 48)
  else if 'a' ≤ c ∧ c ≤ 'f' then some (c.toNat - 87)
  else if 'A' ≤ c ∧ c ≤ 'F' then some (c.toNat - 55)
  else none

/-- The number that hexadecimal digits mean. -/
def hexNumber (digits : List Char) : Nat :=
  digits.foldl (fun n c => 16 * n + (hexValue? c).getD 0) 0

/-- Reads the code point of an escape, which has exactly `size` digits. -/
def readCodePoint (size : Nat) (text : List Char) : Reading Char :=
  let construct := s!"unicode {size}-digit hex code"
  let digits := (text.take size).takeWhile fun c => (hexValue? c).isSome
  let n := hexNumber digits
  if digits.length ≠ size then .error (.hard { construct })
  else if n < 0xd800 ∨ (0xdfff < n ∧ n < 0x110000) then .ok (Char.ofNat n, text.drop size)
  else .error (.hard { construct, cause := some .outOfRange })

/-- The fault of an escape that means nothing. -/
def unknownEscape : Fault where
  construct := "escape sequence"
  expected := ["`b`", "`f`", "`n`", "`r`", "`t`", "`u`", "`U`", "`\\`", "`\"`"]

/-- Reads what follows a backslash. -/
def readEscape : List Char → Reading Char
  | 'b' :: rest => .ok ('\x08', rest)
  | 'f' :: rest => .ok ('\x0c', rest)
  | 'n' :: rest => .ok ('\n', rest)
  | 'r' :: rest => .ok ('\r', rest)
  | 't' :: rest => .ok ('\t', rest)
  | '\\' :: rest => .ok ('\\', rest)
  | '"' :: rest => .ok ('"', rest)
  | 'u' :: rest => readCodePoint 4 rest
  | 'U' :: rest => readCodePoint 8 rest
  | [] => .error (.soft {})
  | _ => .error (.hard unknownEscape)

/-! ## Texts on one line -/

/-- A construct that is broken. -/
def broken (construct : String) : Failure :=
  .hard { construct }

/-- A reading with one more character in front. -/
def after (c : Char) (r : Reading (List Char)) : Reading (List Char) :=
  r.map fun (more, rest) => (c :: more, rest)

/-- Reads the rest of a text with escapes. -/
def readQuotedRest : Nat → List Char → Reading (List Char)
  | _ + 1, '"' :: rest => .ok ([], rest)
  | fuel + 1, '\\' :: rest =>
    match readEscape rest with
    | .ok (c, rest) => after c (readQuotedRest fuel rest)
    | .error f => .error (if f.final then f else broken "basic string")
  | fuel + 1, c :: rest =>
    if isControl c then .error (broken "basic string")
    else after c (readQuotedRest fuel rest)
  | _, _ => .error (broken "basic string")

/-- Reads a text with escapes after its opening quote. -/
def readQuoted (text : List Char) : Reading (List Char) :=
  readQuotedRest (text.length + 1) text

/-- Reads a text without escapes after its opening quote. -/
def readLiteral (text : List Char) : Reading (List Char) :=
  let isInside := fun c => c != '\'' && !isControl c
  match text.dropWhile isInside with
  | '\'' :: rest => .ok (text.takeWhile isInside, rest)
  | _ => .error (broken "literal string")

/-! ## Texts on several lines -/

/-- A text without the end of a line at its start. -/
def dropNewline (text : List Char) : List Char :=
  (afterNewline? text).getD text

/-- Skips the line break that a backslash hides, with all blanks and line breaks after it. -/
def hiddenBreak? (text : List Char) : Option (List Char) :=
  (afterNewline? (skipBlanks text)).map fun rest =>
    let rec skip : Nat → List Char → List Char
      | 0, text => text
      | fuel + 1, text =>
        match afterNewline? (skipBlanks text) with
        | some rest => skip fuel rest
        | none => skipBlanks text
    skip rest.length rest

/-- The quotes at the start of a text and what follows them. -/
def splitQuotes (quote : Char) (text : List Char) : Nat × List Char :=
  ((text.takeWhile (· == quote)).length, text.dropWhile (· == quote))

/-- Whether the text ends with these quotes; up to two of them belong to it. -/
def closing? (quote : Char) (text : List Char) : Option (List Char × List Char) :=
  let (count, _) := splitQuotes quote text
  if count < 3 then none
  else
    let own := min (count - 3) 2
    some (List.replicate own quote, text.drop (own + 3))

/-- Reads the rest of a text with escapes on several lines. -/
def readLongQuoted : Nat → List Char → Reading (List Char)
  | 0, _ => .error (broken "multiline basic string")
  | fuel + 1, text =>
    match closing? '"' text with
    | some done => .ok done
    | none =>
      match text with
      | '\\' :: rest =>
        match hiddenBreak? rest with
        | some rest => readLongQuoted fuel rest
        | none =>
          match readEscape rest with
          | .ok (c, rest) => after c (readLongQuoted fuel rest)
          | .error f => .error (if f.final then f else broken "multiline basic string")
      | c :: rest =>
        match afterNewline? text with
        | some rest => after '\n' (readLongQuoted fuel rest)
        | none =>
          if isControl c then .error (broken "multiline basic string")
          else after c (readLongQuoted fuel rest)
      | [] => .error (broken "multiline basic string")

/-- Reads the rest of a text without escapes on several lines. -/
def readLongLiteral : Nat → List Char → Reading (List Char)
  | 0, _ => .error (broken "multiline literal string")
  | fuel + 1, text =>
    match closing? '\'' text with
    | some done => .ok done
    | none =>
      match afterNewline? text, text with
      | some rest, _ => after '\n' (readLongLiteral fuel rest)
      | none, c :: rest =>
        if isControl c then .error (broken "multiline literal string")
        else after c (readLongLiteral fuel rest)
      | none, [] => .error (broken "multiline literal string")

/-- A reading of characters as one of a text. -/
def asText (r : Reading (List Char)) : Reading String :=
  r.map fun (s, rest) => (String.ofList s, rest)

/-- Reads a text in any of the four forms. -/
def readText : List Char → Reading String
  | '"' :: '"' :: '"' :: rest => asText (readLongQuoted (rest.length + 1) (dropNewline rest))
  | '\'' :: '\'' :: '\'' :: rest => asText (readLongLiteral (rest.length + 1) (dropNewline rest))
  | '"' :: rest => asText (readQuoted rest)
  | '\'' :: rest => asText (readLiteral rest)
  | _ => .error (.soft {})

end ScriptLint.Toml
