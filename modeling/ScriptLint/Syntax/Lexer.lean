import ScriptLint.Syntax.Cursor
import ScriptLint.Syntax.Token

/-!
# Reading tokens

The token at a cursor. What a character starts can depend on the grammar around it: a slash is a
division or a regular expression, a closing brace ends a block or goes on with a template, and
between the tags of an element all is text. Each of these readings is a function of its own, and
the grammar chooses.

## Main definitions

* `Scan` — a token, the text after it, and the faults in it that reading can go on from
* `scan` — the token at a cursor, in the ordinary reading
* `scanRegex`, `templatePiece`, `scanElementText`, `scanElementString` — the other readings
-/

namespace ScriptLint.Syntax

/-- A token, the text after it, and the faults in it that reading can go on from. -/
structure Scan where
  token : Token
  after : Cursor
  faults : List Fault := []

namespace Lexer

/-! ## Escapes -/

/-- The value of a hexadecimal digit. -/
def hexValue? (c : Char) : Option Nat :=
  if '0' ≤ c && c ≤ '9' then some (c.toNat - '0'.toNat)
  else if 'a' ≤ c && c ≤ 'f' then some (c.toNat - 'a'.toNat + 10)
  else if 'A' ≤ c && c ≤ 'F' then some (c.toNat - 'A'.toNat + 10)
  else none

/-- The number of exactly `n` hexadecimal digits, or the place where one is missing. -/
def hexDigits (n : Nat) (value : Nat) (c : Cursor) : Except Nat (Nat × Cursor) :=
  match n with
  | 0 => .ok (value, c)
  | n + 1 =>
    match c.rest with
    | [] => .error c.pos
    | d :: rest =>
      match hexValue? d with
      | some v => hexDigits n (value * 16 + v) ⟨rest, c.pos + 1⟩
      | none => .error c.pos

/-- The number in braces of an escape, up to and with the closing brace; a number beyond the last
code point is refused where it leaves the range. -/
def bracedDigits (value : Nat) (some? : Bool) : List Char → Nat → Except Nat (Nat × Cursor)
  | [], pos => .error pos
  | d :: rest, pos =>
    if d == '\x7d' then (if some? then .ok (value, ⟨rest, pos + 1⟩) else .error pos)
    else match hexValue? d with
      | some v =>
        if value * 16 + v > 0x10ffff then .error pos
        else bracedDigits (value * 16 + v) true rest (pos + 1)
      | none => .error pos

/-- What an escape wanted when it stopped. -/
structure EscapeFault where
  want : String
  pos : Nat

/-- The code point of a `u` escape, from the text after the letter `u`. -/
def unicodeEscape (c : Cursor) : Except EscapeFault (Nat × Cursor) :=
  match c.rest with
  | '\x7b' :: rest =>
    (bracedDigits 0 false rest (c.pos + 1)).mapError
      (⟨"1-6 hex characters in the range 0 to 10FFFF.", ·⟩)
  | _ => (hexDigits 4 0 c).mapError (⟨"4 hex characters", ·⟩)

/-! ## Words -/

/-- The rest of a word that holds escapes; `acc` holds the characters so far, the last one
first. -/
def escapedWord (budget : Nat) (acc : List Char) (c : Cursor) : Except Fault (List Char × Cursor) :=
  match budget with
  | 0 => .error ⟨.escapeExpected, c.pos⟩
  | budget + 1 =>
    match c.rest with
    | [] => .ok (acc.reverse, c)
    | '\\' :: 'u' :: rest =>
      match unicodeEscape ⟨rest, c.pos + 2⟩ with
      | .error e => .error ⟨.badEscape e.want, e.pos⟩
      | .ok (n, after) =>
        let d := Char.ofNat n
        if (if acc.isEmpty then Text.isNameStart d else Text.isNamePart d) then
          escapedWord budget (d :: acc) after
        else .error ⟨.invalidNameCharacter, c.pos⟩
    | '\\' :: _ => .error ⟨.escapeExpected, c.pos⟩
    | d :: rest =>
      if Text.isNamePart d then escapedWord budget (d :: acc) ⟨rest, c.pos + d.utf8Size⟩
      else .ok (acc.reverse, c)

/-- The word at a cursor. A reserved word must not be written with escapes, and a word written with
escapes is never a keyword. -/
def scanWord (budget : Nat) (c : Cursor) : Scan :=
  let (plain, after) := c.takeWhile Text.isNamePart
  match after.rest with
  | '\\' :: _ =>
    match escapedWord budget plain.reverse after with
    | .error f => { token := .invalid f, after := after }
    | .ok (chars, after) =>
      let name := String.ofList chars
      match Keyword.ofChars? chars with
      | some k =>
        if k.isReservedInStrict && k != .kwStatic then
          { token := .invalid ⟨.escapedKeyword name, c.pos⟩, after := after }
        else { token := .word name none, after := after }
      | none => { token := .word name none, after := after }
  | _ => { token := .word (String.ofList plain) (Keyword.ofChars? plain), after := after }

/-! ## Numbers -/

/-- Whether `c` is a digit in the given radix. -/
def isRadixDigit (radix : Nat) (c : Char) : Bool :=
  match hexValue? c with
  | some v => v < radix
  | none => false

/-- Whether each separator in a run of digits stands between two digits. -/
def separatorsOk (radix : Nat) (previous : Bool) : List Char → Bool
  | [] => true
  | c :: cs =>
    if c == '_' then
      previous && (match cs with
        | d :: _ => isRadixDigit radix d
        | [] => false) && separatorsOk radix false cs
    else separatorsOk radix true cs

/-- A run of digits and separators: whether it has a digit, the place after it, and whether its
separators are well placed. -/
def digits (radix : Nat) (c : Cursor) : Bool × Cursor × Bool :=
  let (run, after) := c.takeWhile fun d => isRadixDigit radix d || d == '_'
  (run.any (isRadixDigit radix), after, separatorsOk radix false run)

/-- The fault of a name that follows a number directly. -/
def nameAfterNumber? (c : Cursor) : Option Fault :=
  match c.rest with
  | d :: _ => if Text.isNameStart d || d == '\\' then some ⟨.nameAfterNumber, c.pos⟩ else none
  | [] => none

/-- Ends a number that started at `start`. -/
def endNumber (start : Nat) (raw : String) (after : Cursor) (faults : List Fault) : Scan :=
  let (token, after) : Token × Cursor := match after.rest with
    | 'n' :: rest => (.bigint raw, ⟨rest, after.pos + 1⟩)
    | _ => (.number raw, after)
  match nameAfterNumber? after with
  | some f => { token := .invalid f, after := after, faults := faults }
  | none => { token := token, after := after, faults := faults.map fun f => { f with pos := start } }

/-- A number with a radix mark, such as `0x1f`; `c` stands after the mark. -/
def scanRadixNumber (radix start : Nat) (raw : String) (c : Cursor) : Scan :=
  let (found, after, separated) := digits radix c
  if !found then { token := .invalid ⟨.digitExpected radix, c.pos⟩, after := after }
  else endNumber start raw after (if separated then [] else [⟨.misplacedSeparator, start⟩])

/-- The exponent of a number, if one stands at the cursor. -/
def exponent (c : Cursor) : Except Fault (Cursor × Bool) :=
  match c.rest with
  | e :: rest =>
    if e == 'e' || e == 'E' then
      match rest with
      | [] => .error ⟨.exponentExpected, c.pos + 1⟩
      | s :: more =>
        let c := if s == '+' || s == '-' then ⟨more, c.pos + 2⟩ else ⟨rest, c.pos + 1⟩
        let (found, after, separated) := digits 10 c
        if found then .ok (after, separated) else .error ⟨.exponentExpected, c.pos⟩
    else .ok (c, true)
  | [] => .ok (c, true)

/-- The fraction and exponent of a decimal number. -/
def scanFraction (start : Nat) (raw : String) (c : Cursor) (faults : List Fault) : Scan :=
  let (after, separated) : Cursor × Bool := match c.rest with
    | '.' :: rest =>
      let (_, after, separated) := digits 10 ⟨rest, c.pos + 1⟩
      (after, separated)
    | _ => (c, true)
  match exponent after with
  | .error f => { token := .invalid f, after := after, faults := faults }
  | .ok (after, separated') =>
    endNumber start raw after
      (if separated && separated' then faults else faults ++ [⟨.misplacedSeparator, start⟩])

/-- The number at a cursor. A number that starts with a zero and goes on with a digit is an old way
to write octal numbers. -/
def scanNumber (c : Cursor) : Scan :=
  let start := c.pos
  let raw := String.ofList (c.takeWhile fun d => Text.isNamePart d || d == '.').1
  match c.rest with
  | '0' :: 'x' :: rest | '0' :: 'X' :: rest => scanRadixNumber 16 start raw ⟨rest, start + 2⟩
  | '0' :: 'o' :: rest | '0' :: 'O' :: rest => scanRadixNumber 8 start raw ⟨rest, start + 2⟩
  | '0' :: 'b' :: rest | '0' :: 'B' :: rest => scanRadixNumber 2 start raw ⟨rest, start + 2⟩
  | '0' :: d :: _ =>
    let (_, after, separated) := digits 10 c
    let faults : List Fault := if separated then [] else [⟨.misplacedSeparator, start⟩]
    if Text.isDigit d then
      let (run, _) := c.takeWhile Text.isDigit
      if run.all (isRadixDigit 8) then
        endNumber start raw after (faults ++ [⟨.legacyOctal, start⟩])
      else scanFraction start raw after (faults ++ [⟨.legacyDecimal, start⟩])
    else scanFraction start raw after faults
  | _ =>
    let (_, after, separated) := digits 10 c
    scanFraction start raw after (if separated then [] else [⟨.misplacedSeparator, start⟩])

/-! ## Strings -/

/-- What an escape in a string or template stands for. -/
structure Escape where
  value : List Char
  after : Cursor
  fault : Option Cause := none

/-- The code point `n` as text; half of a surrogate pair stands for nothing. -/
def codePoint (n : Nat) : List Char :=
  if h : n.isValidChar then [Char.ofNatAux n h] else []

/-- The escape at a cursor, which stands after the backslash. -/
def readEscape (c : Cursor) : Escape :=
  match c.rest with
  | [] => { value := [], after := c }
  | 'n' :: rest => { value := ['\n'], after := ⟨rest, c.pos + 1⟩ }
  | 't' :: rest => { value := ['\t'], after := ⟨rest, c.pos + 1⟩ }
  | 'r' :: rest => { value := ['\r'], after := ⟨rest, c.pos + 1⟩ }
  | 'b' :: rest => { value := ['\x08'], after := ⟨rest, c.pos + 1⟩ }
  | 'f' :: rest => { value := ['\x0c'], after := ⟨rest, c.pos + 1⟩ }
  | 'v' :: rest => { value := ['\x0b'], after := ⟨rest, c.pos + 1⟩ }
  | '\r' :: '\n' :: rest => { value := [], after := ⟨rest, c.pos + 2⟩ }
  | 'x' :: rest =>
    match hexDigits 2 0 ⟨rest, c.pos + 1⟩ with
    | .ok (n, after) => { value := codePoint n, after := after }
    | .error _ =>
      { value := [], after := ⟨rest, c.pos + 1⟩, fault := some (.badEscape "2 hex characters") }
  | 'u' :: rest =>
    match unicodeEscape ⟨rest, c.pos + 1⟩ with
    | .ok (n, after) => { value := codePoint n, after := after }
    | .error e => { value := [], after := ⟨rest, c.pos + 1⟩, fault := some (.badEscape e.want) }
  | d :: rest =>
    if Text.isLineBreak d then { value := [], after := ⟨rest, c.pos + d.utf8Size⟩ }
    else if '0' ≤ d && d ≤ '7' then
      let run := (rest.take 2).takeWhile (isRadixDigit 8)
      let n := (d :: run).foldl (fun n d => n * 8 + (d.toNat - '0'.toNat)) 0
      let long := run.length == 2 && n > 255
      let size := if long then 1 else run.length
      let n := if long then n / 8 else n
      let more := match rest with
        | e :: _ => Text.isDigit e
        | [] => false
      { value := codePoint n, after := Cursor.drop ⟨rest, c.pos + 1⟩ size
        fault := if d == '0' && !more then none else some .legacyOctal }
    else { value := [d], after := ⟨rest, c.pos + d.utf8Size⟩ }

/-- The rest of a string; `acc` holds its characters so far, the last one first. -/
def stringBody (budget : Nat) (quote : Char) (acc : List Char) (faults : List Fault) (c : Cursor) :
    List Char × List Fault × Cursor × Bool :=
  match budget with
  | 0 => (acc.reverse, faults.reverse, (c.takeWhile fun _ => true).2, false)
  | budget + 1 =>
    match c.rest with
    | [] => (acc.reverse, faults.reverse, c, false)
    | d :: rest =>
      let next : Cursor := ⟨rest, c.pos + d.utf8Size⟩
      if d == quote then (acc.reverse, faults.reverse, next, true)
      else if d == '\n' || d == '\r' then (acc.reverse, faults.reverse, c, false)
      else if d == '\\' then
        let e := readEscape next
        let faults : List Fault := match e.fault with
          | some cause => ⟨cause, c.pos⟩ :: faults
          | none => faults
        stringBody budget quote (e.value.reverse ++ acc) faults e.after
      else stringBody budget quote (d :: acc) faults next

/-- The string at a cursor, which stands at its opening quote. -/
def scanString (budget : Nat) (quote : Char) (c : Cursor) : Scan :=
  let (chars, faults, after, closed) := stringBody budget quote [] [] (c.drop 1)
  let value := String.ofList chars
  { token := .string value (String.ofList (c.rest.take (after.pos - c.pos)))
    after := after
    faults := if closed then faults else faults ++ [⟨.unterminatedString, c.pos⟩] }

/-! ## Signs -/

/-- The signs that start with a character: what follows it and which sign that makes, the longest
one first. -/
def signsFrom (c : Char) : List (String × Punct) :=
  match c with
  | '(' => [("", .lparen)]
  | ')' => [("", .rparen)]
  | '[' => [("", .lbracket)]
  | ']' => [("", .rbracket)]
  | '\x7b' => [("", .lbrace)]
  | '\x7d' => [("", .rbrace)]
  | ';' => [("", .semi)]
  | ',' => [("", .comma)]
  | '.' => [("..", .ellipsis), ("", .dot)]
  | '?' => [("?=", .coalesceEq), ("?", .coalesce), (".", .optionalDot), ("", .question)]
  | ':' => [("", .colon)]
  | '@' => [("", .atSign)]
  | '#' => [("", .hash)]
  | '\x60' => [("", .backquote)]
  | '~' => [("", .tilde)]
  | '!' => [("==", .notEqEq), ("=", .notEq), ("", .bang)]
  | '=' => [(">", .arrow), ("==", .eqEqEq), ("=", .eqEq), ("", .eq)]
  | '+' => [("+", .plusPlus), ("=", .plusEq), ("", .plus)]
  | '-' => [("-", .minusMinus), ("=", .minusEq), ("", .minus)]
  | '*' => [("*=", .powEq), ("*", .pow), ("=", .timesEq), ("", .times)]
  | '/' => [("=", .divEq), ("", .div)]
  | '%' => [("=", .remEq), ("", .rem)]
  | '<' => [("<=", .shiftLeftEq), ("<", .shiftLeft), ("=", .lessEq), ("", .less)]
  | '>' =>
    [(">>=", .shiftRightZeroEq), (">>", .shiftRightZero), (">=", .shiftRightEq),
      (">", .shiftRight), ("=", .greaterEq), ("", .greater)]
  | '|' => [("|=", .logicalOrEq), ("|", .logicalOr), ("=", .orEq), ("", .or)]
  | '&' => [("&=", .logicalAndEq), ("&", .logicalAnd), ("=", .andEq), ("", .and)]
  | '^' => [("=", .xorEq), ("", .xor)]
  | _ => []

/-- The sign at a cursor. In a type, `<` and `>` always stand alone; `?.` before a digit is a
question mark. -/
def sign? (inType : Bool) (c : Char) (rest : List Char) : Option (Punct × Nat) :=
  if inType && c == '<' then some (.less, 0)
  else if inType && c == '>' then some (.greater, 0)
  else match (signsFrom c).find? fun s => Cursor.startsWith s.1 rest with
    | some (more, .optionalDot) =>
      match rest.drop more.length with
      | d :: _ => if Text.isDigit d then some (.question, 0) else some (.optionalDot, 1)
      | [] => some (.optionalDot, 1)
    | some (more, p) => some (p, more.length)
    | none => none

/-- The token at a cursor, which stands where a token starts. -/
def scan (budget : Nat) (inType : Bool) (c : Cursor) : Scan :=
  match c.rest with
  | [] => { token := .eof, after := c }
  | d :: rest =>
    let numeric := Text.isDigit d || (d == '.' && (match rest with
      | e :: _ => Text.isDigit e
      | [] => false))
    if Text.isNameStart d || d == '\\' then scanWord budget c
    else if numeric then scanNumber c
    else if d == '"' || d == '\'' then scanString budget d c
    else match sign? inType d rest with
      | some (p, more) => { token := .punct p, after := c.drop (more + 1) }
      | none =>
        { token := .invalid ⟨.unexpectedCharacter d, c.pos⟩
          after := ⟨rest, c.pos + d.utf8Size⟩ }

/-! ## Regular expressions -/

/-- The body of a regular expression up to its closing slash, or `none` if it has none on its
line. -/
def regexBody (inClass escaped : Bool) : List Char → Nat → Option (List Char × Cursor)
  | [], _ => none
  | d :: rest, pos =>
    let next := pos + d.utf8Size
    if Text.isLineBreak d then none
    else if escaped then (regexBody inClass false rest next).map fun r => (d :: r.1, r.2)
    else if d == '/' && !inClass then some ([], ⟨rest, next⟩)
    else (regexBody ((inClass || d == '[') && d != ']') (d == '\\') rest next).map fun r =>
      (d :: r.1, r.2)

/-- The regular expression at a cursor, which stands at its opening slash. -/
def scanRegex (c : Cursor) : Scan :=
  match c.rest with
  | '/' :: rest =>
    match regexBody false false rest (c.pos + 1) with
    | none => { token := .invalid ⟨.unterminatedRegex, c.pos⟩, after := c }
    | some (body, after) =>
      let (flags, after) := after.takeWhile Text.isNamePart
      { token := .regex (String.ofList body) (String.ofList flags), after := after }
  | _ => { token := .invalid ⟨.unterminatedRegex, c.pos⟩, after := c }

/-! ## Templates -/

/-- A piece of a template: whether an expression follows it, the text after it, and the first bad
escape in it. -/
structure TemplatePiece where
  hole : Bool
  after : Cursor
  fault : Option Fault

/-- The piece of a template at a cursor, or `none` if the template is not closed. -/
def templatePiece (budget : Nat) (fault : Option Fault) (c : Cursor) : Option TemplatePiece :=
  match budget with
  | 0 => none
  | budget + 1 =>
    match c.rest with
    | [] => none
    | '$' :: '\x7b' :: rest => some ⟨true, ⟨rest, c.pos + 2⟩, fault⟩
    | d :: rest =>
      let next : Cursor := ⟨rest, c.pos + d.utf8Size⟩
      if d == '\x60' then some ⟨false, next, fault⟩
      else if d == '\\' then
        let e := readEscape next
        let fault := fault <|> e.fault.map (⟨·, c.pos⟩)
        templatePiece budget fault e.after
      else templatePiece budget fault next

/-! ## Elements -/

/-- The faults of text between tags: a closing sign that should have been written otherwise. -/
def strayFault? (d : Char) (pos : Nat) : Option Fault :=
  if d == '>' then some ⟨.strayInElement "`\x7b'>'\x7d` or `&gt;`", pos⟩
  else if d == '\x7d' then some ⟨.strayInElement "`\x7b'\x7d'\x7d` or `&rbrace;`", pos⟩
  else none

/-- Text between tags up to the next tag or expression, with its faults in order. -/
def elementText : List Char → Nat → List Fault × Cursor
  | [], pos => ([], ⟨[], pos⟩)
  | d :: rest, pos =>
    if d == '<' || d == '\x7b' then ([], ⟨d :: rest, pos⟩)
    else
      let (faults, after) := elementText rest (pos + d.utf8Size)
      ((strayFault? d pos).toList ++ faults, after)

/-- The token between the tags of an element: the start of a tag or expression, or text. -/
def scanElementText (c : Cursor) : Scan :=
  match c.rest with
  | [] => { token := .eof, after := c }
  | '<' :: '/' :: rest => { token := .punct .lessSlash, after := ⟨rest, c.pos + 2⟩ }
  | '<' :: rest => { token := .punct .less, after := ⟨rest, c.pos + 1⟩ }
  | '\x7b' :: rest => { token := .punct .lbrace, after := ⟨rest, c.pos + 1⟩ }
  | cs =>
    let (faults, after) := elementText cs c.pos
    { token := .elementText, after := after, faults := faults }

/-- The value of an attribute at its opening quote: no escapes, and line breaks are allowed. -/
def scanElementString (quote : Char) (c : Cursor) : Scan :=
  let (chars, after) := (c.drop 1).takeWhile (· != quote)
  let value := String.ofList chars
  match after.rest with
  | [] =>
    { token := .string value value, after := after, faults := [⟨.unterminatedString, c.pos⟩] }
  | _ :: rest => { token := .string value value, after := ⟨rest, after.pos + 1⟩ }

/-- The rest of an element name after its first word: hyphens and further words. -/
def elementNameTail (c : Cursor) : List Char × Cursor :=
  c.takeWhile fun d => d == '-' || Text.isNamePart d

end Lexer

end ScriptLint.Syntax
