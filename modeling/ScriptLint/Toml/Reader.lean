import ScriptLint.Toml.Document
import ScriptLint.Toml.Number

/-!
# Reading TOML documents

## Main definitions

* `Toml.readKey` — a key with its parts
* `Toml.readValue` — a value
* `Toml.parse` — a document
-/

namespace ScriptLint.Toml

/-! ## Keys -/

/-- Characters of keys without quotes. -/
def isBare (c : Char) : Bool :=
  isDigit c || ('a' ≤ c && c ≤ 'z') || ('A' ≤ c && c ≤ 'Z') || c == '-' || c == '_'

/-- Reads the name of one part of a key. -/
def readName : List Char → Reading String
  | '"' :: rest => asText (readQuoted rest)
  | '\'' :: rest => asText (readLiteral rest)
  | text =>
    let name := text.takeWhile isBare
    if name.isEmpty then .error (.soft {}) else .ok (String.ofList name, text.dropWhile isBare)

/-- Reads one part of a key with the blanks around it. -/
def readPart (text : List Char) : Reading Key :=
  let text := skipBlanks text
  (readName text).map fun (name, rest) =>
    (⟨name, String.ofList (text.take (text.length - rest.length))⟩, skipBlanks rest)

/-- Reads the parts of a key after the first one. -/
def readMoreParts : Nat → List Char → Reading (List Key)
  | fuel + 1, '.' :: rest =>
    match readPart rest with
    | .ok (key, after) => (readMoreParts fuel after).map fun (more, rest) => (key :: more, rest)
    | .error f => if f.final then .error f else .ok ([], '.' :: rest)
  | _, text => .ok ([], text)

/-- How many levels deep keys and values can be. -/
def depthLimit : Nat := 80

/-- Reads a key. -/
def readKey (text : List Char) : Reading (List Key × Key) :=
  let parts := inside "key" <| (readPart text).bind fun (key, rest) =>
    (readMoreParts rest.length rest).map fun (more, rest) => (key :: more, rest)
  parts.bind fun (keys, rest) =>
    if keys.length ≥ depthLimit then .error (.soft { cause := some .tooDeep })
    else
      match keys.getLast? with
      | some last => .ok ((keys.dropLast, last), rest)
      | none => .error (.soft {})

/-- Reads the sign between a key and its value. -/
def readEquals (text : List Char) : Reading Unit :=
  committed (expecting ["`.`", "`=`"] (readChar '=' text))

/-! ## Values -/

/-- The fault of something that starts no value. -/
def noValue : Failure :=
  .soft { construct := "string", expected := ["`\"`", "`'`"] }

/-- Reads a value that is written as a word. -/
def readWord (word : String) (v : Value) (text : List Char) : Reading Value :=
  match afterWord? word.toList text with
  | some rest => .ok (v, rest)
  | none => .error noValue

/-- The end of a construct. -/
def readClose (c : Char) (construct : String) (text : List Char) : Reading Unit :=
  match text with
  | d :: rest =>
    if c = d then .ok ((), rest)
    else .error (.hard { construct, expected := ["`" ++ c.toString ++ "`"] })
  | [] => .error (.hard { construct, expected := ["`" ++ c.toString ++ "`"] })

mutual

/-- Reads a value; `depth` tells how many levels more it can have. -/
def readValue (depth fuel : Nat) (text : List Char) : Reading Value :=
  match fuel with
  | 0 => .error (.hard { cause := some .tooDeep })
  | fuel + 1 =>
    match text with
    | [] => .error (.soft {})
    | '[' :: rest =>
      match depth with
      | 0 => .error (.hard { cause := some .tooDeep })
      | depth + 1 =>
        (committed (readItems depth fuel true rest)).bind fun (items, rest) =>
          (readClose ']' "array" rest).map fun (_, rest) => (.list items, rest)
    | '\x7b' :: rest =>
      match depth with
      | 0 => .error (.hard { cause := some .tooDeep })
      | depth + 1 =>
        (committed (readPairs depth fuel true rest)).bind fun (pairs, rest) =>
          match inlineTable pairs with
          | .error cause => .error (.hard { cause := some cause })
          | .ok v =>
            (readClose '\x7d' "inline table" (skipBlanks rest)).map fun (_, rest) => (v, rest)
    | c :: _ =>
      if c == '"' || c == '\'' then (readText text).map fun (s, rest) => (.text s, rest)
      else if isDigit c || c == '+' || c == '-' then readNumber text
      else if c == '_' then expecting ["leading digit"] (readInteger text)
      else if c == '.' then expecting ["leading digit"] (readReal text)
      else if c == 't' then readWord "true" (.bool true) text
      else if c == 'f' then readWord "false" (.bool false) text
      else if c == 'i' then readWord "inf" (.real (.infinite false)) text
      else if c == 'n' then readWord "nan" (.real (.nan false)) text
      else .error noValue

/-- Reads the elements of a list, up to what is none; the first one stands after no comma. -/
def readItems (depth fuel : Nat) (first : Bool) (text : List Char) : Reading (List Value) :=
  match fuel with
  | 0 => .error (.hard { cause := some .tooDeep })
  | fuel + 1 =>
    let start := if first then some text else match text with
      | ',' :: rest => some rest
      | _ => none
    match start with
    | none => .ok ([], skipLines text.length text)
    | some start =>
      match readValue depth fuel (skipLines start.length start) with
      | .ok (v, rest) =>
        (readItems depth fuel false (skipLines rest.length rest)).map fun (more, rest) =>
          (v :: more, rest)
      | .error f => if f.final then .error f else .ok ([], skipLines start.length start)

/-- Reads the entries of an inline table, up to what is none; the first one stands after no comma. -/
def readPairs (depth fuel : Nat) (first : Bool) (text : List Char) :
    Reading (List (List Key × Key × Value)) :=
  match fuel with
  | 0 => .error (.hard { cause := some .tooDeep })
  | fuel + 1 =>
    let start := if first then some text else match text with
      | ',' :: rest => some rest
      | _ => none
    match start with
    | none => .ok ([], text)
    | some start =>
      match readKey start with
      | .error f => if f.final then .error f else .ok ([], text)
      | .ok ((path, key), rest) =>
        (readEquals rest).bind fun (_, rest) =>
        (committed (readValue depth fuel (skipBlanks rest))).bind fun (v, rest) =>
        (readPairs depth fuel false (skipBlanks rest)).map fun (more, rest) =>
          ((path, key, v) :: more, rest)

end

/-! ## Documents -/

/-- Reads the rest of a line after an entry or header. -/
def readRestOfLine (text : List Char) : Reading Unit :=
  match afterRestOfLine? text with
  | some rest => .ok ((), rest)
  | none => .error (.hard { expected := ["newline", "`#`"] })

/-- A step of the builder as a reading. -/
def step (b : Except Cause Builder) (rest : List Char) : Reading Builder :=
  match b with
  | .ok b => .ok (b, rest)
  | .error cause => .error (.hard { cause := some cause })

/-- Reads an entry. -/
def readEntry (b : Builder) (text : List Char) : Reading Builder :=
  committed <|
    (readKey text).bind fun ((path, key), rest) =>
    (readEquals rest).bind fun (_, rest) =>
    let rest := skipBlanks rest
    (readValue (depthLimit - 1) (2 * rest.length + 2) rest).bind fun (v, rest) =>
    (readRestOfLine rest).bind fun (_, rest) => step (b.addEntry path key v) rest

/-- Reads the brackets that end a header. -/
def readHeaderEnd (brackets : String) (text : List Char) : Reading Unit :=
  match afterWord? brackets.toList text with
  | some rest => .ok ((), rest)
  | none => .error (.hard { expected := ["`.`", "`" ++ brackets ++ "`"] })

/-- Reads a header. -/
def readHeader (b : Builder) (text : List Char) : Reading Builder :=
  committed <| inside "table header" <|
    match text with
    | '[' :: '[' :: rest =>
      (readKey rest).bind fun ((path, key), rest) =>
      (readHeaderEnd "]]" rest).bind fun (_, rest) =>
      (readRestOfLine rest).bind fun (_, rest) => step (b.openElement (path ++ [key])) rest
    | '[' :: c :: rest =>
      (readKey (c :: rest)).bind fun ((path, key), rest) =>
      (readHeaderEnd "]" rest).bind fun (_, rest) =>
      (readRestOfLine rest).bind fun (_, rest) => step (b.openTable (path ++ [key])) rest
    | _ => .error (.soft {})

/-- Reads the lines of a document. -/
def readLines (b : Builder) : Nat → List Char → Except Fault Builder
  | 0, _ => .error {}
  | fuel + 1, text =>
    let text := skipBlanks text
    let next : Option (Reading Builder) := match text with
      | [] => none
      | '#' :: _ =>
        match afterLine? (afterComment text) with
        | some rest => some (.ok (b, rest))
        | none => some (.error (.hard {}))
      | '[' :: _ => some (readHeader b text)
      | c :: _ =>
        match afterNewline? text with
        | some rest => some (.ok (b, rest))
        | none => some (if c == '\r' then .error (.hard {}) else readEntry b text)
    match next with
    | none => .ok b
    | some (.ok (b, rest)) => readLines b fuel rest
    | some (.error f) => .error f.fault

/-- The entries of a document. A mark of the byte order at its start does not count. -/
def parse (text : List Char) : Except Fault (List (String × Value)) := do
  let text := match text with
    | c :: rest => if c.toNat == 0xfeff then rest else text
    | [] => []
  let b ← readLines .empty (text.length + 1) text
  b.finish.mapError fun cause => { cause := some cause }

end ScriptLint.Toml
