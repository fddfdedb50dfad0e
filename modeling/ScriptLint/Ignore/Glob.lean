import ScriptLint.Text.Line

/-!
# Patterns for paths

A pattern is read into tokens, and a token tells what can be left of a path after a part that it
matches. Patterns match bytes: a question mark stands for one byte other than a slash.

## Main definitions

* `Glob.Token` — the tokens of a pattern
* `Glob.Error` — why a pattern cannot be read
* `Glob.parse` — the tokens of a pattern
* `Glob.isMatch` — whether tokens match a whole path
-/

namespace ScriptLint.Glob

/-- The tokens of a pattern. -/
inductive Token where
  | literal (c : Char)
  /-- One byte other than a slash. -/
  | any
  /-- Bytes other than slashes. -/
  | star
  /-- Directories at the start of a path, possibly none. -/
  | leading
  /-- Directories in the middle of a path, possibly none, with the slashes around them. -/
  | between
  /-- A slash and everything after it. -/
  | trailing
  /-- One byte of some ranges, or one that is in none of them. -/
  | range (negated : Bool) (ranges : List (Char × Char))
  /-- One of several sequences of tokens. -/
  | either (branches : List (List Token))

/-- Why a pattern cannot be read. -/
inductive Error where
  | invalidRange (first last : Char)
  | unclosedGroup
  | unopenedGroup
  | danglingEscape
  deriving DecidableEq, Repr

/-- The error in words. -/
def Error.message : Error → String
  | invalidRange first last => s!"invalid range; '{first}' > '{last}'"
  | unclosedGroup =>
    "unclosed alternate group; missing '\x7d' (maybe escape '\x7b' with '[\x7b]'?)"
  | unopenedGroup =>
    "unopened alternate group; missing '\x7b' (maybe escape '\x7d' with '[\x7d]'?)"
  | danglingEscape => "dangling '\\'"

/-! ## Reading -/

/-- What has been read of a pattern. -/
structure Draft where
  /-- The tokens of the current sequence, the last one first. -/
  here : List Token
  /-- For every open group its finished sequences and the tokens before it, the last one first. -/
  groups : List (List (List Token) × List Token)
  /-- The last character that was read. -/
  before : Option Char
  /-- Whether brackets stand for themselves, since one of them is not closed. -/
  plainBrackets : Bool

namespace Draft

/-- Nothing yet. -/
def empty : Draft :=
  ⟨[], [], none, false⟩

/-- Adds a token, after which `c` is the last character read. -/
def push (d : Draft) (token : Token) (c : Char) : Draft :=
  { d with here := token :: d.here, before := some c }

/-- Adds two stars, which mean the same as one. -/
def pushStars (d : Draft) : Draft :=
  { d with here := .star :: .star :: d.here, before := some '*' }

/-- Opens a group. -/
def openGroup (d : Draft) : Draft :=
  { d with here := [], groups := ([], d.here) :: d.groups, before := some '\x7b' }

/-- Starts the next sequence of a group; outside of groups a comma stands for itself. -/
def comma (d : Draft) : Draft :=
  match d.groups with
  | [] => d.push (.literal ',') ','
  | (done, outer) :: groups =>
    { d with here := [], groups := (done ++ [d.here.reverse], outer) :: groups, before := some ',' }

/-- Closes a group. -/
def closeGroup (d : Draft) : Except Error Draft :=
  match d.groups with
  | [] => .error .unopenedGroup
  | (done, outer) :: groups =>
    .ok { d with
      here := .either (done ++ [d.here.reverse]) :: outer, groups, before := some '\x7d' }

/-- Replaces the token before two stars, which stand for directories. -/
def deepen (d : Draft) (token : Token) (last : Char) : Draft :=
  match d.here with
  | .leading :: _ | .trailing :: _ => { d with before := some last }
  | _ :: here => { d with here := token :: here, before := some last }
  | [] => { d with here := [token], before := some last }

/-- Reads two stars before `rest`. They stand for directories if slashes or the ends of the pattern
or of a sequence are around them; a slash after them is read, too. -/
def doubleStar (d : Draft) (rest : List Char) : Draft × List Char :=
  if d.here.isEmpty then
    match rest with
    | [] => (d.push .leading '*', [])
    | '/' :: rest => (d.push .leading '/', rest)
    | _ => (d.pushStars, rest)
  else
    let inGroup := !d.groups.isEmpty
    let starts := d.before = some '/' ∨
      (inGroup ∧ (d.before = some ',' ∨ d.before = some '\x7b'))
    if ¬starts then (d.pushStars, rest)
    else
      match rest with
      | [] => (d.deepen .trailing '*', [])
      | '/' :: rest => (d.deepen .between '/', rest)
      | c :: _ =>
        if inGroup ∧ (c = ',' ∨ c = '\x7d') then (d.deepen .trailing '*', rest)
        else (d.pushStars, rest)

end Draft

/-- Adds a range, or the end of one that is open. -/
def addRange (c : Char) (isOpen : Bool) (ranges : List (Char × Char)) :
    Except Error (List (Char × Char)) :=
  match isOpen, ranges.getLast? with
  | true, some (first, _) =>
    if c < first then .error (.invalidRange first c)
    else .ok (ranges.dropLast ++ [(first, c)])
  | _, _ => .ok (ranges ++ [(c, c)])

/-- Reads ranges up to the bracket that closes them; none if it is missing. -/
def readRanges (isFirst isOpen : Bool) (ranges : List (Char × Char)) :
    List Char → Except Error (Option (List (Char × Char) × List Char))
  | [] => .ok none
  | c :: rest =>
    if c = ']' ∧ ¬isFirst then
      .ok (some (if isOpen then ranges ++ [('-', '-')] else ranges, rest))
    else if c = '-' ∧ ¬isFirst ∧ ¬isOpen then readRanges false true ranges rest
    else do readRanges false false (← addRange c isOpen ranges) rest

/-- Reads what follows an opening bracket. A bracket that is not closed stands for itself, and so do
all after it. -/
def readBrackets (d : Draft) (text : List Char) : Except Error (Draft × List Char) := do
  let (negated, inside) := match text with
    | '!' :: rest | '^' :: rest => (true, rest)
    | _ => (false, text)
  match ← readRanges true false [] inside with
  | some (ranges, rest) => return (d.push (.range negated ranges) ']', rest)
  | none => return ({ d.push (.literal '[') '[' with plainBrackets := true }, text)

/-- Reads the rest of a pattern. -/
def parseFrom (d : Draft) : Nat → List Char → Except Error Draft
  | 0, _ => .ok d
  | _ + 1, [] => .ok d
  | fuel + 1, c :: rest =>
    if c = '?' then parseFrom (d.push .any c) fuel rest
    else if c = '*' then
      match rest with
      | '*' :: rest =>
        let (d, rest) := d.doubleStar rest
        parseFrom d fuel rest
      | _ => parseFrom (d.push .star c) fuel rest
    else if c = '[' ∧ ¬d.plainBrackets then do
      let (d, rest) ← readBrackets d rest
      parseFrom d fuel rest
    else if c = '\x7b' then parseFrom d.openGroup fuel rest
    else if c = '\x7d' then do parseFrom (← d.closeGroup) fuel rest
    else if c = ',' then parseFrom d.comma fuel rest
    else if c = '\\' then
      match rest with
      | [] => .error .danglingEscape
      | c :: rest => parseFrom (d.push (.literal c) c) fuel rest
    else parseFrom (d.push (.literal c) c) fuel rest

/-- The tokens of a pattern. -/
def parse (pattern : List Char) : Except Error (List Token) := do
  let d ← parseFrom .empty pattern.length pattern
  if d.groups.isEmpty then return d.here.reverse else throw .unclosedGroup

/-! ## Matching -/

/-- The bytes of a text. -/
def bytes (text : List Char) : List UInt8 :=
  text.flatMap String.utf8EncodeChar

/-- The byte of a slash. -/
def slash : UInt8 := 47

/-- What is left of a path that starts with given bytes. -/
def dropBytes : List UInt8 → List UInt8 → List (List UInt8)
  | [], text => [text]
  | _ :: _, [] => []
  | b :: bs, c :: text => if b = c then dropBytes bs text else []

/-- A path and all that is left of it after bytes other than slashes. -/
def afterStar : List UInt8 → List (List UInt8)
  | [] => [[]]
  | b :: rest => (b :: rest) :: if b = slash then [] else afterStar rest

/-- All that is left of a path after a slash. -/
def afterSlashes : List UInt8 → List (List UInt8)
  | [] => []
  | b :: rest => if b = slash then rest :: afterSlashes rest else afterSlashes rest

/-- A path and all that is left of it after any bytes. -/
def tails : List UInt8 → List (List UInt8)
  | [] => [[]]
  | b :: rest => (b :: rest) :: tails rest

/-- The ranges of bytes that a range of characters stands for. -/
def byteRanges (first last : Char) : List (UInt8 × UInt8) :=
  let single := fun (b : UInt8) => (b, b)
  let start := String.utf8EncodeChar first
  let stop := String.utf8EncodeChar last
  if first = last then start.map single
  else
    start.dropLast.map single ++ [(start.getLast?.getD 0, stop.head?.getD 0)] ++
      stop.tail.map single

/-- Whether a byte is in one of some ranges of characters. -/
def inRanges (ranges : List (Char × Char)) (b : UInt8) : Bool :=
  (ranges.flatMap fun (first, last) => byteRanges first last).any fun (x, y) => x ≤ b && b ≤ y

mutual

/-- All that can be left of a path after a part that a token matches. -/
def Token.rests : Token → List UInt8 → List (List UInt8)
  | .literal c, text => dropBytes (String.utf8EncodeChar c) text
  | .any, text =>
    match text with
    | b :: rest => if b = slash then [] else [rest]
    | [] => []
  | .star, text => afterStar text
  | .leading, text => text :: afterSlashes text
  | .between, text => if text.head? = some slash then afterSlashes text else []
  | .trailing, text => if text.head? = some slash then tails text.tail else []
  | .range negated ranges, text =>
    match text with
    | b :: rest => if inRanges ranges b != negated then [rest] else []
    | [] => []
  | .either branches, text =>
    if branches.all List.isEmpty then [text] else branchRests branches text

/-- All that can be left of a path after a part that a sequence of tokens matches. -/
def restsAll : List Token → List UInt8 → List (List UInt8)
  | [], text => [text]
  | token :: more, text => (token.rests text).flatMap (restsAll more)

/-- All that can be left of a path after a part that one of several sequences matches. Empty
sequences do not count beside others. -/
def branchRests : List (List Token) → List UInt8 → List (List UInt8)
  | [], _ => []
  | [] :: more, text => branchRests more text
  | (token :: tokens) :: more, text =>
    (token.rests text).flatMap (restsAll tokens) ++ branchRests more text

end

/-- Whether tokens match a whole path. Two stars alone match every path. -/
def isMatch (tokens : List Token) (path : List Char) : Bool :=
  match tokens with
  | [.leading] => true
  | _ => (restsAll tokens (bytes path)).contains []

end ScriptLint.Glob
