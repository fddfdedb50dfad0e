import ScriptLint.Text.Line

/-!
# Words in a text

A text stands *as a word* in a line if a word character and another character (or an end of the
line) meet at both of its ends. So a name that starts with a dollar sign stands as a word only after
a word character.

## Main definitions

* `occursAsWord` — a text stands as a word somewhere in a line
* `countWords` — how often one of several words stands in a line
* `countFound` — how many of several words a search of a line finds one after the other
* `appearsOnOtherLine` — a name stands as a word on a line other than a given one
-/

namespace ScriptLint.Text

/-- Whether the characters before and after a place differ in being word characters. -/
def isBoundary (before after : Option Char) : Bool :=
  before.any isWordChar != after.any isWordChar

/-- What follows `word` if the text starts with it. -/
def dropLead? : List Char → List Char → Option (List Char)
  | [], text => some text
  | _ :: _, [] => none
  | w :: word, c :: text => if w = c then dropLead? word text else none

theorem dropLead?_eq_some_iff {word text rest : List Char} :
    dropLead? word text = some rest ↔ text = word ++ rest := by
  fun_induction dropLead? word text with
  | case1 text => simp
  | case2 w word => simp
  | case3 word c text ih => simpa using ih
  | case4 w word c text hne => simp [Ne.symm hne]

/-- Whether `word` stands as a word at the start of `text`, which follows `before`. -/
def isWordAt (word : List Char) (before : Option Char) (text : List Char) : Bool :=
  match dropLead? word text with
  | none => false
  | some rest =>
    let last := match word.getLast? with
      | some c => some c
      | none => before
    isBoundary before text.head? && isBoundary last rest.head?

/-- Whether `word` stands as a word anywhere in `text`, which follows `before`. -/
def occursFrom (word : List Char) (before : Option Char) : List Char → Bool
  | [] => isWordAt word before []
  | c :: rest => isWordAt word before (c :: rest) || occursFrom word (some c) rest

/-- Whether `word` stands as a word anywhere in a line. -/
def occursAsWord (word line : List Char) : Bool :=
  occursFrom word none line

/-- The number of places of `text`, which follows `before`, where one of the words stands. -/
def countFrom (words : List (List Char)) (before : Option Char) : List Char → Nat
  | [] => 0
  | c :: rest =>
    (if words.any fun w => isWordAt w before (c :: rest) then 1 else 0) +
      countFrom words (some c) rest

/-- The number of places of a line where one of the words stands. -/
def countWords (words : List (List Char)) (line : List Char) : Nat :=
  countFrom words none line

/-- The number of words that a search of `text`, which follows `before`, finds one after the other.
Behind a word that is found, the search goes on at its end; `inside` counts the characters up to
there. -/
def searchFrom (words : List (List Char)) (before : Option Char) : (inside : Nat) → List Char → Nat
  | _, [] => 0
  | inside + 1, c :: rest => searchFrom words (some c) inside rest
  | 0, c :: rest =>
    match words.find? fun w => isWordAt w before (c :: rest) with
    | some w => 1 + searchFrom words (some c) (w.length - 1) rest
    | none => searchFrom words (some c) 0 rest

/-- The number of words that a search of a line finds one after the other. -/
def countFound (words : List (List Char)) (line : List Char) : Nat :=
  searchFrom words none 0 line

/-- Whether a name stands as a word on a line whose number, counted from 1, is not `skip`. A name may
be too long to build a search pattern from, and is then found nowhere: that limit is left out. -/
def appearsOnOtherLine (text name : List Char) (skip : Nat) : Bool :=
  ((lines text).zipIdx 1).any fun (line, number) => number != skip && occursAsWord name line

end ScriptLint.Text
