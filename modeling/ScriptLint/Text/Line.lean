import ScriptLint.Text.CharClass

/-!
# Lines of a text

A line ends at a line feed; a carriage return directly before it belongs to the end of the line. A
line feed at the end of a text ends its last line and starts no new one.

## Main definitions

* `lines` — the lines of a text
* `splitOn` — the pieces between the occurrences of a character
* `trim` — a text without the blanks around it
* `joined` — several texts with a separator between them
* `excerpt` — some lines of a text, for showing
* `byteSize` — the number of bytes of a text
-/

namespace ScriptLint.Text

/-- The lines of a text, without their ends. -/
def lines : List Char → List (List Char)
  | [] => []
  | '\n' :: rest => [] :: lines rest
  | '\r' :: '\n' :: rest => [] :: lines rest
  | c :: rest =>
    match lines rest with
    | [] => [[c]]
    | line :: more => (c :: line) :: more

/-- The pieces of a text between the occurrences of `sep`; always one more than there are
occurrences. -/
def splitOn (sep : Char) : List Char → List (List Char)
  | [] => [[]]
  | c :: rest =>
    if c = sep then [] :: splitOn sep rest
    else match splitOn sep rest with
      | [] => [[c]]
      | piece :: more => (c :: piece) :: more

/-- A text without the blanks before it. -/
def trimStart (text : List Char) : List Char :=
  text.dropWhile isBlank

/-- A text without the blanks after it. -/
def trimEnd (text : List Char) : List Char :=
  (text.reverse.dropWhile isBlank).reverse

/-- A text without the blanks around it. -/
def trim (text : List Char) : List Char :=
  trimEnd (trimStart text)

/-- Several texts with a separator between them. -/
def joined (sep : List Char) : List (List Char) → List Char
  | [] => []
  | [text] => text
  | text :: more => text ++ sep ++ joined sep more

/-- At most `count` lines of a text from line `first` on, counted from 1, without the blanks around
them; none if nothing is left. -/
def excerpt (text : List Char) (first count : Nat) : Option (List Char) :=
  if first = 0 then none
  else
    let shown := trim (joined ['\n'] (((lines text).drop (first - 1)).take count))
    if shown.isEmpty then none else some shown

/-- The number of bytes that a text takes. -/
def byteSize (text : List Char) : Nat :=
  text.foldl (fun n c => n + c.utf8Size) 0

@[simp] theorem byteSize_nil : byteSize [] = 0 :=
  rfl

theorem foldl_add_utf8Size (text : List Char) (n : Nat) :
    text.foldl (fun n c => n + c.utf8Size) n = n + byteSize text := by
  induction text generalizing n with
  | nil => rfl
  | cons c rest ih => rw [byteSize, List.foldl_cons, List.foldl_cons, ih, ih]; omega

@[simp] theorem byteSize_cons (c : Char) (rest : List Char) :
    byteSize (c :: rest) = c.utf8Size + byteSize rest := by
  rw [byteSize, List.foldl_cons, foldl_add_utf8Size]
  omega

@[simp] theorem byteSize_append (s t : List Char) :
    byteSize (s ++ t) = byteSize s + byteSize t := by
  rw [byteSize, List.foldl_append, foldl_add_utf8Size]
  rfl

theorem byteSize_pos {text : List Char} (h : text ≠ []) : 0 < byteSize text := by
  cases text with
  | nil => exact absurd rfl h
  | cons c rest =>
    have := c.utf8Size_pos
    rw [byteSize_cons]
    omega

end ScriptLint.Text
