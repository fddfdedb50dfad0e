import ScriptLint.Text.NameTable
import ScriptLint.Text.WidthTable

/-!
# Classes of characters

The character classes that reading source text, matching words and measuring columns depend on.
ASCII characters are decided directly, the others by the tables of Unicode ranges.

## Main definitions

* `isBlank` — white space in the sense of the Unicode property `White_Space`
* `isLineBreak` — the four line terminators of a script
* `isNameStart`, `isNamePart` — characters of identifiers
* `isWordChar` — characters that words consist of
* `isWordPart` — characters of identifiers and of words
* `displayWidth` — the number of columns a character takes
-/

namespace ScriptLint.Text

/-- Whether the code point `n` lies in one of the ranges. -/
def inRanges (ranges : List (Nat × Nat)) (n : Nat) : Bool :=
  ranges.any fun r => r.1 ≤ n && n ≤ r.2

/-- Whether the code point `n` lies in one of the ranges of a table. -/
def inTable (table : List (List (Nat × Nat))) (n : Nat) : Bool :=
  table.any fun ranges => inRanges ranges n

/-- White space: the characters with the Unicode property `White_Space`. -/
def isBlank (c : Char) : Bool :=
  let n := c.toNat
  if n < 0x80 then n == 0x20 || (9 ≤ n && n ≤ 13)
  else n == 0x85 || n == 0xa0 || n == 0x1680 || (0x2000 ≤ n && n ≤ 0x200a) || n == 0x2028 ||
    n == 0x2029 || n == 0x202f || n == 0x205f || n == 0x3000

/-- The line terminators of a script. -/
def isLineBreak (c : Char) : Bool :=
  c == '\n' || c == '\r' || c.toNat == 0x2028 || c.toNat == 0x2029

/-- Characters between tokens that are no line terminator: blanks and the byte-order mark. The
next-line character `U+0085` is not among them. -/
def isGap (c : Char) : Bool :=
  if c.toNat < 0x80 then c == ' ' || c == '\t' || c == '\x0b' || c == '\x0c'
  else c.toNat == 0xfeff || (isBlank c && !isLineBreak c && c.toNat != 0x85)

/-- An ASCII letter. -/
def isLetter (c : Char) : Bool :=
  ('a' ≤ c && c ≤ 'z') || ('A' ≤ c && c ≤ 'Z')

/-- A decimal digit. -/
def isDigit (c : Char) : Bool :=
  '0' ≤ c && c ≤ '9'

/-- Characters that may start an identifier. -/
def isNameStart (c : Char) : Bool :=
  if c.toNat < 0x80 then isLetter c || c == '$' || c == '_'
  else inTable NameTable.starts c.toNat

/-- Characters that may stand in an identifier after its first one. -/
def isNamePart (c : Char) : Bool :=
  if c.toNat < 0x80 then isLetter c || isDigit c || c == '$' || c == '_'
  else inTable NameTable.starts c.toNat || inTable NameTable.continues c.toNat

/-- Marks and enclosed letters that belong to words although no identifier may hold them. -/
def wordOnly : List (Nat × Nat) :=
  [(0x488, 0x489), (0x1abe, 0x1abe), (0x20dd, 0x20e0), (0x20e2, 0x20e4), (0x24b6, 0x24e9),
    (0x2e2f, 0x2e2f), (0xa670, 0xa672), (0x1f130, 0x1f149), (0x1f150, 0x1f169),
    (0x1f170, 0x1f189)]

/-- Characters of identifiers that are neither letters, marks, digits nor connectors. -/
def nameOnly : List (Nat × Nat) :=
  [(0xb7, 0xb7), (0x387, 0x387), (0x1369, 0x1371), (0x19da, 0x19da), (0x2118, 0x2118),
    (0x212e, 0x212e), (0x309b, 0x309c), (0x30fb, 0x30fb), (0xff65, 0xff65)]

/-- Characters of words: alphabetic characters, marks, decimal digits, connector punctuation and
join controls. The dollar sign is not one of them. -/
def isWordChar (c : Char) : Bool :=
  if c.toNat < 0x80 then isLetter c || isDigit c || c == '_'
  else inRanges wordOnly c.toNat || (isNamePart c && !inRanges nameOnly c.toNat)

/-- Characters of identifiers and of words. -/
def isWordPart (c : Char) : Bool :=
  isNamePart c || isWordChar c

/-! ## Characters of names -/

theorem isNamePart_of_isNameStart {c : Char} (h : isNameStart c = true) : isNamePart c = true := by
  rw [isNameStart] at h
  rw [isNamePart]
  split at h <;> grind

theorem inTable_eq_false {table : List (List (Nat × Nat))} {low high n : Nat}
    (h : table.all (·.all fun r => r.2 < low || high < r.1) = true) (hlow : low ≤ n)
    (hhigh : n ≤ high) : inTable table n = false := by
  simp only [inTable, inRanges, List.any_eq_false]
  intro ranges hranges
  have hall := List.all_eq_true.mp (List.all_eq_true.mp h ranges hranges)
  simp only [List.any_eq_true, not_exists]
  rintro r ⟨hr, hin⟩
  have := hall r hr
  simp only [Bool.or_eq_true, Bool.and_eq_true, decide_eq_true_eq] at this hin
  omega

/-- The ranges of blanks outside of ASCII, and the byte-order mark. -/
def blankRanges : List (Nat × Nat) :=
  [(0x85, 0x85), (0xa0, 0xa0), (0x1680, 0x1680), (0x2000, 0x200a), (0x2028, 0x2029),
    (0x202f, 0x202f), (0x205f, 0x205f), (0x3000, 0x3000), (0xfeff, 0xfeff)]

/-- No character of a name or word lies in one of the ranges. -/
theorem isWordPart_eq_false {c : Char} {r : Nat × Nat} (hr : r ∈ blankRanges)
    (hlow : r.1 ≤ c.toNat) (hhigh : c.toNat ≤ r.2) : isWordPart c = false := by
  have htables : ∀ r ∈ blankRanges, 0x80 ≤ r.1 ∧
      ∀ table ∈ [NameTable.starts, NameTable.continues, [wordOnly]],
        table.all (·.all fun r' => r'.2 < r.1 || r.2 < r'.1) = true := by
    decide +kernel
  obtain ⟨hascii, htables⟩ := htables r hr
  have hstarts := inTable_eq_false (htables NameTable.starts (by simp)) hlow hhigh
  have hcontinues := inTable_eq_false (htables NameTable.continues (by simp)) hlow hhigh
  have hword := inTable_eq_false (htables [wordOnly] (by simp)) hlow hhigh
  rw [inTable, List.any_cons, List.any_nil, Bool.or_false] at hword
  have hname : isNamePart c = false := by
    rw [isNamePart, if_neg (by omega), hstarts, hcontinues]
    rfl
  rw [isWordPart, isWordChar, if_neg (by omega), hname, hword]
  rfl

theorem isNamePart_of_isWordPart {c : Char} (h : isWordPart c = false) : isNamePart c = false :=
  (Bool.or_eq_false_iff.mp h).1

theorem isWordChar_of_isWordPart {c : Char} (h : isWordPart c = false) : isWordChar c = false :=
  (Bool.or_eq_false_iff.mp h).2

/-- Blanks are neither in names nor in words. -/
theorem isWordPart_of_isBlank {c : Char} (h : isBlank c = true) : isWordPart c = false := by
  by_cases hascii : c.toNat < 0x80
  · simp only [isBlank, hascii, if_true, Bool.or_eq_true, Bool.and_eq_true, beq_iff_eq,
      decide_eq_true_eq] at h
    have hcases : c.toNat = 9 ∨ c.toNat = 10 ∨ c.toNat = 11 ∨ c.toNat = 12 ∨ c.toNat = 13 ∨
        c.toNat = 32 := by omega
    rw [← Char.ofNat_toNat c]
    rcases hcases with h | h | h | h | h | h <;> rw [h] <;> rfl
  · simp only [isBlank, hascii, if_false] at h
    obtain ⟨r, hr, hlow, hhigh⟩ : ∃ r ∈ blankRanges, r.1 ≤ c.toNat ∧ c.toNat ≤ r.2 := by
      simp only [Bool.or_eq_true, Bool.and_eq_true, beq_iff_eq, decide_eq_true_eq] at h
      simp only [blankRanges, List.mem_cons, List.not_mem_nil, or_false, exists_eq_or_imp,
        exists_eq_left]
      omega
    exact isWordPart_eq_false hr hlow hhigh

/-- The characters of names are no blanks. -/
theorem solid_of_isNamePart {c : Char} (h : isNamePart c = true) : isBlank c = false := by
  refine Bool.eq_false_iff.mpr fun hblank => ?_
  rw [isNamePart_of_isWordPart (isWordPart_of_isBlank hblank)] at h
  cases h

/-- Line terminators are neither in names nor in words. -/
theorem isWordPart_of_isLineBreak {c : Char} (h : isLineBreak c = true) : isWordPart c = false := by
  refine isWordPart_of_isBlank ?_
  simp only [isLineBreak, Bool.or_eq_true, beq_iff_eq] at h
  obtain ((rfl | rfl) | h) | h := h
  · rfl
  · rfl
  · simp [isBlank, h]
  · simp [isBlank, h]

/-- What stands between tokens is neither in names nor in words. -/
theorem isWordPart_of_isGap {c : Char} (h : isGap c = true) : isWordPart c = false := by
  rw [isGap] at h
  split at h
  · simp only [Bool.or_eq_true, beq_iff_eq] at h
    obtain ((rfl | rfl) | rfl) | rfl := h <;> rfl
  · simp only [Bool.or_eq_true, Bool.and_eq_true, beq_iff_eq] at h
    obtain h | ⟨⟨h, -⟩, -⟩ := h
    · exact isWordPart_eq_false (r := (0xfeff, 0xfeff)) (by decide) (by simp [h]) (by simp [h])
    · exact isWordPart_of_isBlank h

/-! ## Width -/

/-- The number of columns a character takes on its line: a tab takes four, other control
characters none. -/
def displayWidth (c : Char) : Nat :=
  let n := c.toNat
  if c == '\t' then 4
  else if c == '\n' || c == '\r' then 1
  else if n < 0x20 || (0x7f ≤ n && n < 0xa0) then 0
  else if n < 0x80 then 1
  else if inTable WidthTable.zero n then 0
  else if inTable WidthTable.wide n then 2
  else 1

end ScriptLint.Text
