import ScriptLint.Number.Binary64

/-!
# The shortest decimal text of a number

Of all decimal numbers that round to a given floating-point number, those with the fewest digits are
found by trying one digit, two digits and so on; 17 are always enough. Of two with the same number
of digits the nearer one is taken. Where the point goes is a decision of each format.

## Main definitions

* `Shortest` — digits and an exponent
* `Binary64.shortest` — the shortest decimal that reads back
* `Layout` — where a format puts the point
* `Binary64.written` — the text of a number
-/

namespace ScriptLint.Number

/-- A decimal number: `digits` times `10 ^ exponent`. -/
structure Shortest where
  digits : Nat
  exponent : Int
  deriving DecidableEq, Repr

namespace Binary64

/-- The fraction `num / den` in units of `10 ^ e`, as another fraction. -/
def inDecimalUnits (num den : Nat) (e : Int) : Nat × Nat :=
  if e < 0 then (num * Nat.pow 10 e.natAbs, den) else (num, den * Nat.pow 10 e.natAbs)

/-- Whether `digits * 10 ^ e` rounds to the number with this mantissa and exponent. -/
def readsBack (m : Nat) (exponent : Int) (digits : Nat) (e : Int) : Bool :=
  ofDecimal false digits e = finite false m exponent

/-- The multiple of `10 ^ e` that reads back and is nearest to the number, if one does. -/
def onGrid? (m : Nat) (exponent e : Int) : Option Shortest :=
  let (num, den) := fraction m exponent
  let (n, d) := inDecimalUnits num den e
  let low := n / d
  let high := low + 1
  let lowFits := low ≠ 0 && readsBack m exponent low e
  let highFits := readsBack m exponent high e
  let nearer := roundDiv n d
  if lowFits && highFits then some ⟨nearer, e⟩
  else if lowFits then some ⟨low, e⟩
  else if highFits then some ⟨high, e⟩
  else none

/-- Tries `count` grids, each ten times finer than the one before it. -/
def onGrids? (m : Nat) (exponent e : Int) : Nat → Option Shortest
  | 0 => none
  | count + 1 =>
    match onGrid? m exponent e with
    | some s => some s
    | none => onGrids? m exponent (e - 1) count

/-- Moves zeros at the end of the digits into the exponent. -/
def stripZeros (s : Shortest) : Nat → Shortest
  | 0 => s
  | fuel + 1 =>
    if s.digits ≠ 0 ∧ s.digits % 10 = 0 then stripZeros ⟨s.digits / 10, s.exponent + 1⟩ fuel else s

/-- The exponent of the first decimal digit, or one more. -/
def leadExponent (m : Nat) (exponent : Int) : Int :=
  let (num, den) := fraction m exponent
  if num ≥ den then (Nat.toDigits 10 (num / den)).length
  else 1 - ((Nat.toDigits 10 (den / num)).length : Int)

/-- The shortest decimal that reads back as a finite number, nearest to it. -/
def shortest (m : Nat) (exponent : Int) : Shortest :=
  if m = 0 then ⟨0, 0⟩
  else
    let lead := leadExponent m exponent
    stripZeros ((onGrids? m exponent lead 20).getD ⟨m, exponent⟩) 20

end Binary64

/-- Where a format puts the point: numbers whose first digit has an exponent between `low` and `high`
are written without exponent. -/
structure Layout where
  low : Int
  high : Int
  /-- What stands before an exponent that is not negative. -/
  plus : String
  deriving DecidableEq, Repr

namespace Layout

/-- Digits with a point, where the first digit has the exponent `lead`. -/
def positional (digits : List Char) (lead : Int) : List Char :=
  if lead < 0 then '0' :: '.' :: (List.replicate (lead.natAbs - 1) '0' ++ digits)
  else
    let whole := lead.natAbs + 1
    if digits.length ≤ whole then
      digits ++ List.replicate (whole - digits.length) '0' ++ ['.', '0']
    else digits.take whole ++ '.' :: digits.drop whole

/-- Digits with an exponent. -/
def scientific (plus : String) (digits : List Char) (lead : Int) : List Char :=
  let mark := if lead < 0 then ['e', '-'] else 'e' :: plus.toList
  let point := match digits with
    | [] => []
    | [d] => [d]
    | d :: more => d :: '.' :: more
  point ++ mark ++ Nat.toDigits 10 lead.natAbs

/-- Numbers without exponent, however large or small they are. -/
def plain : Layout :=
  ⟨-400, 400, ""⟩

/-- The text of a decimal number. -/
def write (l : Layout) (s : Shortest) : List Char :=
  let digits := Nat.toDigits 10 s.digits
  let lead := s.exponent + digits.length - 1
  if l.low ≤ lead ∧ lead ≤ l.high then positional digits lead else scientific l.plus digits lead

end Layout

namespace Binary64

/-- The text of a number in a format. -/
def written (l : Layout) : Binary64 → String
  | nan negative => if negative then "-nan" else "nan"
  | infinite negative => if negative then "-inf" else "inf"
  | finite negative m e =>
    String.ofList ((if negative then ['-'] else []) ++ l.write (shortest m e))

end Binary64

end ScriptLint.Number
