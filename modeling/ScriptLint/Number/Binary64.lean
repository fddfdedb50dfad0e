/-!
# Binary floating-point numbers

Numbers of 64 bits, as exact integers: a finite one is a mantissa times a power of two. Nothing here
uses floating-point arithmetic, so that every rule about rounding is a rule about natural numbers.

## Main definitions

* `roundDiv` — a quotient rounded to the nearest integer, ties to even
* `Binary64` — the numbers
* `Binary64.ofDecimal` — the number nearest to a decimal one
* `Binary64.clampUnit` — the nearest number between 0 and 1
* `Binary64.fixed` — the decimal text with a fixed number of places
-/

namespace ScriptLint.Number

/-- The integer nearest to `num / den`; of two equally near ones, the even one. -/
def roundDiv (num den : Nat) : Nat :=
  let q := num / den
  let r := num % den
  if 2 * r < den ∨ (2 * r = den ∧ q % 2 = 0) then q else q + 1

/-- A floating-point number: a mantissa times a power of two with a sign, an infinity, or no number.
A mantissa is below `2 ^ 53`, and at least `2 ^ 52` unless the exponent is the least one. -/
inductive Binary64 where
  | finite (negative : Bool) (mantissa : Nat) (exponent : Int)
  | infinite (negative : Bool)
  | nan (negative : Bool)
  deriving DecidableEq, Repr

namespace Binary64

/-- The least exponent. -/
def minExponent : Int := -1074

/-- The greatest exponent. -/
def maxExponent : Int := 971

/-- Zero. -/
def zero : Binary64 :=
  finite false 0 minExponent

/-- One. -/
def one : Binary64 :=
  finite false (Nat.pow 2 52) (-52)

/-- The fraction `num / den` in units of `2 ^ e`, as another fraction. -/
def inUnits (num den : Nat) (e : Int) : Nat × Nat :=
  if e < 0 then (num * Nat.pow 2 e.natAbs, den) else (num, den * Nat.pow 2 e.natAbs)

/-- The number with the exponent `e` that is nearest to `num / den`, where rounding may still carry
into the next exponent. -/
def roundAt (negative : Bool) (num den : Nat) (e : Int) : Binary64 :=
  let (n, d) := inUnits num den e
  let m := roundDiv n d
  let (m, e) := if m = Nat.pow 2 53 then (Nat.pow 2 52, e + 1) else (m, e)
  if e > maxExponent then infinite negative else finite negative m e

/-- The number nearest to the fraction `num / den`; of two equally near ones, the even one. -/
def ofFraction (negative : Bool) (num den : Nat) : Binary64 :=
  if num = 0 then finite negative 0 minExponent
  else
    let guess := max ((num.log2 : Int) - den.log2 - 53) minExponent
    let (n, d) := inUnits num den guess
    roundAt negative num den (if n / d ≥ Nat.pow 2 53 then guess + 1 else guess)

/-- The number nearest to `digits * 10 ^ exponent`. What is far above every finite number or far
below every positive one is not computed in full. -/
def ofDecimal (negative : Bool) (digits : Nat) (exponent : Int) : Binary64 :=
  let size : Int := (Nat.toDigits 10 digits).length
  if digits = 0 ∨ size + exponent < -400 then finite negative 0 minExponent
  else if size + exponent > 400 then infinite negative
  else if exponent < 0 then ofFraction negative digits (Nat.pow 10 exponent.natAbs)
  else ofFraction negative (digits * Nat.pow 10 exponent.natAbs) 1

/-- The number of an integer. -/
def ofInt (i : Int) : Binary64 :=
  ofFraction (i < 0) i.natAbs 1

/-- The absolute value of a finite number as a fraction. -/
def fraction (mantissa : Nat) (exponent : Int) : Nat × Nat :=
  if exponent < 0 then (mantissa, Nat.pow 2 exponent.natAbs)
  else (mantissa * Nat.pow 2 exponent.natAbs, 1)

/-- The nearest number between 0 and 1. -/
def clampUnit : Binary64 → Binary64
  | nan negative => nan negative
  | infinite negative => if negative then zero else one
  | finite negative m e =>
    let (num, den) := fraction m e
    if negative ∧ m ≠ 0 then zero else if num > den then one else finite negative m e

/-- The text of a natural number, with at least `width` digits. -/
def paddedDigits (width n : Nat) : List Char :=
  let digits := Nat.toDigits 10 n
  List.replicate (width - digits.length) '0' ++ digits

/-- The decimal text with a fixed number of places. The exact value is rounded, ties to even; the
sign is kept even if only zeros remain. -/
def fixed (places : Nat) : Binary64 → String
  | nan _ => "NaN"
  | infinite negative => if negative then "-inf" else "inf"
  | finite negative m e =>
    let (num, den) := fraction m e
    let digits := paddedDigits (places + 1) (roundDiv (num * Nat.pow 10 places) den)
    let whole := digits.take (digits.length - places)
    let rest := digits.drop (digits.length - places)
    String.ofList ((if negative then ['-'] else []) ++ whole ++
      (if places = 0 then [] else '.' :: rest))

end Binary64

end ScriptLint.Number
