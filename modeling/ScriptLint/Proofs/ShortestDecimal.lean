import Mathlib.Algebra.Order.Field.Power
import Mathlib.Algebra.Order.Field.Rat
import Mathlib.Data.Nat.Cast.Order.Field
import Mathlib.Tactic.FieldSimp
import Mathlib.Tactic.Linarith
import Mathlib.Tactic.NormNum
import Mathlib.Tactic.Positivity
import Mathlib.Tactic.Ring
import ScriptLint.Number.Shortest

/-!
# The shortest decimal reads back

A number is written with the fewest digits that read back as it. That there always are such digits
is what is shown here: on a grid of nineteen digits the number just below is so near that it rounds
to where it comes from. The search tries twenty grids, so it never ends without an answer.

## Reading as a function of the value

`ofFraction` guesses an exponent from the lengths of numerator and denominator, so two fractions of
one value may begin with different guesses. `RoundsIn` says which exponent is right, in terms of the
value alone. At most one exponent is, and the one that is used in the end is; so a decimal may be
written with zeros at its end, or with fewer of them, and reads the same.

## Main definitions

* `ratio` — the value of a fraction
* `Binary64.RoundsIn` — the exponent at which a number is rounded
* `Binary64.IsProper`, `Binary64.IsFinite` — the mantissa and the exponent of a finite number

## Main results

* `Binary64.ofFraction_congr` — reading depends on the value only
* `Binary64.ofFraction_of_near` — what is near a number reads as that number
* `Binary64.ofDecimal_shortest` — the shortest decimal reads back
-/

namespace ScriptLint.Number

/-! ## Quotients -/

/-- The value of a fraction. -/
def ratio (p : ℕ × ℕ) : ℚ :=
  p.1 / p.2

theorem ratio_eq_ratio_iff {p q : ℕ × ℕ} (hp : 0 < p.2) (hq : 0 < q.2) :
    ratio p = ratio q ↔ p.1 * q.2 = q.1 * p.2 := by
  have hp' : (p.2 : ℚ) ≠ 0 := by positivity
  have hq' : (q.2 : ℚ) ≠ 0 := by positivity
  rw [ratio, ratio, div_eq_div_iff hp' hq']
  exact_mod_cast Iff.rfl

theorem div_le_ratio (p : ℕ × ℕ) : ((p.1 / p.2 : ℕ) : ℚ) ≤ ratio p :=
  Nat.cast_div_le

theorem ratio_lt_div_add_one {p : ℕ × ℕ} (hp : 0 < p.2) : ratio p < ((p.1 / p.2 : ℕ) : ℚ) + 1 := by
  rw [ratio, div_lt_iff₀ (by positivity)]
  exact_mod_cast Nat.lt_mul_of_div_lt (Nat.lt_succ_self _) hp

theorem le_div_iff_le_ratio {p : ℕ × ℕ} (hp : 0 < p.2) {k : ℕ} :
    k ≤ p.1 / p.2 ↔ (k : ℚ) ≤ ratio p := by
  rw [Nat.le_div_iff_mul_le hp, ratio, le_div_iff₀ (by positivity)]
  exact_mod_cast Iff.rfl

theorem roundDiv_mul_left {c : ℕ} (hc : 0 < c) (n d : ℕ) :
    roundDiv (c * n) (c * d) = roundDiv n d := by
  have hlt : 2 * (c * (n % d)) < c * d ↔ 2 * (n % d) < d := by
    rw [Nat.mul_left_comm]
    exact Nat.mul_lt_mul_left hc
  have heq : 2 * (c * (n % d)) = c * d ↔ 2 * (n % d) = d := by
    rw [Nat.mul_left_comm]
    exact Nat.mul_right_inj hc.ne'
  simp only [roundDiv, Nat.mul_div_mul_left _ _ hc, Nat.mul_mod_mul_left, hlt, heq]

/-- Rounding depends on the value of a fraction only. -/
theorem roundDiv_congr {p q : ℕ × ℕ} (hp : 0 < p.2) (hq : 0 < q.2) (h : ratio p = ratio q) :
    roundDiv p.1 p.2 = roundDiv q.1 q.2 := by
  rw [ratio_eq_ratio_iff hp hq] at h
  rw [← roundDiv_mul_left hq, ← roundDiv_mul_left hp q.1, Nat.mul_comm q.2 p.1, h,
    Nat.mul_comm q.1, Nat.mul_comm q.2]

theorem roundDiv_eq_or (n d : ℕ) : roundDiv n d = n / d ∨ roundDiv n d = n / d + 1 := by
  rw [roundDiv]
  split <;> simp

/-- What is less than one half away from an integer is rounded to it. -/
theorem roundDiv_eq_of_abs_lt {p : ℕ × ℕ} (hp : 0 < p.2) {k : ℕ} (h : |ratio p - k| < 1 / 2) :
    roundDiv p.1 p.2 = k := by
  obtain ⟨n, d⟩ := p
  simp only [ratio] at h hp ⊢
  have hd : (0 : ℚ) < d := by exact_mod_cast hp
  obtain ⟨hlow, hhigh⟩ := abs_lt.mp h
  have hlow : (2 * k : ℕ) * d < 2 * n + d := by
    have := (lt_div_iff₀ hd).mp (show (k : ℚ) - 1 / 2 < n / d by linarith)
    have : (2 * k : ℚ) * d < 2 * n + d := by linarith
    exact_mod_cast this
  have hhigh : 2 * n < (2 * k + 1) * d := by
    have := (div_lt_iff₀ hd).mp (show (n : ℚ) / d < k + 1 / 2 by linarith)
    have : (2 * n : ℚ) < (2 * k + 1) * d := by linarith
    exact_mod_cast this
  have hn := Nat.div_add_mod n d
  have hr := Nat.mod_lt n hp
  rw [roundDiv]
  generalize n / d = q at *
  generalize n % d = r at *
  subst hn
  have hle : q ≤ k := by
    by_contra hlt
    nlinarith [Nat.mul_le_mul_left d (show k + 1 ≤ q by omega)]
  have hge : k ≤ q + 1 := by
    by_contra hlt
    nlinarith [Nat.mul_le_mul_left d (show q + 2 ≤ k by omega)]
  obtain rfl | rfl : k = q ∨ k = q + 1 := by omega
  · rw [if_pos (.inl (by nlinarith))]
  · rw [if_neg (by rintro (h | ⟨h, -⟩) <;> nlinarith)]

namespace Binary64

/-! ## Units -/

theorem two_zpow_pos (e : ℤ) : (0 : ℚ) < 2 ^ e := by
  positivity

theorem zpow_natAbs_of_neg {b : ℚ} {e : ℤ} (he : e < 0) : b ^ e.natAbs = (b ^ e)⁻¹ := by
  rw [← zpow_natCast, ← zpow_neg, Int.ofNat_natAbs_of_nonpos he.le]

theorem zpow_natAbs_of_nonneg {b : ℚ} {e : ℤ} (he : ¬ e < 0) : b ^ e.natAbs = b ^ e := by
  rw [← zpow_natCast, Int.natAbs_of_nonneg (not_lt.mp he)]

/-- Both kinds of units are counted in the same way. -/
theorem ratio_scaled {b : ℕ} (hb : 0 < b) (num den : ℕ) (e : ℤ) :
    ratio (if e < 0 then (num * Nat.pow b e.natAbs, den) else (num, den * Nat.pow b e.natAbs)) =
      ratio (num, den) / (b : ℚ) ^ e := by
  have hpow : ((b : ℚ) ^ e) ≠ 0 := by positivity
  split
  · next he =>
    simp only [ratio, Nat.pow_eq, Nat.cast_mul, Nat.cast_pow, zpow_natAbs_of_neg he]
    field_simp
  · next he =>
    simp only [ratio, Nat.pow_eq, Nat.cast_mul, Nat.cast_pow, zpow_natAbs_of_nonneg he]
    field_simp

theorem scaled_pos {b : ℕ} (hb : 0 < b) {den : ℕ} (hden : 0 < den) (num : ℕ) (e : ℤ) :
    0 < (if e < 0 then (num * Nat.pow b e.natAbs, den) else (num, den * Nat.pow b e.natAbs)).2 := by
  split
  · exact hden
  · exact Nat.mul_pos hden (Nat.pow_pos hb)

theorem ratio_inUnits (num den : ℕ) (e : ℤ) :
    ratio (inUnits num den e) = ratio (num, den) / 2 ^ e :=
  ratio_scaled (by decide) num den e

theorem inUnits_pos {den : ℕ} (hden : 0 < den) (num : ℕ) (e : ℤ) : 0 < (inUnits num den e).2 :=
  scaled_pos (by decide) hden num e

theorem ratio_inDecimalUnits (num den : ℕ) (e : ℤ) :
    ratio (inDecimalUnits num den e) = ratio (num, den) / 10 ^ e :=
  ratio_scaled (by decide) num den e

theorem inDecimalUnits_pos {den : ℕ} (hden : 0 < den) (num : ℕ) (e : ℤ) :
    0 < (inDecimalUnits num den e).2 :=
  scaled_pos (by decide) hden num e

theorem fraction_pos (m : ℕ) (e : ℤ) : 0 < (fraction m e).2 := by
  rw [fraction]
  split
  · exact Nat.pow_pos (by decide)
  · exact Nat.one_pos

theorem ratio_fraction (m : ℕ) (e : ℤ) : ratio (fraction m e) = m * 2 ^ e := by
  rw [fraction]
  split
  · next he =>
    simp only [ratio, Nat.pow_eq, Nat.cast_pow, Nat.cast_ofNat, zpow_natAbs_of_neg he]
    field_simp
  · next he =>
    simp only [ratio, Nat.pow_eq, Nat.cast_mul, Nat.cast_pow, Nat.cast_ofNat,
      zpow_natAbs_of_nonneg he, Nat.cast_one, div_one]

/-! ## Rounding -/

/-- A positive number is rounded to a multiple of `2 ^ e`, so that the mantissa has 53 bits, or
fewer if the exponent is the least one. -/
structure RoundsIn (x : ℚ) (e : ℤ) : Prop where
  min_le : minExponent ≤ e
  lt : x < 2 ^ (e + 53)
  le : e = minExponent ∨ 2 ^ (e + 52) ≤ x

theorem RoundsIn.not_lt {x : ℚ} {e e' : ℤ} (h : RoundsIn x e) (h' : RoundsIn x e') : ¬ e < e' := by
  intro hlt
  have hle : (2 : ℚ) ^ (e' + 52) ≤ x := h'.le.resolve_left (by have := h.min_le; omega)
  have hpow : (2 : ℚ) ^ (e + 53) ≤ 2 ^ (e' + 52) := zpow_le_zpow_right₀ (by norm_num) (by omega)
  linarith [h.lt]

theorem RoundsIn.unique {x : ℚ} {e e' : ℤ} (h : RoundsIn x e) (h' : RoundsIn x e') : e = e' := by
  have := h.not_lt h'
  have := h'.not_lt h
  omega

/-- The lengths of numerator and denominator leave a choice of two exponents for the value. -/
theorem ratio_bounds {num den : ℕ} (hnum : num ≠ 0) (hden : den ≠ 0) :
    (2 : ℚ) ^ ((num.log2 : ℤ) - den.log2 - 1) ≤ ratio (num, den) ∧
      ratio (num, den) < 2 ^ ((num.log2 : ℤ) - den.log2 + 1) := by
  have hnum_le : (2 : ℚ) ^ num.log2 ≤ num := by exact_mod_cast Nat.log2_self_le hnum
  have hnum_lt : (num : ℚ) < 2 ^ (num.log2 + 1) := by exact_mod_cast Nat.lt_log2_self
  have hden_le : (2 : ℚ) ^ den.log2 ≤ den := by exact_mod_cast Nat.log2_self_le hden
  have hden_lt : (den : ℚ) < 2 ^ (den.log2 + 1) := by exact_mod_cast Nat.lt_log2_self
  have hpos : (0 : ℚ) < den := by positivity
  rw [ratio, le_div_iff₀ hpos, div_lt_iff₀ hpos]
  constructor
  · calc (2 : ℚ) ^ ((num.log2 : ℤ) - den.log2 - 1) * den
        ≤ 2 ^ ((num.log2 : ℤ) - den.log2 - 1) * 2 ^ ((den.log2 : ℤ) + 1) := by
          gcongr
          exact_mod_cast hden_lt.le
      _ = 2 ^ num.log2 := by
          rw [← zpow_add₀ (by norm_num), ← zpow_natCast]
          congr 1
          omega
      _ ≤ num := hnum_le
  · calc (num : ℚ) < 2 ^ (num.log2 + 1) := hnum_lt
      _ = 2 ^ ((num.log2 : ℤ) - den.log2 + 1) * 2 ^ (den.log2 : ℤ) := by
          rw [← zpow_add₀ (by norm_num), ← zpow_natCast]
          congr 1
          push_cast
          omega
      _ ≤ 2 ^ ((num.log2 : ℤ) - den.log2 + 1) * den := by
          gcongr
          exact_mod_cast hden_le

/-- The exponent that is tried first is right or one too small. -/
theorem exists_ofFraction_eq {num den : ℕ} (hnum : num ≠ 0) (hden : den ≠ 0) (negative : Bool) :
    ∃ e, RoundsIn (ratio (num, den)) e ∧
      ofFraction negative num den = roundAt negative num den e := by
  obtain ⟨hlow, hhigh⟩ := ratio_bounds hnum hden
  rw [ofFraction, if_neg hnum]
  generalize hguess : max ((num.log2 : ℤ) - den.log2 - 53) minExponent = guess
  refine ⟨_, ?_, rfl⟩
  have hpos := inUnits_pos (Nat.pos_of_ne_zero hden) num guess
  have htest := le_div_iff_le_ratio hpos (k := 2 ^ 53)
  rw [ratio_inUnits, le_div_iff₀ (two_zpow_pos guess), Nat.cast_pow, ← zpow_natCast,
    Nat.cast_ofNat, ← zpow_add₀ (by norm_num)] at htest
  split
  · next hlarge =>
    refine ⟨by omega, hhigh.trans_le (zpow_le_zpow_right₀ (by norm_num) (by omega)), .inr ?_⟩
    rw [show guess + 1 + 52 = 53 + guess by ring]
    exact htest.mp hlarge
  · next hsmall =>
    have hlt := not_le.mp (mt htest.mpr hsmall)
    refine ⟨by omega, ?_, ?_⟩
    · rw [Int.add_comm]
      exact hlt
    · rcases Int.le_total ((num.log2 : ℤ) - den.log2 - 53) minExponent with hle | hge
      · exact .inl (by omega)
      · refine .inr ((zpow_le_zpow_right₀ (by norm_num) ?_).trans hlow)
        omega

theorem roundAt_congr {num den num' den' : ℕ} (hden : den ≠ 0) (hden' : den' ≠ 0)
    (h : ratio (num, den) = ratio (num', den')) (negative : Bool) (e : ℤ) :
    roundAt negative num den e = roundAt negative num' den' e := by
  have hround := roundDiv_congr (inUnits_pos (Nat.pos_of_ne_zero hden) num e)
    (inUnits_pos (Nat.pos_of_ne_zero hden') num' e) (by rw [ratio_inUnits, ratio_inUnits, h])
  simp only [roundAt, hround]

/-- **Reading depends on the value of a fraction only.** -/
theorem ofFraction_congr {num den num' den' : ℕ} (hden : den ≠ 0) (hden' : den' ≠ 0)
    (h : ratio (num, den) = ratio (num', den')) (negative : Bool) :
    ofFraction negative num den = ofFraction negative num' den' := by
  have hzero : num = 0 ↔ num' = 0 := by
    have hiff := ratio_eq_ratio_iff (p := (num, den)) (q := (num', den'))
      (Nat.pos_of_ne_zero hden) (Nat.pos_of_ne_zero hden')
    have hmul : num * den' = num' * den := hiff.mp h
    constructor <;> rintro rfl <;> simp_all
  by_cases hnum : num = 0
  · rw [ofFraction, ofFraction, if_pos hnum, if_pos (hzero.mp hnum)]
  · obtain ⟨e, he, heq⟩ := exists_ofFraction_eq hnum hden negative
    obtain ⟨e', he', heq'⟩ := exists_ofFraction_eq (mt hzero.mpr hnum) hden' negative
    obtain rfl := he.unique (h ▸ he')
    rw [heq, heq', roundAt_congr hden hden' h]

/-! ## Numbers near a number -/

/-- The mantissa and the exponent of a finite number. -/
structure IsProper (m : ℕ) (e : ℤ) : Prop where
  lt : m < 2 ^ 53
  min_le : minExponent ≤ e
  le_max : e ≤ maxExponent
  normal : 2 ^ 52 ≤ m ∨ e = minExponent

instance (m : ℕ) (e : ℤ) : Decidable (IsProper m e) :=
  decidable_of_iff (m < 2 ^ 53 ∧ minExponent ≤ e ∧ e ≤ maxExponent ∧
    (2 ^ 52 ≤ m ∨ e = minExponent))
    ⟨fun ⟨hlt, hmin, hmax, hnormal⟩ => ⟨hlt, hmin, hmax, hnormal⟩,
      fun h => ⟨h.lt, h.min_le, h.le_max, h.normal⟩⟩

/-- A number is finite. -/
def IsFinite : Binary64 → Prop
  | finite _ m e => IsProper m e
  | infinite _ => False
  | nan _ => False

instance : DecidablePred IsFinite
  | finite _ m e => inferInstanceAs (Decidable (IsProper m e))
  | infinite _ => inferInstanceAs (Decidable False)
  | nan _ => inferInstanceAs (Decidable False)

theorem roundDiv_inUnits_of_near {num den k : ℕ} (hden : den ≠ 0) {e : ℤ}
    (hnear : |ratio (num, den) - k * 2 ^ e| < 2 ^ e / 2) :
    roundDiv (inUnits num den e).1 (inUnits num den e).2 = k := by
  have hpos := two_zpow_pos e
  refine roundDiv_eq_of_abs_lt (inUnits_pos (Nat.pos_of_ne_zero hden) num e) ?_
  rw [ratio_inUnits, div_sub' hpos.ne', abs_div, abs_of_pos hpos, div_lt_iff₀ hpos,
    mul_comm ((2 : ℚ) ^ e)]
  linarith

/-- **What is near a number reads as that number.** Just below a power of two the numbers lie twice
as close as above it, so near means less than a quarter of the unit. -/
theorem ofFraction_of_near {m : ℕ} {e : ℤ} (h : IsProper m e) {num den : ℕ} (hnum : num ≠ 0)
    (hden : den ≠ 0) (hnear : |ratio (num, den) - m * 2 ^ e| < 2 ^ e / 4) (negative : Bool) :
    ofFraction negative num den = finite negative m e := by
  obtain ⟨e', he', heq⟩ := exists_ofFraction_eq hnum hden negative
  have hpos := two_zpow_pos e
  obtain ⟨hlow, hhigh⟩ := abs_lt.mp hnear
  have hlt : ratio (num, den) < 2 ^ (e + 53) := by
    have hm : (m : ℚ) + 1 ≤ 2 ^ 53 := by exact_mod_cast h.lt
    rw [zpow_add₀ (by norm_num)]
    nlinarith
  rw [heq, roundAt]
  by_cases hunit : e = minExponent ∨ 2 ^ (e + 52) ≤ ratio (num, den)
  · obtain rfl := he'.unique ⟨h.min_le, hlt, hunit⟩
    have hround := roundDiv_inUnits_of_near hden (hnear.trans (by linarith))
    simp only [hround, Nat.pow_eq, if_neg h.lt.ne, if_neg (not_lt.mpr h.le_max)]
  · -- The value lies below the power of two that it is near to, where the unit is half as large.
    obtain ⟨hmin, hbelow⟩ := not_or.mp hunit
    rw [not_le, zpow_add₀ (by norm_num)] at hbelow
    have hm : m = 2 ^ 52 := by
      have hle : (m : ℚ) < 2 ^ 52 + 1 := by
        by_contra hge
        nlinarith
      have hle : m < 2 ^ 52 + 1 := by exact_mod_cast hle
      have := h.normal.resolve_right hmin
      omega
    have hhalf : (2 : ℚ) ^ e = 2 * 2 ^ (e - 1) := by
      rw [zpow_sub_one₀ (by norm_num)]
      ring
    subst hm
    obtain rfl : e' = e - 1 := by
      refine he'.unique ⟨by have := h.min_le; omega, ?_, .inr ?_⟩
      · rw [show e - 1 + 53 = e + 52 by ring, zpow_add₀ (by norm_num)]
        exact hbelow
      · rw [zpow_add₀ (by norm_num)]
        push_cast at hlow
        rw [hhalf] at hlow hpos
        norm_num at hlow ⊢
        linarith
    have hround : roundDiv (inUnits num den (e - 1)).1 (inUnits num den (e - 1)).2 = 2 ^ 53 := by
      refine roundDiv_inUnits_of_near hden ?_
      push_cast at hnear ⊢
      rw [hhalf] at hnear
      convert hnear using 1
      · ring_nf
      · ring
    simp only [hround, Nat.pow_eq, if_true, Int.sub_add_cancel, if_neg (not_lt.mpr h.le_max)]

/-! ## Decimals -/

theorem lt_pow_length_toDigits (n : ℕ) : n < 10 ^ (Nat.toDigits 10 n).length :=
  (Nat.length_toDigits_le_iff (by decide) Nat.length_toDigits_pos).mp le_rfl

theorem pow_le_of_lt_length_toDigits {n k : ℕ} (hn : n ≠ 0) (hk : k < (Nat.toDigits 10 n).length) :
    10 ^ k ≤ n := by
  rcases Nat.eq_zero_or_pos k with rfl | hpos
  · exact Nat.one_le_iff_ne_zero.mpr hn
  · exact not_lt.mp fun hlt => by
      have := (Nat.length_toDigits_le_iff (b := 10) (by decide) hpos).mpr hlt
      omega

theorem length_toDigits_mul_ten {n : ℕ} (hn : n ≠ 0) :
    (Nat.toDigits 10 (n * 10)).length = (Nat.toDigits 10 n).length + 1 := by
  rw [Nat.toDigits_of_base_le (by decide) (by omega), Nat.mul_div_cancel _ (by decide),
    List.length_append, List.length_singleton]

/-- Unless it is far away from all finite numbers, a decimal is read as a fraction. -/
theorem exists_ofDecimal_eq {digits : ℕ} (hdigits : digits ≠ 0) {e : ℤ}
    (hlow : -400 ≤ (Nat.toDigits 10 digits).length + e)
    (hhigh : (Nat.toDigits 10 digits).length + e ≤ 400) :
    ∃ num den, num ≠ 0 ∧ den ≠ 0 ∧ ratio (num, den) = digits * 10 ^ e ∧
      ∀ negative, ofDecimal negative digits e = ofFraction negative num den := by
  have hten : Nat.pow 10 e.natAbs ≠ 0 := (Nat.pow_pos (by decide)).ne'
  by_cases he : e < 0
  · refine ⟨digits, Nat.pow 10 e.natAbs, hdigits, hten, ?_, fun negative => ?_⟩
    · simp only [ratio, Nat.pow_eq, Nat.cast_pow, Nat.cast_ofNat, zpow_natAbs_of_neg he,
        div_inv_eq_mul]
    · rw [ofDecimal, if_neg (by omega), if_neg (by omega), if_pos he]
  · refine ⟨digits * Nat.pow 10 e.natAbs, 1, Nat.mul_ne_zero hdigits hten, Nat.one_ne_zero, ?_,
      fun negative => ?_⟩
    · simp only [ratio, Nat.pow_eq, Nat.cast_mul, Nat.cast_pow, Nat.cast_ofNat, Nat.cast_one,
        zpow_natAbs_of_nonneg he, div_one]
    · rw [ofDecimal, if_neg (by omega), if_neg (by omega), if_neg he]

/-- A zero at the end of the digits does not matter. -/
theorem ofDecimal_mul_ten (negative : Bool) (digits : ℕ) (e : ℤ) :
    ofDecimal negative (digits * 10) (e - 1) = ofDecimal negative digits e := by
  by_cases hdigits : digits = 0
  · simp [ofDecimal, hdigits]
  have hlength := length_toDigits_mul_ten hdigits
  by_cases hlow : -400 ≤ (Nat.toDigits 10 digits).length + e
  · by_cases hhigh : (Nat.toDigits 10 digits).length + e ≤ 400
    · obtain ⟨num, den, -, hden, hratio, hread⟩ := exists_ofDecimal_eq hdigits hlow hhigh
      obtain ⟨num', den', -, hden', hratio', hread'⟩ :=
        exists_ofDecimal_eq (show digits * 10 ≠ 0 by omega) (e := e - 1) (by omega) (by omega)
      rw [hread, hread', ofFraction_congr hden' hden]
      rw [hratio, hratio', zpow_sub_one₀ (by norm_num)]
      push_cast
      ring
    · rw [ofDecimal, ofDecimal, if_neg (by omega), if_pos (by omega), if_neg (by omega),
        if_pos (by omega)]
  · rw [ofDecimal, ofDecimal, if_pos (by omega), if_pos (by omega)]

theorem ofDecimal_mul_ten_pow (negative : Bool) (digits : ℕ) (e : ℤ) (k : ℕ) :
    ofDecimal negative (digits * 10 ^ k) (e - k) = ofDecimal negative digits e := by
  induction k with
  | zero => simp
  | succ k ih =>
    rw [Nat.pow_succ, ← Nat.mul_assoc, show e - (k + 1 : ℕ) = e - k - 1 by omega,
      ofDecimal_mul_ten, ih]

theorem ofDecimal_stripZeros (negative : Bool) (s : Shortest) (fuel : ℕ) :
    ofDecimal negative (stripZeros s fuel).digits (stripZeros s fuel).exponent =
      ofDecimal negative s.digits s.exponent := by
  induction fuel generalizing s with
  | zero => rfl
  | succ fuel ih =>
    rw [stripZeros]
    split
    · next hzero =>
      rw [ih, ← ofDecimal_mul_ten, Int.add_sub_cancel, Nat.div_mul_cancel (by omega)]
    · rfl

/-- A number with another sign. -/
def withSign (negative : Bool) : Binary64 → Binary64
  | finite _ m e => finite negative m e
  | infinite _ => infinite negative
  | nan _ => nan negative

theorem roundAt_eq_withSign (negative : Bool) (num den : ℕ) (e : ℤ) :
    roundAt negative num den e = (roundAt false num den e).withSign negative := by
  simp only [roundAt]
  split_ifs <;> rfl

theorem ofFraction_eq_withSign (negative : Bool) (num den : ℕ) :
    ofFraction negative num den = (ofFraction false num den).withSign negative := by
  rw [ofFraction, ofFraction]
  split
  · rfl
  · exact roundAt_eq_withSign _ _ _ _

/-- The sign is read along with the number and does nothing else. -/
theorem ofDecimal_eq_withSign (negative : Bool) (digits : ℕ) (e : ℤ) :
    ofDecimal negative digits e = (ofDecimal false digits e).withSign negative := by
  simp only [ofDecimal]
  split_ifs
  · rfl
  · rfl
  · exact ofFraction_eq_withSign _ _ _
  · exact ofFraction_eq_withSign _ _ _

/-! ## Grids -/

theorem readsBack_of_onGrid? {m : ℕ} {e e' : ℤ} {s : Shortest} (h : onGrid? m e e' = some s) :
    readsBack m e s.digits s.exponent := by
  simp only [onGrid?] at h
  generalize inDecimalUnits (fraction m e).1 (fraction m e).2 e' = p at h
  split at h
  · next hboth =>
    cases h
    rw [Bool.and_eq_true, Bool.and_eq_true] at hboth
    rcases roundDiv_eq_or p.1 p.2 with heq | heq
    · exact heq ▸ hboth.1.2
    · exact heq ▸ hboth.2
  · split at h
    · next hlow =>
      cases h
      exact (Bool.and_eq_true _ _ ▸ hlow).2
    · split at h
      · next hhigh =>
        cases h
        exact hhigh
      · cases h

theorem readsBack_of_onGrids? {m : ℕ} {e e' : ℤ} {count : ℕ} {s : Shortest}
    (h : onGrids? m e e' count = some s) : readsBack m e s.digits s.exponent := by
  induction count generalizing e' with
  | zero => cases h
  | succ count ih =>
    rw [onGrids?] at h
    split at h
    · next hgrid => exact readsBack_of_onGrid? (h ▸ hgrid)
    · exact ih h

theorem onGrids?_isSome {m : ℕ} {e e' : ℤ} {count k : ℕ} (hk : k < count)
    (h : (onGrid? m e (e' - k)).isSome) : (onGrids? m e e' count).isSome := by
  induction count generalizing e' k with
  | zero => omega
  | succ count ih =>
    rw [onGrids?]
    split
    · rfl
    · next hnone =>
      cases k with
      | zero => simp [hnone] at h
      | succ k =>
        refine ih (k := k) (by omega) ?_
        rwa [show e' - 1 - (k : ℤ) = e' - (k + 1 : ℕ) by omega]

/-- A value of at least one lies between the powers of ten that the length of its whole part
gives. -/
theorem ratio_toDigits_bounds {p : ℕ × ℕ} (hden : 0 < p.2) (hge : p.2 ≤ p.1) :
    (10 : ℚ) ^ ((Nat.toDigits 10 (p.1 / p.2)).length - 1 : ℤ) ≤ ratio p ∧
      ratio p ≤ (10 : ℚ) ^ ((Nat.toDigits 10 (p.1 / p.2)).length : ℤ) := by
  have hpos := Nat.length_toDigits_pos (b := 10) (n := p.1 / p.2)
  constructor
  · have hlow : (10 : ℚ) ^ ((Nat.toDigits 10 (p.1 / p.2)).length - 1) ≤ (p.1 / p.2 : ℕ) := by
      exact_mod_cast pow_le_of_lt_length_toDigits (Nat.div_pos hge hden).ne' (by omega)
    rw [← Int.natCast_pred_of_pos hpos, zpow_natCast]
    exact hlow.trans (div_le_ratio p)
  · have hhigh : ((p.1 / p.2 : ℕ) : ℚ) + 1 ≤ 10 ^ (Nat.toDigits 10 (p.1 / p.2)).length := by
      exact_mod_cast lt_pow_length_toDigits (p.1 / p.2)
    rw [zpow_natCast]
    exact (ratio_lt_div_add_one hden).le.trans hhigh

/-- The value of a finite number lies between two neighbouring powers of ten. -/
theorem leadExponent_bounds {m : ℕ} (hm : m ≠ 0) (e : ℤ) :
    (10 : ℚ) ^ (leadExponent m e - 1) ≤ m * 2 ^ e ∧ (m : ℚ) * 2 ^ e ≤ 10 ^ leadExponent m e := by
  have hden := fraction_pos m e
  have hvalue : (0 : ℚ) < m * 2 ^ e := by positivity
  rw [← ratio_fraction] at hvalue ⊢
  simp only [leadExponent]
  generalize fraction m e = p at *
  split
  · next hge => exact ratio_toDigits_bounds hden hge
  · -- Below one, it is the inverse that has a whole part.
    next hlt =>
    have hnum : 0 < p.1 := by
      by_contra hzero
      simp [ratio, Nat.eq_zero_of_not_pos hzero] at hvalue
    have hinv : ratio p = (ratio (p.2, p.1))⁻¹ := (inv_div _ _).symm
    have hpos : 0 < ratio (p.2, p.1) := inv_pos.mp (hinv ▸ hvalue)
    obtain ⟨hlow, hhigh⟩ := ratio_toDigits_bounds (p := (p.2, p.1)) hnum (by omega)
    rw [hinv]
    constructor
    · rw [sub_sub_cancel_left, zpow_neg]
      exact inv_anti₀ hpos hhigh
    · rw [← neg_sub, zpow_neg]
      exact inv_anti₀ (by positivity) hlow

theorem IsProper.leadExponent_mem {m : ℕ} {e : ℤ} (h : IsProper m e) (hm : m ≠ 0) :
    -330 ≤ leadExponent m e ∧ leadExponent m e ≤ 310 := by
  obtain ⟨hlow, hhigh⟩ := leadExponent_bounds hm e
  constructor
  · have hsmall : (2 : ℚ) ^ 1074 ≤ 10 ^ 330 := by
      exact_mod_cast (by decide +kernel : 2 ^ 1074 ≤ 10 ^ 330)
    refine (zpow_le_zpow_iff_right₀ (a := (10 : ℚ)) (by norm_num)).mp ?_
    calc (10 : ℚ) ^ (-330 : ℤ) = (10 ^ 330)⁻¹ := by rw [zpow_neg]; rfl
      _ ≤ (2 ^ 1074)⁻¹ := inv_anti₀ (by positivity) hsmall
      _ = 2 ^ minExponent := by rw [minExponent, zpow_neg]; rfl
      _ ≤ 2 ^ e := zpow_le_zpow_right₀ (by norm_num) h.min_le
      _ ≤ m * 2 ^ e := le_mul_of_one_le_left (two_zpow_pos e).le
        (by exact_mod_cast Nat.one_le_iff_ne_zero.mpr hm)
      _ ≤ 10 ^ leadExponent m e := hhigh
  · have hlarge : (2 : ℚ) ^ 53 * 2 ^ 971 ≤ 10 ^ 309 := by
      exact_mod_cast (by decide +kernel : 2 ^ 53 * 2 ^ 971 ≤ 10 ^ 309)
    suffices leadExponent m e - 1 ≤ 309 by omega
    refine (zpow_le_zpow_iff_right₀ (a := (10 : ℚ)) (by norm_num)).mp ?_
    calc (10 : ℚ) ^ (leadExponent m e - 1) ≤ m * 2 ^ e := hlow
      _ ≤ 2 ^ 53 * 2 ^ maxExponent := by
        gcongr
        · exact_mod_cast h.lt.le
        · norm_num
        · exact h.le_max
      _ ≤ 10 ^ (309 : ℤ) := hlarge

/-- On a grid of nineteen digits the number just below reads back. -/
theorem readsBack_below {m : ℕ} {e : ℤ} (h : IsProper m e) (hm : m ≠ 0) (low : ℕ)
    (hle : low * (10 : ℚ) ^ (leadExponent m e - 19) ≤ m * 2 ^ e)
    (hlt : (m : ℚ) * 2 ^ e < (low + 1) * 10 ^ (leadExponent m e - 19)) :
    low ≠ 0 ∧ readsBack m e low (leadExponent m e - 19) := by
  obtain ⟨hlead, hlead'⟩ := leadExponent_bounds hm e
  have hrange := h.leadExponent_mem hm
  have hunit : (m : ℚ) * 2 ^ e < 2 ^ 53 * 2 ^ e := by
    gcongr
    exact_mod_cast h.lt
  rw [show leadExponent m e - 1 = leadExponent m e - 19 + 18 by ring,
    zpow_add₀ (by norm_num)] at hlead
  rw [show leadExponent m e = leadExponent m e - 19 + 19 by ring,
    zpow_add₀ (by norm_num)] at hlead'
  have hgrid : (0 : ℚ) < 10 ^ (leadExponent m e - 19) := by positivity
  have hmany : 10 ^ 18 ≤ low := by
    have : (10 : ℚ) ^ 18 < low + 1 := by
      by_contra hge
      nlinarith
    exact Nat.lt_succ_iff.mp (by exact_mod_cast this)
  have hfew : low ≤ 10 ^ 19 := by
    have : (low : ℚ) ≤ 10 ^ 19 := by
      by_contra hgt
      nlinarith
    exact_mod_cast this
  have hlength : 18 < (Nat.toDigits 10 low).length := by
    by_contra hshort
    have := (Nat.length_toDigits_le_iff (b := 10) (by decide) (by decide)).mp (not_lt.mp hshort)
    omega
  have hlength' : (Nat.toDigits 10 low).length ≤ 20 :=
    (Nat.length_toDigits_le_iff (by decide) (by decide)).mpr (by omega)
  obtain ⟨num, den, hnum, hden, hratio, hread⟩ := exists_ofDecimal_eq
    (show low ≠ 0 by omega) (e := leadExponent m e - 19) (by omega) (by omega)
  refine ⟨by omega, ?_⟩
  rw [readsBack, hread, decide_eq_true_eq]
  refine ofFraction_of_near h hnum hden ?_ false
  rw [hratio, abs_lt]
  norm_num at hlead hunit
  constructor <;> linarith

theorem onGrid?_isSome {m : ℕ} {e : ℤ} (h : IsProper m e) (hm : m ≠ 0) :
    (onGrid? m e (leadExponent m e - 19)).isSome := by
  have hden := inDecimalUnits_pos (fraction_pos m e) (fraction m e).1 (leadExponent m e - 19)
  have hratio := ratio_inDecimalUnits (fraction m e).1 (fraction m e).2 (leadExponent m e - 19)
  rw [ratio_fraction, eq_div_iff (by positivity)] at hratio
  have hgrid : (0 : ℚ) < 10 ^ (leadExponent m e - 19) := by positivity
  simp only [onGrid?]
  generalize inDecimalUnits (fraction m e).1 (fraction m e).2 (leadExponent m e - 19) = p at *
  obtain ⟨hzero, hreads⟩ := readsBack_below h hm (p.1 / p.2)
    (by rw [← hratio]; exact mul_le_mul_of_nonneg_right (div_le_ratio p) hgrid.le)
    (by rw [← hratio]; exact mul_lt_mul_of_pos_right (ratio_lt_div_add_one hden) hgrid)
  simp only [hreads, hzero, ne_eq, not_false_eq_true, decide_true, Bool.true_and, if_true]
  split <;> rfl

/-- **The shortest decimal reads back** as the number that it is written for. -/
theorem ofDecimal_shortest {m : ℕ} {e : ℤ} (h : IsProper m e) (negative : Bool) :
    ofDecimal negative (shortest m e).digits (shortest m e).exponent = finite negative m e := by
  rw [shortest]
  split
  · next hm =>
    obtain rfl : e = minExponent := h.normal.resolve_left (by omega)
    simp [ofDecimal, hm]
  · next hm =>
    obtain ⟨s, hs⟩ := Option.isSome_iff_exists.mp
      (onGrids?_isSome (show 19 < 20 by decide) (onGrid?_isSome h hm))
    have hreads := readsBack_of_onGrids? hs
    rw [readsBack, decide_eq_true_eq] at hreads
    rw [ofDecimal_stripZeros, hs, Option.getD_some, ofDecimal_eq_withSign, hreads, withSign]

/-- Only zero is written with the digit zero, and without an exponent. -/
theorem shortest_exponent_of_digits {m : ℕ} {e : ℤ} (h : IsProper m e)
    (hdigits : (shortest m e).digits = 0) : (shortest m e).exponent = 0 := by
  have hread := ofDecimal_shortest h false
  have hm : m = 0 := by
    rw [ofDecimal, if_pos (.inl hdigits)] at hread
    exact (Binary64.finite.inj hread).2.1.symm
  rw [shortest, if_pos hm]

end Binary64

end ScriptLint.Number
