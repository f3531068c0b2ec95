/-
Module: WardleyMaps.Proofs.Number.Range
Purpose: From which value on a numeral reads as infinite.
Main exports: Numeral.denoted, overflowValue, Double.representable_roundUnits_iff,
  Double.ofDecimal_eq_ofUnits, Double.isFinite_ofDecimal_iff, Numeral.isFinite_value_iff,
  Numeral.value_ne_nan
-/
import Mathlib.Algebra.Order.Field.Power
import Mathlib.Data.Rat.Cast.Order
import Mathlib.Tactic.FieldSimp
import Mathlib.Tactic.Linarith
import Mathlib.Tactic.NormNum
import Mathlib.Tactic.Positivity
import Mathlib.Tactic.Ring
import WardleyMaps.Number.Numeral

namespace WardleyMaps

/-!
A count of units that is rounded to 53 significant bits needs at most 53 of them, or is the next
power of two; so it is representable as long as it stays below the units of 2¹⁰²⁴. It reaches them
from the middle between the largest finite number and 2¹⁰²⁴ on, since the middle goes to the even
neighbour. Powers of ten are cut short only where this does not change the result
(`Double.ofDecimal_eq_ofUnits`). Therefore a numeral reads as infinite exactly if what it denotes is
at least 2¹⁰²⁴ - 2⁹⁷⁰ (`Numeral.isFinite_value_iff`).
-/

open Text

/-- The number that a numeral denotes, before any rounding. -/
def Numeral.denoted (n : Numeral) : ℚ :=
  (if n.negative then -1 else 1) *
    (digitsValue (n.whole ++ n.fraction) * 10 ^ (n.exponent - n.fraction.length))

/-- The middle between the largest finite number and the next power of two. -/
def overflowValue : ℚ :=
  2 ^ 1024 - 2 ^ 970

theorem unitsPerOne_pos : 0 < unitsPerOne := by
  unfold unitsPerOne
  generalize 1074 = k
  exact Nat.two_pow_pos k

/-! ### Rounded counts -/

theorem div_le_roundHalfEven (num den : Nat) : num / den ≤ roundHalfEven num den := by
  rcases roundHalfEven_cases num den with ⟨floor, -⟩ | ⟨next, -⟩ <;> omega

theorem roundHalfEven_le (num den : Nat) : roundHalfEven num den ≤ num / den + 1 := by
  rcases roundHalfEven_cases num den with ⟨floor, -⟩ | ⟨next, -⟩ <;> omega

/-- Above an odd number the middle is rounded up. -/
theorem roundHalfEven_of_odd {num den : Nat} (odd : num / den % 2 = 1) :
    roundHalfEven num den = if 2 * (num % den) < den then num / den else num / den + 1 := by
  unfold roundHalfEven
  dsimp only
  split
  · rfl
  · split
    · rfl
    · rw [if_neg (by omega)]

namespace Double

/-- Multiples of a power of two with a factor of at most 53 bits, or the next one, have at most 53
significant bits. -/
theorem significant_mul_two_pow {m : Nat} (h : m ≤ 2 ^ 53) (e : Nat) :
    2 ^ ((m * 2 ^ e).log2 - 52) ∣ m * 2 ^ e := by
  rcases Nat.eq_zero_or_pos m with rfl | pos
  · simp
  rcases Nat.lt_or_eq_of_le h with small | rfl
  · have nonzero : m * 2 ^ e ≠ 0 := Nat.mul_ne_zero (by omega) (Nat.two_pow_pos e).ne'
    have bits : (m * 2 ^ e).log2 < 53 + e := by
      rw [Nat.log2_lt nonzero, Nat.pow_add]
      exact Nat.mul_lt_mul_of_pos_right small (Nat.two_pow_pos e)
    exact (Nat.pow_dvd_pow 2 (by omega)).mul_left m
  · rw [← Nat.pow_add, Nat.log2_two_pow]
    exact Nat.pow_dvd_pow 2 (by omega)

/-- The place of the last bit that is kept of a count. -/
def lastBit (num den : Nat) : Nat :=
  (num / den).log2 - 52

theorem roundUnits_eq (num den : Nat) :
    roundUnits num den =
      roundHalfEven num (den * 2 ^ lastBit num den) * 2 ^ lastBit num den :=
  rfl

theorem quotient_lt (num den : Nat) : num / (den * 2 ^ lastBit num den) < 2 ^ 53 := by
  rw [← Nat.div_div_eq_div_mul, Nat.div_lt_iff_lt_mul (Nat.two_pow_pos _), ← Nat.pow_add]
  calc num / den < 2 ^ ((num / den).log2 + 1) := Nat.lt_log2_self
    _ ≤ 2 ^ (53 + lastBit num den) :=
      Nat.pow_le_pow_right (by decide) (by unfold lastBit; omega)

/-- A rounded count differs from the exact one by at most one in the last bit that is kept. -/
theorem roundUnits_le (num den : Nat) : roundUnits num den ≤ num / den + 2 ^ lastBit num den := by
  rw [roundUnits_eq]
  calc roundHalfEven num (den * 2 ^ lastBit num den) * 2 ^ lastBit num den
      ≤ (num / (den * 2 ^ lastBit num den) + 1) * 2 ^ lastBit num den :=
        Nat.mul_le_mul_right _ (roundHalfEven_le _ _)
    _ = num / den / 2 ^ lastBit num den * 2 ^ lastBit num den + 2 ^ lastBit num den := by
        rw [Nat.div_div_eq_div_mul, Nat.add_mul, Nat.one_mul]
    _ ≤ num / den + 2 ^ lastBit num den :=
        Nat.add_le_add_right (Nat.div_mul_le_self _ _) _

/-- A rounded count is at least the power of two with which the exact one begins. -/
theorem two_pow_le_roundUnits {num den k : Nat} (large : 52 ≤ (num / den).log2)
    (h : k ≤ (num / den).log2) (nonzero : num / den ≠ 0) : 2 ^ k ≤ roundUnits num den := by
  have whole : 2 ^ 52 ≤ num / (den * 2 ^ lastBit num den) := by
    rw [← Nat.div_div_eq_div_mul, Nat.le_div_iff_mul_le (Nat.two_pow_pos _), ← Nat.pow_add]
    calc 2 ^ (52 + lastBit num den) = 2 ^ (num / den).log2 := by
          congr 1
          unfold lastBit
          omega
      _ ≤ num / den := Nat.log2_self_le nonzero
  calc 2 ^ k ≤ 2 ^ (52 + lastBit num den) :=
        Nat.pow_le_pow_right (by decide) (by unfold lastBit; omega)
    _ = 2 ^ 52 * 2 ^ lastBit num den := Nat.pow_add ..
    _ ≤ roundUnits num den := by
        rw [roundUnits_eq]
        exact Nat.mul_le_mul_right _ (whole.trans (div_le_roundHalfEven _ _))

/-- A rounded count stays below a power of two as long as the exact one stays below the middle
between this power and the largest count of 53 bits under it. -/
theorem roundUnits_lt_iff (num : Nat) {den : Nat} (pos : 0 < den) (k : Nat) :
    roundUnits num den < 2 ^ (53 + k) ↔ 2 * num < (2 ^ 54 - 1) * (den * 2 ^ k) := by
  have unit : 0 < den * 2 ^ k := Nat.mul_pos pos (Nat.two_pow_pos k)
  rcases Nat.lt_trichotomy (num / den).log2 (52 + k) with below | level | above
  · -- The count has fewer bits, and one more in its last bit does not change this.
    have count : num / den < 2 ^ (52 + k) :=
      Nat.lt_log2_self.trans_le (Nat.pow_le_pow_right (by decide) (by omega))
    have value : num < 2 ^ 52 * (den * 2 ^ k) := by
      rwa [Nat.div_lt_iff_lt_mul pos, Nat.pow_add, Nat.mul_assoc, Nat.mul_comm _ den] at count
    have last : 2 ^ lastBit num den ≤ 2 ^ (52 + k) :=
      Nat.pow_le_pow_right (by decide) (by unfold lastBit; omega)
    have double : 2 ^ (53 + k) = 2 ^ (52 + k) + 2 ^ (52 + k) := by
      rw [← Nat.two_mul, ← Nat.pow_succ']
      congr 1
      omega
    have rounded := roundUnits_le num den
    exact iff_of_true (by omega) (by omega)
  · -- The count has just as many bits; the quotient tells which side of the middle it is on.
    have last : lastBit num den = k := by
      unfold lastBit
      omega
    have small := quotient_lt num den
    rw [roundUnits_eq, last, Nat.pow_add, Nat.mul_lt_mul_right (Nat.two_pow_pos k)]
    rw [last] at small
    have parts := Nat.div_add_mod num (den * 2 ^ k)
    have rest := Nat.mod_lt num unit
    rcases Nat.lt_or_eq_of_le (Nat.le_sub_one_of_lt small) with inner | top
    · have rounded := roundHalfEven_le num (den * 2 ^ k)
      have bound := Nat.mul_le_mul_left (den * 2 ^ k) inner
      rw [Nat.mul_succ] at bound
      exact iff_of_true (by omega) (by omega)
    · rw [roundHalfEven_of_odd (by rw [top]; decide)]
      rw [top] at parts ⊢
      split <;> omega
  · -- The count has more bits.
    have nonzero : num / den ≠ 0 := by
      intro none
      rw [none] at above
      simp at above
    have count : 2 ^ (53 + k) ≤ num / den :=
      (Nat.pow_le_pow_right (by decide) (by omega)).trans (Nat.log2_self_le nonzero)
    have value : 2 ^ 53 * (den * 2 ^ k) ≤ num := by
      rwa [Nat.le_div_iff_mul_le pos, Nat.pow_add, Nat.mul_assoc, Nat.mul_comm _ den] at count
    have rounded : 2 ^ (53 + k) ≤ roundUnits num den :=
      two_pow_le_roundUnits (by omega) (by omega) nonzero
    exact iff_of_false (by omega) (by omega)

theorem log2_lt_iff {n k : Nat} (pos : 0 < k) : n.log2 < k ↔ n < 2 ^ k := by
  rcases Nat.eq_zero_or_pos n with rfl | some
  · exact iff_of_true (by simpa using pos) (Nat.two_pow_pos k)
  · exact Nat.log2_lt (by omega)

/-- A rounded count can be represented unless it reaches the units of the power of two beyond all
finite numbers. -/
theorem representable_roundUnits_iff (num : Nat) {den : Nat} (pos : 0 < den) :
    Representable (roundUnits num den) ↔ 2 * num < (2 ^ 54 - 1) * (den * 2 ^ 2045) := by
  have few : roundHalfEven num (den * 2 ^ lastBit num den) ≤ 2 ^ 53 :=
    (roundHalfEven_le _ _).trans (quotient_lt num den)
  have significant := significant_mul_two_pow few (lastBit num den)
  rw [← roundUnits_eq] at significant
  rw [← roundUnits_lt_iff num pos, ← log2_lt_iff (by decide)]
  exact and_iff_left significant

theorem isFinite_ofUnits_iff (negative : Bool) (num : Nat) {den : Nat} (pos : 0 < den) :
    (ofUnits negative num den).isFinite = true ↔ 2 * num < (2 ^ 54 - 1) * (den * 2 ^ 2045) := by
  rw [← representable_roundUnits_iff num pos, ofUnits]
  split
  · next fits => exact iff_of_true rfl fits
  · next beyond => exact iff_of_false Bool.false_ne_true beyond

theorem ofUnits_ne_nan (negative : Bool) (num den : Nat) : ofUnits negative num den ≠ nan := by
  rw [ofUnits]
  split <;> nofun

/-! ### Decimal values -/

/-- A power of ten as a quotient of natural numbers. -/
theorem ten_zpow (exponent : Int) :
    (10 : ℚ) ^ exponent = 10 ^ exponent.toNat / 10 ^ (-exponent).toNat := by
  rcases Int.le_total 0 exponent with positive | negative
  · obtain ⟨k, rfl⟩ := Int.eq_ofNat_of_zero_le positive
    simp
  · obtain ⟨k, hk⟩ := Int.eq_ofNat_of_zero_le (Int.neg_nonneg_of_nonpos negative)
    obtain rfl : exponent = -k := by omega
    simp

theorem overflowValue_eq : overflowValue = (2 ^ 54 - 1) * 2 ^ 970 := by
  rw [overflowValue, sub_mul, one_mul, ← pow_add]

theorem cast_unitsPerOne : (unitsPerOne : ℚ) = 2 ^ 1074 := by
  unfold unitsPerOne
  generalize 1074 = k
  exact Nat.cast_pow 2 k

/-- A decimal value of so many units is below the limit just if its count is. -/
theorem units_lt_iff (digits : Nat) (exponent : Int) :
    2 * (digits * Nat.pow 10 exponent.toNat * unitsPerOne) <
        (2 ^ 54 - 1) * (Nat.pow 10 (-exponent).toNat * 2 ^ 2045) ↔
      (digits : ℚ) * 10 ^ exponent < overflowValue := by
  have steps : (2 : ℚ) ^ 2045 = 2 ^ 970 * (2 ^ 1074 * 2) := by
    rw [← pow_succ, ← pow_add]
  have bits : ((2 ^ 54 - 1 : Nat) : ℚ) = 2 ^ 54 - 1 := by norm_num
  have unit : (0 : ℚ) < 2 ^ 1074 * 2 := by positivity
  have down : (0 : ℚ) < 10 ^ (-exponent).toNat := by positivity
  rw [ten_zpow, overflowValue_eq, ← mul_div_assoc, div_lt_iff₀ down, ← @Nat.cast_lt ℚ]
  refine Iff.trans ?_ (mul_lt_mul_iff_left₀ unit)
  simp only [Nat.pow_eq, Nat.cast_mul, Nat.cast_pow, Nat.cast_ofNat, cast_unitsPerOne, steps, bits]
  -- The powers of two are never evaluated.
  generalize (2 : ℚ) ^ 1074 = u
  generalize (2 : ℚ) ^ 970 = v
  ring_nf

/-- Digits have at most as many decimal places as their bits ask for. -/
theorem lt_ten_pow (digits : Nat) : digits < 10 ^ (digits.log2 / 3 + 1) := by
  calc digits < 2 ^ (digits.log2 + 1) := Nat.lt_log2_self
    _ ≤ 2 ^ (3 * (digits.log2 / 3 + 1)) := Nat.pow_le_pow_right (by decide) (by omega)
    _ = 8 ^ (digits.log2 / 3 + 1) := Nat.pow_mul 2 3 _
    _ ≤ 10 ^ (digits.log2 / 3 + 1) := Nat.pow_le_pow_left (by decide) _

theorem overflowValue_le : overflowValue ≤ 10 ^ (311 : Int) := by
  have power : 2 ^ 1024 ≤ 10 ^ 311 := by decide +kernel
  calc overflowValue ≤ 2 ^ 1024 := sub_le_self _ (by positivity)
    _ ≤ 10 ^ 311 := by exact_mod_cast power
    _ = 10 ^ (311 : Int) := (zpow_natCast 10 311).symm

/-- Less than half a unit is rounded to none. -/
theorem roundUnits_eq_zero {num den : Nat} (small : 2 * num < den) : roundUnits num den = 0 := by
  have none : num / den = 0 := Nat.div_eq_of_lt (by omega)
  have last : lastBit num den = 0 := by rw [lastBit, none, Nat.log2_zero]
  rw [roundUnits_eq, last, Nat.pow_zero, Nat.mul_one, Nat.mul_one, roundHalfEven, none,
    Nat.mod_eq_of_lt (by omega), if_pos small]

theorem ofUnits_eq_finite (negative : Bool) {num den units : Nat} (fits : Representable units)
    (rounded : roundUnits num den = units) :
    ofUnits negative num den = .finite negative units fits := by
  subst rounded
  exact dif_pos fits

theorem ofUnits_eq_infinite (negative : Bool) {num den : Nat}
    (beyond : ¬ Representable (roundUnits num den)) :
    ofUnits negative num den = .infinite negative :=
  dif_neg beyond

/-- So small a decimal value is less than half a unit. -/
theorem two_mul_units_lt {digits : Nat} {exponent : Int}
    (tiny : (digits : ℚ) * 10 ^ exponent < 10 ^ (-325 : Int)) :
    2 * (digits * Nat.pow 10 exponent.toNat * unitsPerOne) < Nat.pow 10 (-exponent).toNat := by
  have power : 2 * 2 ^ 1074 ≤ 10 ^ 325 := by decide +kernel
  have half : (2 : ℚ) * 2 ^ 1074 ≤ 10 ^ 325 := by exact_mod_cast power
  have down : (0 : ℚ) < 10 ^ (-exponent).toNat := by positivity
  have unit : (0 : ℚ) < 2 * 2 ^ 1074 := by positivity
  rw [ten_zpow, ← mul_div_assoc, div_lt_iff₀ down, zpow_neg, zpow_ofNat] at tiny
  rw [← @Nat.cast_lt ℚ]
  simp only [Nat.pow_eq, Nat.cast_mul, Nat.cast_pow, Nat.cast_ofNat, cast_unitsPerOne]
  calc (2 : ℚ) * (digits * 10 ^ exponent.toNat * 2 ^ 1074)
      = digits * 10 ^ exponent.toNat * (2 * 2 ^ 1074) := mul_left_comm _ _ _
    _ < (10 ^ 325)⁻¹ * 10 ^ (-exponent).toNat * (2 * 2 ^ 1074) :=
        mul_lt_mul_of_pos_right tiny unit
    _ ≤ (10 ^ 325)⁻¹ * 10 ^ (-exponent).toNat * 10 ^ 325 :=
        mul_le_mul_of_nonneg_left half (by positivity)
    _ = 10 ^ (-exponent).toNat := by rw [mul_right_comm, inv_mul_cancel₀ (by positivity), one_mul]

/-- Where powers of ten are cut short, the result is the same as that of the whole quotient. -/
theorem ofDecimal_eq_ofUnits (negative : Bool) (digits : Nat) (exponent : Int) :
    ofDecimal negative digits exponent =
      ofUnits negative (digits * Nat.pow 10 exponent.toNat * unitsPerOne)
        (Nat.pow 10 (-exponent).toNat) := by
  have scale : (0 : ℚ) < 10 ^ exponent := zpow_pos (by norm_num) exponent
  have down : 0 < Nat.pow 10 (-exponent).toNat := Nat.pow_pos (by decide)
  unfold ofDecimal
  split
  · next zero =>
    refine (ofUnits_eq_finite negative (by decide) (roundUnits_eq_zero ?_)).symm
    rwa [zero, Nat.zero_mul, Nat.zero_mul]
  split
  · next nonzero large =>
    -- One digit and so large a power of ten are beyond the limit.
    have one : (1 : ℚ) ≤ digits := by exact_mod_cast Nat.one_le_iff_ne_zero.2 nonzero
    have beyond : overflowValue ≤ digits * 10 ^ exponent :=
      calc overflowValue ≤ 10 ^ (311 : Int) := overflowValue_le
        _ ≤ 10 ^ exponent := zpow_le_zpow_right₀ (by norm_num) (by omega)
        _ ≤ digits * 10 ^ exponent := le_mul_of_one_le_left scale.le one
    refine (ofUnits_eq_infinite negative fun fits => ?_).symm
    rw [representable_roundUnits_iff _ down, units_lt_iff] at fits
    exact absurd fits (not_lt.2 beyond)
  split
  · next small =>
    -- All digits stand so far behind the point that they make less than half a unit.
    have few : (digits : ℚ) < 10 ^ (digits.log2 / 3 + 1) := by exact_mod_cast lt_ten_pow digits
    have tiny : (digits : ℚ) * 10 ^ exponent < 10 ^ (-325 : Int) :=
      calc (digits : ℚ) * 10 ^ exponent
          < 10 ^ (digits.log2 / 3 + 1) * 10 ^ exponent := mul_lt_mul_of_pos_right few scale
        _ = 10 ^ (((digits.log2 / 3 + 1 : Nat) : Int) + exponent) := by
            rw [zpow_add₀ (by norm_num), zpow_natCast]
        _ ≤ 10 ^ (-325 : Int) := zpow_le_zpow_right₀ (by norm_num) (by omega)
    exact (ofUnits_eq_finite negative (by decide) (roundUnits_eq_zero (two_mul_units_lt tiny))).symm
  · rfl

/-- A decimal value reads as finite just below the limit. -/
theorem isFinite_ofDecimal_iff (negative : Bool) (digits : Nat) (exponent : Int) :
    (ofDecimal negative digits exponent).isFinite = true ↔
      (digits : ℚ) * 10 ^ exponent < overflowValue := by
  have down : 0 < Nat.pow 10 (-exponent).toNat := Nat.pow_pos (by decide)
  rw [ofDecimal_eq_ofUnits, isFinite_ofUnits_iff _ _ down, units_lt_iff]

theorem ofDecimal_ne_nan (negative : Bool) (digits : Nat) (exponent : Int) :
    ofDecimal negative digits exponent ≠ nan := by
  rw [ofDecimal_eq_ofUnits]
  exact ofUnits_ne_nan _ _ _

end Double

/-! ### Numerals -/

namespace Numeral

theorem abs_denoted (n : Numeral) :
    |n.denoted| = digitsValue (n.whole ++ n.fraction) * 10 ^ (n.exponent - n.fraction.length) := by
  have sign : |(if n.negative then -1 else 1 : ℚ)| = 1 := by
    split <;> simp
  rw [denoted, abs_mul, sign, one_mul, abs_of_nonneg (by positivity)]

/-- A numeral reads as finite just if what it denotes is below the limit on both sides of zero. -/
theorem isFinite_value_iff (n : Numeral) :
    n.value.isFinite = true ↔ |n.denoted| < overflowValue := by
  rw [abs_denoted, value, Double.isFinite_ofDecimal_iff]

/-- A numeral never reads as what is not a number. -/
theorem value_ne_nan (n : Numeral) : n.value ≠ .nan :=
  Double.ofDecimal_ne_nan _ _ _

end Numeral

end WardleyMaps
