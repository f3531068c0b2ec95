/-
Module: WardleyMaps.Proofs.Number.Exact
Purpose: Exact values of binary numbers, and rational numbers that are written with a fixed number
  of places and read again.
Main exports: Double.toRat?, fixedRational, readRational?, exists_readRational?_fixedRational,
  Double.readRational?_fixed, Double.sub_two_mul_le_zero_iff
-/
import WardleyMaps.Proofs.Number.Range
import WardleyMaps.Proofs.Number.Written

namespace WardleyMaps

/-!
Writing rounds the exact value of a number, so it is told for rational numbers as well
(`fixedRational`); what is written of a binary number denotes what is written of its exact value
(`Double.readRational?_fixed`). A numeral with a fixed number of places denotes a number that is at
most half a unit of its last place away from what was written
(`exists_readRational?_fixedRational`). Subtracting binary numbers rounds the difference but keeps
on which side of zero it is (`Double.sub_two_mul_le_zero_iff`).
-/

/-- The rational number that a finite binary number is. -/
def Double.toRat? : Double → Option ℚ
  | .finite negative units _ => some (signed negative units / unitsPerOne)
  | _ => none

/-- A quotient with a sign, written with a fixed number of places. -/
def fixedQuotient (places : Nat) (negative : Bool) (num den : Nat) : Text :=
  (if negative then ['-'] else []) ++ writePlaces places (roundHalfEven (num * 10 ^ places) den)

/-- A rational number, written with a fixed number of places. -/
def fixedRational (places : Nat) (q : ℚ) : Text :=
  fixedQuotient places (q < 0) q.num.natAbs q.den

/-- The number that a whole text denotes as a numeral, before any rounding. -/
def readRational? (t : Text) : Option ℚ :=
  match Numeral.scan t with
  | some (n, []) => some n.denoted
  | _ => none

/-! ### Rounding quotients -/

/-- The rounded quotient is at most a half away. -/
theorem abs_roundHalfEven_sub_le (num : Nat) {den : Nat} (pos : 0 < den) :
    |(roundHalfEven num den : ℚ) - num / den| ≤ 1 / 2 := by
  have unit : (0 : ℚ) < den := by exact_mod_cast pos
  have above : (2 : ℚ) * (roundHalfEven num den * den) ≤ 2 * num + den := by
    exact_mod_cast two_mul_roundHalfEven_le num pos
  have below : (2 : ℚ) * num ≤ 2 * (roundHalfEven num den * den) + den := by
    exact_mod_cast le_two_mul_roundHalfEven num pos
  rw [abs_sub_le_iff, sub_le_iff_le_add, sub_le_iff_le_add, ← sub_le_iff_le_add', div_le_iff₀ unit,
    le_div_iff₀ unit]
  constructor <;> linarith

theorem roundHalfEven_mul_right (num den : Nat) {k : Nat} (pos : 0 < k) :
    roundHalfEven (num * k) (den * k) = roundHalfEven num den := by
  have below : 2 * (num % den * k) < den * k ↔ 2 * (num % den) < den := by
    rw [← Nat.mul_assoc, Nat.mul_lt_mul_right pos]
  have above : den * k < 2 * (num % den * k) ↔ den < 2 * (num % den) := by
    rw [← Nat.mul_assoc, Nat.mul_lt_mul_right pos]
  unfold roundHalfEven
  simp only [Nat.mul_div_mul_right _ _ pos, Nat.mul_mod_mul_right, below, above]

/-- Equal quotients are rounded to the same number. -/
theorem roundHalfEven_congr {num den num' den' : Nat} (pos : 0 < den) (pos' : 0 < den')
    (same : num * den' = num' * den) : roundHalfEven num den = roundHalfEven num' den' := by
  rw [← roundHalfEven_mul_right num den pos', same, Nat.mul_comm den,
    roundHalfEven_mul_right _ _ pos]

/-! ### Written rational numbers -/

/-- A written quotient denotes the rounded one. -/
theorem readRational?_fixedQuotient (places : Nat) (negative : Bool) (num den : Nat) :
    readRational? (fixedQuotient places negative num den) =
      some ((if negative then -1 else 1) *
        ((roundHalfEven (num * 10 ^ places) den : ℚ) / 10 ^ places)) := by
  obtain ⟨n, scanned, sign, digits, exponent⟩ :=
    scan_writePlaces negative places (roundHalfEven (num * 10 ^ places) den)
  rw [readRational?, fixedQuotient, scanned]
  simp only [Numeral.denoted, sign, digits, exponent, zpow_neg, zpow_natCast, div_eq_mul_inv]

theorem natAbs_div_den (q : ℚ) : (q.num.natAbs : ℚ) / q.den = |q| := by
  conv_rhs => rw [← Rat.num_div_den q, abs_div, Nat.abs_cast, ← Int.cast_abs]
  rw [Nat.cast_natAbs]

theorem abs_sign_mul_quotient (negative : Bool) (num den : Nat) :
    |(if negative then -1 else 1) * ((num : ℚ) / den)| = num / den := by
  have magnitude : (0 : ℚ) ≤ num / den := by positivity
  cases negative <;> simp [abs_of_nonneg magnitude]

/-- A rational number as a sign and a quotient of natural numbers. -/
theorem sign_mul_quotient (q : ℚ) :
    (if decide (q < 0) then -1 else 1) * ((q.num.natAbs : ℚ) / q.den) = q := by
  rw [natAbs_div_den]
  by_cases negative : q < 0
  · simp [negative, abs_of_neg negative]
  · simp [negative, abs_of_nonneg (not_lt.1 negative)]

/-- What is written of a rational number denotes a number that is at most half a unit of the last
place away from it. -/
theorem exists_readRational?_fixedRational (places : Nat) (q : ℚ) :
    ∃ r, readRational? (fixedRational places q) = some r ∧ |r - q| ≤ 1 / 10 ^ places / 2 := by
  refine ⟨_, readRational?_fixedQuotient _ _ _ _, ?_⟩
  have scale : (0 : ℚ) < 10 ^ places := by positivity
  have near := abs_roundHalfEven_sub_le (q.num.natAbs * 10 ^ places) q.den_pos
  have sign : |(if decide (q < 0) then -1 else 1 : ℚ)| = 1 := by
    split <;> simp
  have value := sign_mul_quotient q
  generalize (if decide (q < 0) then -1 else 1 : ℚ) = s at sign value ⊢
  generalize roundHalfEven (q.num.natAbs * 10 ^ places) q.den = scaled at near ⊢
  calc |s * ((scaled : ℚ) / 10 ^ places) - q|
      = |s * ((scaled : ℚ) / 10 ^ places - q.num.natAbs / q.den)| := by rw [mul_sub, value]
    _ = |(scaled : ℚ) / 10 ^ places - q.num.natAbs / q.den| := by rw [abs_mul, sign, one_mul]
    _ = |((scaled : ℚ) - (q.num.natAbs * 10 ^ places : Nat) / q.den) / 10 ^ places| := by
        congr 1
        push_cast
        field_simp
    _ = |(scaled : ℚ) - (q.num.natAbs * 10 ^ places : Nat) / q.den| / 10 ^ places := by
        rw [abs_div, abs_of_pos scale]
    _ ≤ 1 / 2 / 10 ^ places := div_le_div_of_nonneg_right near scale.le
    _ = 1 / 10 ^ places / 2 := div_right_comm _ _ _

/-- A quotient with a sign is written like the rational number that it is. Only the sign of zero may
differ, and zero denotes the same with either sign. -/
theorem readRational?_fixedQuotient_eq (places : Nat) (negative : Bool) (num : Nat) {den : Nat}
    (pos : 0 < den) :
    readRational? (fixedQuotient places negative num den) =
      readRational? (fixedRational places ((if negative then -1 else 1) * (num / den))) := by
  have unit : (0 : ℚ) < den := by exact_mod_cast pos
  rw [fixedRational, readRational?_fixedQuotient, readRational?_fixedQuotient]
  generalize whole : (if negative then -1 else 1) * ((num : ℚ) / den) = q
  have size : (q.num.natAbs : ℚ) / q.den = num / den := by
    rw [natAbs_div_den, ← whole, abs_sign_mul_quotient]
  have rounded : roundHalfEven (q.num.natAbs * 10 ^ places) q.den =
      roundHalfEven (num * 10 ^ places) den := by
    refine roundHalfEven_congr q.den_pos pos ?_
    rw [div_eq_div_iff (by exact_mod_cast q.den_nz) unit.ne'] at size
    have crossed : q.num.natAbs * den = num * q.den := by exact_mod_cast size
    rw [Nat.mul_right_comm, crossed, Nat.mul_right_comm]
  rw [rounded]
  -- The signs are the same, except that the rational zero has none.
  rcases Nat.eq_zero_or_pos num with rfl | some
  · simp [roundHalfEven, pos]
  · have magnitude : (0 : ℚ) < num / den := div_pos (by exact_mod_cast some) unit
    have sign : decide (q < 0) = negative := by
      rw [← whole]
      cases negative
      · simpa using magnitude.le
      · simpa using magnitude
    rw [sign]

namespace Double

theorem zero_eq : (0 : Double) = zero false := by
  decide +kernel

theorem cast_signed (negative : Bool) (units : Nat) :
    (signed negative units : ℚ) = (if negative then -1 else 1) * units := by
  cases negative <;> simp [signed]

/-- What is written of a binary number denotes what is written of its exact value. -/
theorem readRational?_fixed (places : Nat) {x : Double} {q : ℚ} (value : x.toRat? = some q) :
    readRational? (x.fixed places) = readRational? (fixedRational places q) := by
  cases x with
  | infinite negative => cases value
  | nan => cases value
  | finite negative units fits =>
      have written : (finite negative units fits).fixed places =
          fixedQuotient places negative units unitsPerOne :=
        fixed_finite places negative units fits
      obtain rfl : signed negative units / unitsPerOne = q := Option.some.inj value
      rw [written, readRational?_fixedQuotient_eq _ _ _ unitsPerOne_pos, cast_signed, mul_div_assoc]

/-! ### On which side of zero a difference is -/

/-- A count that is significant is not changed by rounding. -/
theorem roundUnits_mul_self {units den : Nat} (pos : 0 < den)
    (significant : 2 ^ (units.log2 - 52) ∣ units) : roundUnits (units * den) den = units := by
  have last : lastBit (units * den) den = units.log2 - 52 := by
    rw [lastBit, Nat.mul_div_cancel _ pos]
  obtain ⟨k, whole⟩ := significant
  have quotient : units * den = k * (den * 2 ^ (units.log2 - 52)) := by
    conv_lhs => rw [whole]
    ring
  rw [roundUnits_eq, last, quotient,
    roundHalfEven_mul _ (Nat.mul_pos pos (Nat.two_pow_pos _)), Nat.mul_comm, ← whole]

/-- A positive count is not rounded to zero. -/
theorem roundUnits_pos {num den : Nat} (pos : num / den ≠ 0) : 0 < roundUnits num den := by
  have step : 2 ^ lastBit num den ≤ num / den :=
    (Nat.pow_le_pow_right (by decide) (Nat.sub_le _ _)).trans (Nat.log2_self_le pos)
  have whole : 1 ≤ num / (den * 2 ^ lastBit num den) := by
    rw [← Nat.div_div_eq_div_mul]
    exact Nat.div_pos step (Nat.two_pow_pos _)
  rw [roundUnits_eq]
  exact Nat.mul_pos (whole.trans (div_le_roundHalfEven _ _)) (Nat.two_pow_pos _)

/-- Twice a count has as many significant bits. -/
theorem significant_two_mul {units : Nat} (significant : 2 ^ (units.log2 - 52) ∣ units) :
    2 ^ ((2 * units).log2 - 52) ∣ 2 * units := by
  rcases Nat.eq_zero_or_pos units with rfl | some
  · simp
  · rw [Nat.log2_two_mul (by omega)]
    calc 2 ^ (units.log2 + 1 - 52) ∣ 2 ^ (units.log2 - 52 + 1) := Nat.pow_dvd_pow 2 (by omega)
      _ = 2 * 2 ^ (units.log2 - 52) := Nat.pow_succ'
      _ ∣ 2 * units := Nat.mul_dvd_mul_left 2 significant

/-- Doubling is exact, or goes beyond all finite numbers. -/
theorem two_mul_finite (negative : Bool) {units : Nat} (fits : Representable units) :
    2 * finite negative units fits =
      if more : Representable (2 * units) then finite negative (2 * units) more
      else infinite negative := by
  have two : (2 : Double) = finite false (2 * unitsPerOne) (by decide +kernel) := by
    decide +kernel
  have count : roundUnits (2 * unitsPerOne * units) unitsPerOne = 2 * units := by
    rw [Nat.mul_right_comm, roundUnits_mul_self unitsPerOne_pos (significant_two_mul fits.2)]
  rw [two]
  change ofUnits (false != negative) (2 * unitsPerOne * units) unitsPerOne = _
  rw [Bool.false_bne, ofUnits]
  simp only [count]

/-- A rounded count that is not zero keeps its sign. -/
theorem ofUnits_le_zero (negative : Bool) {units : Nat} (some : units ≠ 0) :
    (ofUnits negative units 1).le (zero false) = negative := by
  have pos : 0 < roundUnits units 1 := roundUnits_pos (by simpa using some)
  unfold ofUnits
  dsimp only
  generalize roundUnits units 1 = rounded at pos
  split
  · cases negative
    · simpa [le, zero, signed] using pos.ne'
    · simp [le, zero, signed]
  · rfl

/-- A rounded sum is on the same side of zero as the exact one. -/
theorem add_finite_le_zero_iff {s t : Bool} {m n : Nat} (fits : Representable m)
    (fits' : Representable n) :
    (finite s m fits + finite t n fits').le 0 = true ↔ signed s m + signed t n ≤ 0 := by
  change (add (finite s m fits) (finite t n fits')).le 0 = true ↔ _
  rw [add, zero_eq]
  split
  · next none =>
    rw [none]
    cases s && t <;> decide
  · next some =>
    rw [ofUnits_le_zero _ (by omega), decide_eq_true_iff]
    omega

/-- Subtracting twice a number: the rounded difference is on the same side of zero as the exact
one, even where doubling goes beyond all finite numbers. -/
theorem sub_two_mul_le_zero_iff {a b : Double} {p q : ℚ} (value : a.toRat? = some p)
    (value' : b.toRat? = some q) : (a - 2 * b).le 0 = true ↔ p - 2 * q ≤ 0 := by
  cases a with
  | infinite negative => cases value
  | nan => cases value
  | finite s m fits =>
    cases b with
    | infinite negative => cases value'
    | nan => cases value'
    | finite t n fits' =>
      have unit : (0 : ℚ) < unitsPerOne := by exact_mod_cast unitsPerOne_pos
      obtain rfl : signed s m / unitsPerOne = p := Option.some.inj value
      obtain rfl : signed t n / unitsPerOne = q := Option.some.inj value'
      have sides : (signed s m / unitsPerOne - 2 * (signed t n / unitsPerOne) : ℚ) ≤ 0 ↔
          signed s m + signed (!t) (2 * n) ≤ 0 := by
        have other : signed (!t) (2 * n) = -(2 * signed t n) := by
          cases t <;> simp [signed]
        rw [← mul_div_assoc, ← sub_div, div_le_iff₀ unit, zero_mul, other]
        exact_mod_cast Iff.rfl
      rw [sides, two_mul_finite]
      split
      · next more => exact add_finite_le_zero_iff fits more
      · next beyond =>
        -- Then twice the second count outweighs every finite one.
        have large : m < 2 * n := by
          have least : 2 ^ 2098 ≤ 2 * n := by
            by_contra less
            exact beyond ⟨(log2_lt_iff (by decide)).2 (by omega), significant_two_mul fits'.2⟩
          exact ((log2_lt_iff (by decide)).1 fits.1).trans_le least
        cases t
        · refine iff_of_true (by rw [zero_eq]; rfl) ?_
          cases s <;> simp [signed] <;> omega
        · refine iff_of_false (by rw [zero_eq]; exact Bool.false_ne_true) ?_
          cases s <;> simp [signed] <;> omega

end Double

end WardleyMaps
