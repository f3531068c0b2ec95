/-
Module: WardleyMaps.Proofs.Number.Interval
Purpose: The decimal values that read as a given binary number.
Main exports: RoundingInterval.Admits, Double.roundUnits_of_admits, RoundingInterval.holds_congr,
  Double.ofDecimal_of_holds
-/
import WardleyMaps.Number.Shortest
import WardleyMaps.Proofs.Number.Range

namespace WardleyMaps

/-!
The interval of a count of units reaches to the midpoints between it and its neighbours, so a
quotient in it is rounded to this count (`Double.roundUnits_of_admits`). Only below a power of two
the last bit that is kept of the quotient is not that of the count. Whether a decimal value lies in
the interval depends on the value alone (`RoundingInterval.holds_congr`), and no value in it is so
large or so small that its power of ten is cut short. So every numeral for such a value reads as the
number itself (`Double.ofDecimal_of_holds`).
-/

/-- The distance from a count of units to the next larger one. -/
def spacing (units : Nat) : Nat :=
  2 ^ (units.log2 - 52)

theorem spacing_pos (units : Nat) : 0 < spacing units :=
  Nat.two_pow_pos _

/-- The significand of a count, and the power of two that its bits begin with. -/
theorem Representable.exists_significand {units : Nat} (fits : Representable units) :
    ∃ m, units = m * spacing units := by
  obtain ⟨m, whole⟩ := fits.2
  exact ⟨m, whole.trans (Nat.mul_comm _ _)⟩

theorem significand_mul {units m : Nat} (whole : units = m * spacing units) (den : Nat) :
    m * (den * spacing units) = units * den := by
  conv_rhs => rw [whole]
  ring

/-- The next count is not beyond the next power of two. -/
theorem Representable.add_spacing_le {units : Nat} (fits : Representable units) :
    units + spacing units ≤ 2 ^ (units.log2 + 1) := by
  obtain ⟨m, whole⟩ := fits.exists_significand
  have bits : 2 ^ (units.log2 + 1) = 2 ^ (units.log2 + 1 - (units.log2 - 52)) * spacing units := by
    rw [spacing, ← Nat.pow_add]
    congr 1
    omega
  have below : m * spacing units < 2 ^ (units.log2 + 1 - (units.log2 - 52)) * spacing units := by
    rw [← whole, ← bits]
    exact Nat.lt_log2_self
  have next : m + 1 ≤ 2 ^ (units.log2 + 1 - (units.log2 - 52)) :=
    Nat.lt_of_mul_lt_mul_right below
  calc units + spacing units = (m + 1) * spacing units := by rw [Nat.succ_mul, ← whole]
    _ ≤ 2 ^ (units.log2 + 1) := bits ▸ Nat.mul_le_mul_right _ next

/-! ### Quotients in an interval -/

/-- Whether a quotient of natural numbers lies in an interval. -/
def RoundingInterval.Admits (i : RoundingInterval) (num den : Nat) : Prop :=
  i.low * den ≤ 4 * num ∧ 4 * num ≤ i.high * den ∧
    (i.closed = false → i.low * den ≠ 4 * num ∧ 4 * num ≠ i.high * den)

namespace RoundingInterval

theorem high_of (units : Nat) : (of units).high = 4 * units + 2 * spacing units :=
  rfl

theorem closed_of (units : Nat) : (of units).closed = decide (units / spacing units % 2 = 0) :=
  rfl

theorem low_of (units : Nat) :
    (of units).low =
      if 1 < spacing units ∧ units = 2 ^ 52 * spacing units then 4 * units - spacing units
      else 4 * units - 2 * spacing units := by
  have lowest : (decide (1 < spacing units) && decide (units = 2 ^ 52 * spacing units)) = true ↔
      1 < spacing units ∧ units = 2 ^ 52 * spacing units := by simp
  exact if_congr lowest rfl rfl

theorem le_low_add (units : Nat) : 4 * units ≤ (of units).low + 2 * spacing units := by
  rw [low_of]
  split <;> omega

/-- Whether a rational number of units lies in an interval. -/
def Includes (i : RoundingInterval) (x : ℚ) : Prop :=
  (i.low : ℚ) ≤ 4 * x ∧ 4 * x ≤ i.high ∧
    (i.closed = false → (i.low : ℚ) ≠ 4 * x ∧ 4 * x ≠ i.high)

theorem admits_iff_includes {i : RoundingInterval} {num den : Nat} (pos : 0 < den) :
    i.Admits num den ↔ i.Includes ((num : ℚ) / den) := by
  have nonzero : (0 : ℚ) < den := by exact_mod_cast pos
  unfold Admits Includes
  rw [← mul_div_assoc, le_div_iff₀ nonzero, div_le_iff₀ nonzero]
  simp only [ne_eq, eq_div_iff nonzero.ne', div_eq_iff nonzero.ne']
  norm_cast

theorem holds_iff_admits {i : RoundingInterval} {digits : Nat} {exponent : Int} :
    i.holds digits exponent = true ↔
      i.Admits (digits * 10 ^ exponent.toNat * unitsPerOne) (10 ^ (-exponent).toNat) := by
  have quarters : digits * 10 ^ exponent.toNat * (4 * unitsPerOne) =
      4 * (digits * 10 ^ exponent.toNat * unitsPerOne) := by ring
  unfold holds Admits
  simp only [Nat.pow_eq, quarters]
  cases i.closed with
  | true => simp
  | false =>
      simp only [Bool.false_eq_true, if_false, Bool.and_eq_true, decide_eq_true_eq, true_imp_iff]
      omega

/-- The digits and the power of ten of a value are told in units as a quotient. -/
theorem cast_units_div (digits : Nat) (exponent : Int) :
    ((digits * 10 ^ exponent.toNat * unitsPerOne : Nat) : ℚ) / (10 ^ (-exponent).toNat : Nat) =
      digits * 10 ^ exponent * 2 ^ 1074 := by
  rw [Double.ten_zpow, Nat.cast_mul, Double.cast_unitsPerOne]
  push_cast
  rw [mul_div_right_comm, mul_div_assoc]

/-- A value in an interval may be written with other digits and another power of ten. -/
theorem holds_congr {i : RoundingInterval} {digits digits' : Nat} {exponent exponent' : Int}
    (same : (digits : ℚ) * 10 ^ exponent = digits' * 10 ^ exponent')
    (held : i.holds digits exponent = true) : i.holds digits' exponent' = true := by
  have down (e : Int) : 0 < 10 ^ (-e).toNat := Nat.pow_pos (by decide)
  rw [holds_iff_admits, admits_iff_includes (down _), cast_units_div] at held ⊢
  rwa [← same]

section

variable {units num den : Nat}

theorem low_mul_add (units den : Nat) :
    4 * (units * den) ≤ (of units).low * den + 2 * (den * spacing units) := by
  have := Nat.mul_le_mul_right den (le_low_add units)
  rwa [Nat.add_mul, Nat.mul_assoc, Nat.mul_assoc, Nat.mul_comm (spacing units)] at this

theorem high_mul (units den : Nat) :
    (of units).high * den = 4 * (units * den) + 2 * (den * spacing units) := by
  rw [high_of, Nat.add_mul, Nat.mul_assoc, Nat.mul_assoc, Nat.mul_comm (spacing units)]

/-- What lies in the interval of a count differs from it by at most a half of its last bit. -/
theorem Admits.near (admits : (of units).Admits num den) :
    2 * (units * den) ≤ 2 * num + den * spacing units ∧
      2 * num ≤ 2 * (units * den) + den * spacing units := by
  obtain ⟨above, below, -⟩ := admits
  have lower := low_mul_add units den
  rw [high_mul] at below
  omega

/-- An odd count does not get the midpoints. -/
theorem Admits.ne_middle (admits : (of units).Admits num den)
    (odd : units / spacing units % 2 = 1) :
    2 * (units * den) ≠ 2 * num + den * spacing units ∧
      2 * num ≠ 2 * (units * den) + den * spacing units := by
  obtain ⟨above, below, strict⟩ := admits
  have isOpen : (of units).closed = false := by
    rw [closed_of]
    simp [odd]
  have apart := strict isOpen
  have lower := low_mul_add units den
  rw [high_mul] at apart
  omega

/-- Below a power of two the interval reaches only half as far. -/
theorem Admits.nearer (admits : (of units).Admits num den) (coarse : 1 < spacing units)
    (power : units = 2 ^ 52 * spacing units) :
    4 * (units * den) ≤ 4 * num + den * spacing units := by
  have next : 4 * units ≤ (of units).low + spacing units := by
    rw [low_of, if_pos ⟨coarse, power⟩]
    omega
  have above := admits.1
  have := Nat.mul_le_mul_right den next
  rw [Nat.add_mul, Nat.mul_assoc, Nat.mul_comm (spacing units)] at this
  omega

end

end RoundingInterval

/-- A quotient that is at most a half away from a whole number is rounded to it, and if it is just a
half away, the number must be even. -/
theorem roundHalfEven_eq_of_near {num den m : Nat} (above : 2 * (m * den) ≤ 2 * num + den)
    (below : 2 * num ≤ 2 * (m * den) + den) (pos : 0 < den)
    (tie : m % 2 = 1 → 2 * (m * den) ≠ 2 * num + den ∧ 2 * num ≠ 2 * (m * den) + den) :
    roundHalfEven num den = m := by
  have parts := Nat.div_add_mod' num den
  have rest := Nat.mod_lt num pos
  have least : num / den ≤ m := by
    by_contra more
    have := Nat.mul_le_mul_right den (Nat.lt_of_not_le more)
    rw [Nat.succ_mul] at this
    omega
  have most : m ≤ num / den + 1 := by
    by_contra more
    have := Nat.mul_le_mul_right den (Nat.lt_of_not_le more)
    rw [Nat.succ_mul, Nat.succ_mul] at this
    omega
  unfold roundHalfEven
  dsimp only
  rcases Nat.lt_or_eq_of_le most with lower | rfl
  · obtain rfl : m = num / den := by omega
    split
    · rfl
    · split
      · omega
      · split <;> omega
  · have next : (num / den + 1) * den = num / den * den + den := Nat.succ_mul _ _
    split
    · omega
    · split
      · rfl
      · split <;> omega

namespace Double

/-- Just below a power of two a quotient is rounded to it where the next smaller count is farther.
-/
theorem roundUnits_below_two_pow {num den : Nat} (pos : 0 < den) (k : Nat)
    (below : num < 2 ^ (53 + k) * den)
    (near : 2 * (2 ^ (53 + k) * den) ≤ 2 * num + den * 2 ^ k) :
    roundUnits num den = 2 ^ (53 + k) := by
  have product : 2 ^ 53 * (den * 2 ^ k) = 2 ^ (53 + k) * den := by
    rw [Nat.pow_add]
    ring
  have half : 2 ^ (52 + k) * den = 2 ^ 52 * (den * 2 ^ k) := by
    rw [Nat.pow_add]
    ring
  have short : num / den < 2 ^ (53 + k) := (Nat.div_lt_iff_lt_mul pos).2 below
  have long : 2 ^ (52 + k) ≤ num / den := by
    rw [Nat.le_div_iff_mul_le pos]
    omega
  have last : lastBit num den = k := by
    have nonzero : num / den ≠ 0 := ((Nat.two_pow_pos _).trans_le long).ne'
    have least := (Nat.le_log2 nonzero).2 long
    have most := (Nat.log2_lt nonzero).2 short
    unfold lastBit
    omega
  rw [roundUnits_eq, last, roundHalfEven_eq_of_near (m := 2 ^ 53), ← Nat.pow_add]
  · omega
  · omega
  · exact Nat.mul_pos pos (Nat.two_pow_pos k)
  · exact fun odd => absurd odd (by decide)

section

variable {units num den : Nat} (fits : Representable units) (pos : 0 < den)
  (admits : (RoundingInterval.of units).Admits num den)

include fits pos admits

/-- What is rounded to a count stays below the next power of two, so that the last bit that is kept
of it is at most that of the count. -/
theorem lastBit_le_of_admits : lastBit num den ≤ units.log2 - 52 := by
  have near := admits.near
  have unit : 0 < den * spacing units := Nat.mul_pos pos (spacing_pos units)
  have next := Nat.mul_le_mul_right den fits.add_spacing_le
  rw [Nat.add_mul, Nat.mul_comm (spacing units)] at next
  have short : num / den < 2 ^ (units.log2 + 1) := by
    rw [Nat.div_lt_iff_lt_mul pos]
    omega
  have := (log2_lt_iff (Nat.succ_pos _)).2 short
  unfold lastBit
  omega

/-- The last bit that is kept of it is finer only if the count is a power of two. -/
theorem roundUnits_of_finer (finer : lastBit num den < units.log2 - 52) :
    roundUnits num den = units := by
  obtain ⟨k, level⟩ : ∃ k, units.log2 = 53 + k := ⟨units.log2 - 53, by omega⟩
  obtain ⟨m, whole⟩ := fits.exists_significand
  have step : spacing units = 2 * 2 ^ k := by
    rw [spacing, level, ← Nat.pow_succ']
    congr 1
    omega
  have power : 2 ^ (53 + k) = 2 ^ 52 * spacing units := by
    rw [step, Nat.pow_add]
    ring
  have under : num < 2 ^ (53 + k) * den := by
    rw [← Nat.div_lt_iff_lt_mul pos]
    by_contra reached
    have nonzero : num / den ≠ 0 := fun none => reached (none ▸ Nat.two_pow_pos _)
    have := (Nat.le_log2 nonzero).2 (Nat.le_of_not_lt reached)
    unfold lastBit at finer
    omega
  have least : 2 ^ 52 ≤ m := by
    have nonzero : units ≠ 0 := by
      rintro rfl
      rw [Nat.log2_zero] at level
      omega
    refine Nat.le_of_mul_le_mul_right ?_ (spacing_pos units)
    rw [← power, ← whole, ← level]
    exact Nat.log2_self_le nonzero
  have most : m ≤ 2 ^ 52 := by
    by_contra more
    have near := admits.near.1
    have product : m * (den * spacing units) = units * den := significand_mul whole den
    have bound : 2 ^ (53 + k) * den = 2 ^ 52 * (den * spacing units) := by
      rw [power]
      ring
    have := Nat.mul_le_mul_right (den * spacing units) (Nat.lt_of_not_le more)
    rw [Nat.succ_mul] at this
    omega
  obtain rfl := Nat.le_antisymm most least
  have coarse : 1 < spacing units := by
    have := Nat.two_pow_pos k
    omega
  have halves : den * spacing units = 2 * (den * 2 ^ k) := by
    rw [step]
    ring
  have nearer := admits.nearer coarse whole
  rw [halves, whole, ← power] at nearer
  rw [whole, ← power]
  exact roundUnits_below_two_pow pos k under (by omega)

/-- What lies between the midpoints to the two neighbours of a count is rounded to this count. -/
theorem roundUnits_of_admits : roundUnits num den = units := by
  rcases Nat.lt_or_eq_of_le (lastBit_le_of_admits fits pos admits) with finer | same
  · exact roundUnits_of_finer fits pos admits finer
  obtain ⟨m, whole⟩ := fits.exists_significand
  have kept : 2 ^ lastBit num den = spacing units := by rw [same, spacing]
  have product : m * (den * spacing units) = units * den := significand_mul whole den
  have significand : units / spacing units = m :=
    Nat.div_eq_of_eq_mul_left (spacing_pos units) whole
  obtain ⟨above, below⟩ := admits.near
  rw [← product] at above below
  have rounded : roundHalfEven num (den * spacing units) = m := by
    refine roundHalfEven_eq_of_near above below (Nat.mul_pos pos (spacing_pos units)) fun odd => ?_
    rw [product]
    exact admits.ne_middle (significand ▸ odd)
  rw [roundUnits_eq, kept, rounded, ← whole]

end

/-- Every decimal value in the interval of a count reads as the number with this count. -/
theorem ofDecimal_of_holds (negative : Bool) {units digits : Nat} {exponent : Int}
    (fits : Representable units)
    (held : (RoundingInterval.of units).holds digits exponent = true) :
    ofDecimal negative digits exponent = .finite negative units fits := by
  rw [ofDecimal_eq_ofUnits]
  exact ofUnits_eq_finite negative fits
    (roundUnits_of_admits fits (Nat.pow_pos (by decide)) (RoundingInterval.holds_iff_admits.1 held))

end Double

end WardleyMaps
