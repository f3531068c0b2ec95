/-
Module: WardleyMaps.Proofs.Number.Shortest
Purpose: The shortest numeral of a number denotes a value that reads as this number.
Main exports: Denotes, nearestOnGrid?_holds, exists_nearestOnGrid?, shortest_denotes
-/
import Mathlib.Data.List.TakeWhile
import WardleyMaps.Proofs.Number.Interval

namespace WardleyMaps

open Text

/-!
A grid finds a numeral only in the interval of a number (`nearestOnGrid?_holds`). The last grid,
that of seventeen digits, always finds one: it is finer than the interval of any number is wide
(`exists_nearestOnGrid?`). So the search ends with a numeral in the interval, and the zeros that are
left out of it do not change its value (`shortest_denotes`).
-/

/-! ### Rows of digits -/

theorem ten_pow_le_of_pos {n : Nat} (pos : 0 < n) : 10 ^ (digitCount n - 1) ≤ n := by
  rcases Nat.eq_zero_or_pos (digitCount n - 1) with one | more
  · rw [one]
    exact pos
  · have long : ¬ (Nat.toDigits 10 n).length ≤ digitCount n - 1 :=
      Nat.not_le.2 (Nat.sub_lt (by omega) one_pos)
    rw [Nat.length_toDigits_le_iff (by decide) more] at long
    exact Nat.le_of_not_lt long

/-- A positive number is written without zeros in front. -/
theorem head?_ofNat_ne_zero {n : Nat} (pos : 0 < n) : (ofNat n).head? ≠ some '0' := by
  induction n using Nat.strongRecOn with
  | _ n ih =>
      rw [ofNat, Nat.toDigits_eq_if (by decide)]
      split
      · simpa [Nat.digitChar_eq_zero] using pos.ne'
      · have earlier : (ofNat (n / 10)).head? ≠ some '0' := ih (n / 10) (by omega) (by omega)
        rwa [List.head?_append_of_ne_nil _ Nat.toDigits_ne_nil]

/-- Only zeros are left out at the end of a row. -/
theorem exists_dropZeros (row : Text) :
    ∃ zeros, row = dropZeros row ++ List.replicate zeros '0' := by
  refine ⟨(row.reverse.takeWhile (· = '0')).length, ?_⟩
  have zeros : row.reverse.takeWhile (· = '0') =
      List.replicate (row.reverse.takeWhile (· = '0')).length '0' :=
    List.eq_replicate_of_mem fun c mem => by simpa using List.mem_takeWhile_imp mem
  rw [dropZeros, ← List.reverse_replicate, ← zeros, ← List.reverse_append,
    List.takeWhile_append_dropWhile, List.reverse_reverse]

/-! ### Grids -/

namespace RoundingInterval

variable {units : Nat}

theorem low_le (units : Nat) : (of units).low ≤ 4 * units := by
  rw [low_of]
  split <;> omega

theorem low_pos (pos : 0 < units) : 0 < (of units).low := by
  have short : spacing units ≤ units :=
    (Nat.pow_le_pow_right (by decide) (Nat.sub_le _ _)).trans (Nat.log2_self_le pos.ne')
  rw [low_of]
  split <;> omega

theorem digits_pos_of_holds (pos : 0 < units) {digits : Nat} {exponent : Int}
    (held : (of units).holds digits exponent = true) : 0 < digits := by
  rw [Nat.pos_iff_ne_zero]
  rintro rfl
  have above := (holds_iff_admits.1 held).1
  rw [Nat.zero_mul, Nat.zero_mul, Nat.mul_zero, Nat.le_zero, Nat.mul_eq_zero] at above
  rcases above with none | none
  · exact (low_pos pos).ne' none
  · exact (Nat.pow_pos (by decide)).ne' none

/-- Next to its count an interval is so wide that seventeen digits tell its values apart. -/
theorem low_add_lt_high (fits : Representable units) :
    4 * units + (of units).low * 10 ^ 16 < (of units).high * 10 ^ 16 := by
  have some := spacing_pos units
  have most : units < 2 ^ 53 * spacing units := by
    have power : 2 ^ (units.log2 + 1) ≤ 2 ^ 53 * spacing units := by
      rw [spacing, ← Nat.pow_add]
      exact Nat.pow_le_pow_right (by decide) (by omega)
    have next := fits.add_spacing_le
    omega
  rw [high_of, low_of]
  split <;> omega

/-- Between the ends of an interval nothing is left out. -/
theorem admits_of_between {i : RoundingInterval} {num den : Nat} (above : i.low * den < 4 * num)
    (below : 4 * num < i.high * den) : i.Admits num den :=
  ⟨above.le, below.le, fun _ => ⟨above.ne, below.ne⟩⟩

/-- Of the two neighbours of a count on a grid that is fine enough, one lies in its interval. -/
theorem admits_neighbour {grid den count : Nat} (fits : Representable units) (pos : 0 < den)
    (fine : grid * 10 ^ 16 ≤ units * den) (least : count * grid ≤ units * den)
    (most : units * den < count * grid + grid) :
    (of units).Admits (count * grid) den ∨ (of units).Admits (count * grid + grid) den := by
  have unit : 0 < den * spacing units := Nat.mul_pos pos (spacing_pos units)
  have high := high_mul units den
  have low : (of units).low * den ≤ 4 * (units * den) := by
    rw [← Nat.mul_assoc]
    exact Nat.mul_le_mul_right den (low_le units)
  have wide : 4 * (units * den) + (of units).low * den * 10 ^ 16 <
      (of units).high * den * 10 ^ 16 := by
    have := Nat.mul_lt_mul_of_pos_right (low_add_lt_high fits) pos
    rwa [Nat.add_mul, Nat.mul_assoc, Nat.mul_right_comm _ _ den, Nat.mul_right_comm _ _ den] at this
  -- Otherwise the grid would step over the whole interval.
  by_contra neither
  obtain ⟨below, above⟩ := not_or.1 neither
  have stays : 4 * (count * grid) ≤ (of units).low * den := by
    by_contra more
    exact below (admits_of_between (by omega) (by omega))
  have passes : (of units).high * den ≤ 4 * (count * grid + grid) := by
    by_contra less
    exact above (admits_of_between (by omega) (by omega))
  omega

end RoundingInterval

section

variable {units : Nat} {i : RoundingInterval} {exponent : Int}

/-- What a grid finds lies in the interval. -/
theorem nearestOnGrid?_holds {digits : Nat}
    (found : nearestOnGrid? units i exponent = some digits) :
    i.holds digits exponent = true := by
  unfold nearestOnGrid? at found
  dsimp only at found
  generalize units * Nat.pow 10 (-exponent).toNat = num at found
  generalize unitsPerOne * Nat.pow 10 exponent.toNat = den at found
  split at found
  · next below above =>
    obtain rfl := Option.some.inj found
    have least := div_le_roundHalfEven num den
    have most := roundHalfEven_le num den
    rcases Nat.lt_or_eq_of_le most with lower | upper
    · rw [Nat.le_antisymm (Nat.le_of_lt_succ lower) least]
      exact below
    · rw [upper]
      exact above
  · next below _ => exact Option.some.inj found ▸ below
  · next above => exact Option.some.inj found ▸ above
  · exact absurd found (Option.some_ne_none _).symm

/-- A grid that is fine enough finds a numeral in the interval of a count. -/
theorem exists_nearestOnGrid? (fits : Representable units)
    (fine : unitsPerOne * 10 ^ exponent.toNat * 10 ^ 16 ≤ units * 10 ^ (-exponent).toNat) :
    ∃ digits, nearestOnGrid? units (RoundingInterval.of units) exponent = some digits := by
  have down : 0 < 10 ^ (-exponent).toNat := Nat.pow_pos (by decide)
  have grid : 0 < unitsPerOne * 10 ^ exponent.toNat :=
    Nat.mul_pos unitsPerOne_pos (Nat.pow_pos (by decide))
  have placed (count : Nat) : count * 10 ^ exponent.toNat * unitsPerOne =
      count * (unitsPerOne * 10 ^ exponent.toNat) := by
    rw [Nat.mul_assoc, Nat.mul_comm unitsPerOne]
  have neighbour := RoundingInterval.admits_neighbour fits down fine (Nat.div_mul_le_self _ _)
    (Nat.lt_div_mul_add grid)
  rw [← Nat.succ_mul, ← placed, ← placed, ← RoundingInterval.holds_iff_admits,
    ← RoundingInterval.holds_iff_admits] at neighbour
  unfold nearestOnGrid?
  dsimp only
  simp only [Nat.pow_eq]
  split
  · exact ⟨_, rfl⟩
  · exact ⟨_, rfl⟩
  · exact ⟨_, rfl⟩
  · next below above =>
    rw [below, above] at neighbour
    simp at neighbour

end

/-! ### The shortest numeral -/

/-- The leading digit of a count stands for a power of ten that the count reaches. -/
theorem ten_pow_leadingExponent_le {units : Nat} (pos : 0 < units) :
    (10 : ℚ) ^ leadingExponent units * 2 ^ 1074 ≤ units := by
  have scaled : 0 < units * Nat.pow 10 340 / unitsPerOne := by
    refine Nat.div_pos ?_ unitsPerOne_pos
    have power : unitsPerOne ≤ Nat.pow 10 340 := by decide +kernel
    exact power.trans (Nat.le_mul_of_pos_left _ pos)
  obtain ⟨k, level⟩ : ∃ k, digitCount (units * Nat.pow 10 340 / unitsPerOne) = k + 1 :=
    Nat.exists_eq_succ_of_ne_zero Nat.length_toDigits_pos.ne'
  have reached := ten_pow_le_of_pos scaled
  rw [level, Nat.add_sub_cancel, Nat.le_div_iff_mul_le unitsPerOne_pos, ← @Nat.cast_le ℚ] at reached
  simp only [Nat.pow_eq, Nat.cast_mul, Nat.cast_pow, Nat.cast_ofNat, Double.cast_unitsPerOne]
    at reached
  have exponent : leadingExponent units = k - (340 : Nat) := by
    rw [leadingExponent, level]
    omega
  rw [exponent, zpow_sub₀ (by norm_num), zpow_natCast, zpow_natCast, div_mul_eq_mul_div,
    div_le_iff₀ (by positivity)]
  exact reached

/-- The grid of seventeen digits is fine enough for a count. -/
theorem leadingExponent_fine {units : Nat} (pos : 0 < units) {exponent : Int}
    (last : exponent = leadingExponent units - 16) :
    unitsPerOne * 10 ^ exponent.toNat * 10 ^ 16 ≤ units * 10 ^ (-exponent).toNat := by
  have reached := ten_pow_leadingExponent_le pos
  have down : (0 : ℚ) < 10 ^ (-exponent).toNat := by positivity
  have whole : leadingExponent units = exponent + (16 : Nat) := by omega
  rw [whole, zpow_add₀ (by norm_num), zpow_natCast, Double.ten_zpow, div_mul_eq_mul_div,
    div_mul_eq_mul_div, div_le_iff₀ down] at reached
  rw [← @Nat.cast_le ℚ]
  push_cast
  rw [Double.cast_unitsPerOne, mul_assoc, mul_comm]
  exact reached

/-- A row of digits that does not begin with a zero, with the exponent of its first digit, denotes a
value in the interval of a count of units. -/
structure Denotes (row : Text) (exponent : Int) (units : Nat) : Prop where
  digits : ∀ c ∈ row, c.isDigit = true
  nonempty : row ≠ []
  leading : row.head? ≠ some '0'
  held : (RoundingInterval.of units).holds (Nat.ofDigitChars 10 row 0)
    (exponent + 1 - row.length) = true

/-- A positive number of the interval, written in digits without the zeros at the end. -/
theorem denotes_dropZeros {units digits : Nat} {exponent : Int} (pos : 0 < digits)
    (held : (RoundingInterval.of units).holds digits exponent = true) :
    Denotes (dropZeros (ofNat digits)) (exponent + ((ofNat digits).length - 1 : Nat)) units := by
  obtain ⟨zeros, row⟩ := exists_dropZeros (ofNat digits)
  have value : Nat.ofDigitChars 10 (dropZeros (ofNat digits)) 0 * 10 ^ zeros = digits := by
    have whole : Nat.ofDigitChars 10 (ofNat digits) 0 = digits := Nat.ofDigitChars_ten_toDigits
    rw [row, Nat.ofDigitChars_append, Nat.ofDigitChars_replicate_zero] at whole
    rw [Nat.mul_comm, whole]
  have nonempty : dropZeros (ofNat digits) ≠ [] := by
    intro none
    rw [none] at value
    simp at value
    omega
  constructor
  · intro c mem
    have whole : c ∈ ofNat digits := by
      rw [row]
      exact List.mem_append_left _ mem
    exact Nat.isDigit_of_mem_toDigits (by decide) (by decide) whole
  · exact nonempty
  · have first := head?_ofNat_ne_zero pos
    rwa [row, List.head?_append_of_ne_nil _ nonempty] at first
  · refine RoundingInterval.holds_congr ?_ held
    have length : (ofNat digits).length = (dropZeros (ofNat digits)).length + zeros := by
      conv_lhs => rw [row]
      simp
    have some : 0 < (dropZeros (ofNat digits)).length := List.length_pos_iff.2 nonempty
    have exponents : exponent + ((ofNat digits).length - 1 : Nat) + 1 -
        (dropZeros (ofNat digits)).length = zeros + exponent := by omega
    rw [exponents, zpow_add₀ (by norm_num), zpow_natCast, ← mul_assoc]
    congr 1
    exact_mod_cast value.symm

/-- The search ends at the latest on the last grid, with a numeral of the interval. -/
theorem exists_searched {units : Nat} (fits : Representable units) (pos : 0 < units) :
    ∃ digits exponent,
      ((List.range 17).findSome? fun (extra : Nat) =>
        (nearestOnGrid? units (RoundingInterval.of units) (leadingExponent units - extra)).map
          fun digits => (digits, leadingExponent units - extra)) = some (digits, exponent) ∧
      (RoundingInterval.of units).holds digits exponent = true := by
  obtain ⟨last, onLast⟩ := exists_nearestOnGrid? fits (leadingExponent_fine pos rfl)
  cases searched : (List.range 17).findSome? fun (extra : Nat) =>
      (nearestOnGrid? units (RoundingInterval.of units) (leadingExponent units - extra)).map
        fun digits => (digits, leadingExponent units - extra) with
  | none =>
      have missed := List.findSome?_eq_none_iff.1 searched 16 (by simp)
      rw [Nat.cast_ofNat, onLast] at missed
      cases missed
  | some found =>
      obtain ⟨extra, -, onGrid⟩ := List.exists_of_findSome?_eq_some searched
      obtain ⟨digits, here, rfl⟩ := Option.map_eq_some_iff.1 onGrid
      exact ⟨_, _, rfl, nearestOnGrid?_holds here⟩

/-- The shortest numeral of a number denotes a value that reads as it. -/
theorem shortest_denotes {units : Nat} (fits : Representable units) (pos : 0 < units) :
    Denotes (shortest units).1 (shortest units).2 units := by
  obtain ⟨digits, exponent, searched, held⟩ := exists_searched fits pos
  unfold shortest
  dsimp only
  rw [searched]
  exact denotes_dropZeros (RoundingInterval.digits_pos_of_holds pos held) held

end WardleyMaps
