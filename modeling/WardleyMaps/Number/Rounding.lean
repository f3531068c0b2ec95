/-
Module: WardleyMaps.Number.Rounding
Purpose: Rounding a quotient of natural numbers to the nearest whole number.
Main exports: roundHalfEven, roundHalfEven_mul, roundHalfEven_cases, two_mul_roundHalfEven_le
-/

namespace WardleyMaps

/-!
Both directions between decimal and binary numerals round an exact quotient to the nearest whole
number, and a half goes to the even neighbour. The result is never further than half a unit from the
quotient (`two_mul_roundHalfEven_le`, `le_two_mul_roundHalfEven`).
-/

/-- The whole number nearest to `num / den`; a half goes to the even neighbour. -/
def roundHalfEven (num den : Nat) : Nat :=
  let floor := num / den
  let rest := num % den
  if 2 * rest < den then floor
  else if den < 2 * rest then floor + 1
  else if floor % 2 = 0 then floor
  else floor + 1

/-- A whole quotient is kept. -/
theorem roundHalfEven_mul (n : Nat) {den : Nat} (h : 0 < den) :
    roundHalfEven (n * den) den = n := by
  simp [roundHalfEven, Nat.mul_div_cancel _ h, h]

/-- What rounding gives is the quotient if no more than half a unit is left of it, and its successor
if no less is left. -/
theorem roundHalfEven_cases (num den : Nat) :
    (roundHalfEven num den = num / den ∧ 2 * (num % den) ≤ den) ∨
      (roundHalfEven num den = num / den + 1 ∧ den ≤ 2 * (num % den)) := by
  unfold roundHalfEven
  dsimp only
  split
  · next below => exact .inl ⟨rfl, Nat.le_of_lt below⟩
  · next notBelow =>
    split
    · next above => exact .inr ⟨rfl, Nat.le_of_lt above⟩
    · next notAbove =>
      split
      · exact .inl ⟨rfl, Nat.not_lt.1 notAbove⟩
      · exact .inr ⟨rfl, Nat.not_lt.1 notBelow⟩

/-- The rounded quotient is at most half a unit above the exact one. -/
theorem two_mul_roundHalfEven_le (num : Nat) {den : Nat} (h : 0 < den) :
    2 * (roundHalfEven num den * den) ≤ 2 * num + den := by
  have whole := Nat.div_add_mod' num den
  have rest := Nat.mod_lt num h
  rcases roundHalfEven_cases num den with ⟨floor, -⟩ | ⟨next, half⟩
  · rw [floor]
    omega
  · rw [next, Nat.succ_mul (num / den)]
    omega

/-- The rounded quotient is at most half a unit below the exact one. -/
theorem le_two_mul_roundHalfEven (num : Nat) {den : Nat} (h : 0 < den) :
    2 * num ≤ 2 * (roundHalfEven num den * den) + den := by
  have whole := Nat.div_add_mod' num den
  have rest := Nat.mod_lt num h
  rcases roundHalfEven_cases num den with ⟨floor, half⟩ | ⟨next, -⟩
  · rw [floor]
    omega
  · rw [next, Nat.succ_mul (num / den)]
    omega

end WardleyMaps
