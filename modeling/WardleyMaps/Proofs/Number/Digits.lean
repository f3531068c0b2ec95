/-
Module: WardleyMaps.Proofs.Number.Digits
Purpose: Rows of digits, the values of their digits, and the number that they denote.
Main exports: SaysDigits, exists_saysDigits, spanDigits_eq_iff, isBlank_of_digit,
  digitsValue_eq_ofDigits
-/
import Mathlib.Data.List.Forall2
import Mathlib.Data.Nat.Digits.Defs
import WardleyMaps.Proofs.Text.Trim

namespace WardleyMaps

open Text

/-!
Digits may be of any script, so a row of them is told by the values of its digits (`SaysDigits`). A
text begins with one such row that is as long as can be (`spanDigits_eq_iff`), and the row denotes a
number in the decimal system (`digitsValue_eq_ofDigits`).
-/

/-- A row of digits, and the values of its digits. -/
def SaysDigits (digits : Text) (values : List Nat) : Prop :=
  List.Forall₂ (fun c value => digitValue? c = some value) digits values

theorem exists_saysDigits {digits : Text} (h : ∀ c ∈ digits, isDigit c = true) :
    ∃ values, SaysDigits digits values := by
  induction digits with
  | nil => exact ⟨[], .nil⟩
  | cons c rest ih =>
      obtain ⟨hc, hrest⟩ := List.forall_mem_cons.1 h
      obtain ⟨value, hvalue⟩ := Option.isSome_iff_exists.1 hc
      obtain ⟨values, hvalues⟩ := ih hrest
      exact ⟨value :: values, .cons hvalue hvalues⟩

/-- The longest row of digits that a text begins with is the one behind which no digit stands. -/
theorem spanDigits_eq_iff {t rest : Text} {values : List Nat} :
    spanDigits t = (values, rest) ↔
      ∃ digits, t = digits ++ rest ∧ SaysDigits digits values ∧
        ∀ c ∈ rest.head?, isDigit c = false := by
  induction t generalizing values with
  | nil =>
      rw [spanDigits, Prod.mk.injEq]
      constructor
      · rintro ⟨rfl, rfl⟩
        exact ⟨[], rfl, .nil, by simp⟩
      · rintro ⟨digits, hwhole, hdigits, -⟩
        obtain ⟨rfl, rfl⟩ := List.append_eq_nil_iff.1 hwhole.symm
        cases hdigits
        exact ⟨rfl, rfl⟩
  | cons c later ih =>
      rw [spanDigits]
      cases hc : digitValue? c with
      | none =>
          simp only [Prod.mk.injEq]
          constructor
          · rintro ⟨rfl, rfl⟩
            exact ⟨[], rfl, .nil, by simp [isDigit, hc]⟩
          · rintro ⟨digits, hwhole, hdigits, -⟩
            cases hdigits with
            | nil => exact ⟨rfl, hwhole⟩
            | cons hfirst hothers =>
                obtain ⟨rfl, -⟩ := List.cons.inj hwhole
                rw [hc] at hfirst
                cases hfirst
      | some value =>
          simp only [Prod.mk.injEq]
          constructor
          · rintro ⟨rfl, rfl⟩
            obtain ⟨digits, hwhole, hdigits, hrest⟩ := ih.1 rfl
            exact ⟨c :: digits, congrArg (c :: ·) hwhole, .cons hc hdigits, hrest⟩
          · rintro ⟨digits, hwhole, hdigits, hrest⟩
            cases hdigits with
            | nil =>
                rw [List.nil_append] at hwhole
                have hnone := hrest c (by rw [← hwhole]; rfl)
                rw [isDigit, hc] at hnone
                cases hnone
            | cons hfirst hothers =>
                obtain ⟨rfl, hlater⟩ := List.cons.inj hwhole
                obtain rfl := Option.some.inj (hfirst.symm.trans hc)
                rw [ih.2 ⟨_, hlater, hothers, hrest⟩]
                exact ⟨rfl, rfl⟩

theorem SaysDigits.ne_nil_iff {digits : Text} {values : List Nat} (h : SaysDigits digits values) :
    digits ≠ [] ↔ values ≠ [] := by
  cases h <;> simp

theorem isBlank_of_digit {c : Char} {value : Nat} (h : digitValue? c = some value) :
    isBlank c = false := by
  by_contra hblank
  have hnone := isDigit_of_isBlank (by simpa using hblank)
  rw [isDigit, h] at hnone
  cases hnone

/-- A row of digits begins with no blank. -/
theorem SaysDigits.head {digits : Text} {values : List Nat} (h : SaysDigits digits values) :
    ∀ c ∈ digits.head?, isBlank c = false := by
  cases h with
  | nil => simp
  | cons hfirst _ =>
      rintro c hc
      obtain rfl := Option.some.inj hc
      exact isBlank_of_digit hfirst

/-- Digits denote a number in the decimal system. -/
theorem digitsValue_eq_ofDigits (values : List Nat) :
    digitsValue values = Nat.ofDigits 10 values.reverse := by
  rw [digitsValue, Nat.ofDigits_eq_foldr, List.foldr_reverse]
  simp only [Nat.cast_id, add_comm]

end WardleyMaps
