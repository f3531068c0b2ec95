/-
Module: WardleyMaps.Proofs.Number.Scan
Purpose: A numeral ends at a character that no numeral holds.
Main exports: Numeral.scan_append, Numeral.exists_scan_append
-/
import WardleyMaps.Proofs.Number.Written
import WardleyMaps.Proofs.Text.Trim

namespace WardleyMaps

open Text

/-!
Every part of a numeral is scanned from left to right, up to the first character that does not
belong to it. So behind a character that no numeral holds nothing is looked at, and what is scanned
in front of it is what is scanned there without it (`Numeral.scan_append`).
-/

section

variable {c : Char} (hc : ¬ NumeralChar c) (b : Text)
include hc

theorem spanDigits_append_cons (a : Text) :
    spanDigits (a ++ c :: b) = ((spanDigits a).1, (spanDigits a).2 ++ c :: b) := by
  have hdigit : digitValue? c = none := by
    by_contra hsome
    apply hc
    exact .inl (by rwa [isDigit, ← Option.ne_none_iff_isSome])
  induction a with
  | nil => simp [spanDigits, hdigit]
  | cons d rest ih =>
      rw [List.cons_append, spanDigits, spanDigits, ih]
      cases digitValue? d <;> rfl

theorem spanSign_append_cons (a : Text) :
    spanSign (a ++ c :: b) = ((spanSign a).1, (spanSign a).2 ++ c :: b) := by
  have hminus : c ≠ '-' := fun h => hc (.inr (by simp [h]))
  have hplus : c ≠ '+' := fun h => hc (.inr (by simp [h]))
  cases a with
  | nil => simp [spanSign, hminus, hplus]
  | cons d rest =>
      by_cases hd : d = '-'
      · simp [spanSign, hd]
      · by_cases hd' : d = '+'
        · simp [spanSign, hd']
        · simp [spanSign, hd, hd']

theorem spanDecimal_append_cons (a : Text) :
    spanDecimal (a ++ c :: b) =
      (spanDecimal a).map (Prod.map id (Prod.map id (· ++ c :: b))) := by
  have hpoint : c ≠ '.' := fun h => hc (.inr (by simp [h]))
  rw [spanDecimal, spanDecimal, spanDigits_append_cons hc]
  cases hspan : spanDigits a with
  | mk whole rest =>
      cases rest with
      | nil => cases whole <;> simp [hpoint]
      | cons d rest =>
          by_cases hd : d = '.'
          · cases whole with
            | nil =>
                simp only [hd, List.cons_append, spanDigits_append_cons hc]
                cases hlater : spanDigits rest with
                | mk fraction later => cases fraction <;> rfl
            | cons digit digits => simp [hd, spanDigits_append_cons hc, Prod.map]
          · cases whole <;> simp [hd]

theorem spanExponentDigits_append_cons (a : Text) :
    spanExponentDigits (a ++ c :: b) =
      (spanExponentDigits a).map (Prod.map id (· ++ c :: b)) := by
  simp only [spanExponentDigits, spanSign_append_cons hc, spanDigits_append_cons hc]
  cases hspan : spanDigits (spanSign a).2 with
  | mk digits rest => cases digits <;> rfl

theorem spanExponent_append_cons (a : Text) :
    spanExponent (a ++ c :: b) = ((spanExponent a).1, (spanExponent a).2 ++ c :: b) := by
  have hsmall : c ≠ 'e' := fun h => hc (.inr (by simp [h]))
  have hlarge : c ≠ 'E' := fun h => hc (.inr (by simp [h]))
  cases a with
  | nil => simp [spanExponent, hsmall, hlarge]
  | cons d rest =>
      rw [List.cons_append, spanExponent, spanExponent, spanExponentDigits_append_cons hc]
      split
      · cases spanExponentDigits rest <;> rfl
      · rfl

/-- In front of a character that no numeral holds, the same numeral is scanned as without it. -/
theorem Numeral.scan_append (a : Text) :
    Numeral.scan (a ++ c :: b) =
      (Numeral.scan a).map (Prod.map id (· ++ c :: b)) := by
  simp only [Numeral.scan, spanSign_append_cons hc, spanDecimal_append_cons hc, Option.map_map]
  congr 1
  funext parts
  obtain ⟨whole, fraction, rest⟩ := parts
  simp [spanExponent_append_cons hc]

end

theorem not_numeralChar_of_isBlank {c : Char} (hc : isBlank c = true) : ¬ NumeralChar c := by
  rintro (hdigit | hsign)
  · rw [isDigit_of_isBlank hc] at hdigit
    cases hdigit
  · have hnone : ∀ d ∈ ['+', '-', '.', 'e', 'E'], isBlank d = false := by
      simp only [List.forall_mem_cons, List.not_mem_nil, false_implies, implies_true, and_true]
      decide
    rw [hnone c hsign] at hc
    cases hc

/-- A numeral that is a whole text is scanned up to the blank behind it. -/
theorem Numeral.exists_scan_append {t rest : Text} {x : Double} (ht : Double.read? t = some x)
    (hrest : ∀ c ∈ rest.head?, isBlank c = true) :
    ∃ n, Numeral.scan (t ++ rest) = some (n, rest) ∧ n.value = x := by
  unfold Double.read? at ht
  split at ht
  · next n hscan =>
    refine ⟨n, ?_, Option.some.inj ht⟩
    cases rest with
    | nil => rw [List.append_nil, hscan]
    | cons c rest =>
        have hc : ¬ NumeralChar c := not_numeralChar_of_isBlank (hrest c rfl)
        rw [Numeral.scan_append hc, hscan]
        rfl
  · cases ht

end WardleyMaps
