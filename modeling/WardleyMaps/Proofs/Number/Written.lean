/-
Module: WardleyMaps.Proofs.Number.Written
Purpose: What is written with a fixed number of places is read back, and which characters numerals
  consist of.
Main exports: Double.read?_fixed, fixed_chars, numeralChar_of_read?
-/
import Mathlib.Data.List.Basic
import WardleyMaps.Number.Fixed
import WardleyMaps.Proofs.Number.Digits

namespace WardleyMaps

open Text

/-!
A written number is a row of digits with a point in front of the last ones. Reading it gives the
number nearest to the written decimal (`Double.read?_fixed`); no digit is lost, whatever the count
of places is. Neither what is written nor what is read as a numeral holds a character that means
something else in a statement (`fixed_chars`, `numeralChar_of_read?`).
-/

/-! ### Rows of digits -/

theorem digitValue?_of_isDigit {c : Char} (h : c.isDigit = true) :
    digitValue? c = some (c.toNat - 48) := by
  have hrange : 48 ≤ c.toNat ∧ c.toNat ≤ 57 := by
    simp only [Char.isDigit, Bool.and_eq_true, decide_eq_true_eq, UInt32.le_iff_toNat_le,
      ge_iff_le] at h
    exact h
  have hascii : c.toNat < 128 := by omega
  simp [digitValue?, hascii, hrange]

/-- The values of decimal digits. -/
def digitValues (ds : Text) : List Nat :=
  ds.map fun c => c.toNat - 48

theorem spanDigits_append {ds rest : Text} (hds : ∀ c ∈ ds, c.isDigit = true)
    (hrest : ∀ c ∈ rest.head?, isDigit c = false) :
    spanDigits (ds ++ rest) = (digitValues ds, rest) := by
  have hvalues : SaysDigits ds (digitValues ds) :=
    List.forall₂_map_right_iff.2 (List.forall₂_same.2 fun c hc => digitValue?_of_isDigit (hds c hc))
  exact spanDigits_eq_iff.2 ⟨ds, rfl, hvalues, hrest⟩

theorem digitsValue_digitValues (ds : Text) :
    digitsValue (digitValues ds) = Nat.ofDigitChars 10 ds 0 := by
  simp [digitsValue, digitValues, Nat.ofDigitChars, List.foldl_map]

/-! ### Written numbers -/

/-- The parts of a written magnitude: digits before the point, as many behind it as there are
places, and together they denote the scaled number. -/
theorem exists_writePlaces (places scaled : Nat) :
    ∃ whole fraction : Text, whole ≠ [] ∧ fraction.length = places ∧
      (∀ c ∈ whole ++ fraction, c.isDigit = true) ∧
      Nat.ofDigitChars 10 (whole ++ fraction) 0 = scaled ∧
      writePlaces places scaled = whole ++ (if places = 0 then [] else '.' :: fraction) := by
  let digits := Text.ofNat scaled
  let row := List.replicate (places + 1 - digits.length) '0' ++ digits
  have hrow : places + 1 ≤ row.length := by
    simp only [row, List.length_append, List.length_replicate]
    omega
  have hparts : row.take (row.length - places) ++ row.drop (row.length - places) = row :=
    List.take_append_drop _ row
  refine ⟨row.take (row.length - places), row.drop (row.length - places), ?_, ?_, ?_, ?_, ?_⟩
  · rw [← List.length_pos_iff, List.length_take]
    omega
  · rw [List.length_drop]
    omega
  · rw [hparts]
    intro c hc
    rcases List.mem_append.1 hc with hc | hc
    · rw [List.eq_of_mem_replicate hc]
      decide
    · exact Nat.isDigit_of_mem_toDigits (by decide) (by decide) hc
  · rw [hparts, Nat.ofDigitChars_append, Nat.ofDigitChars_replicate_zero]
    simp [digits, Text.ofNat]
  · by_cases hzero : places = 0
    · simp [writePlaces, hzero, row, digits]
    · simp [writePlaces, hzero, row, digits]

/-- Digits are not taken for a sign. -/
theorem spanSign_signed (negative : Bool) {d : Char} (hd : d.isDigit = true) (rest : Text) :
    spanSign ((if negative then ['-'] else []) ++ d :: rest) = (negative, d :: rest) := by
  have hminus : d ≠ '-' := by
    rintro rfl
    exact absurd hd (by decide)
  have hplus : d ≠ '+' := by
    rintro rfl
    exact absurd hd (by decide)
  cases negative with
  | true => rfl
  | false => simp [spanSign, hminus, hplus]

/-- Digits before a point and digits behind it are told apart; without places there is no point. -/
theorem spanDecimal_digits {whole fraction : Text} {places : Nat} (hne : whole ≠ [])
    (hlen : fraction.length = places) (hwhole : ∀ c ∈ whole, c.isDigit = true)
    (hfraction : ∀ c ∈ fraction, c.isDigit = true) :
    spanDecimal (whole ++ (if places = 0 then [] else '.' :: fraction)) =
      some (digitValues whole, digitValues fraction, []) := by
  have hvalues : digitValues whole ≠ [] := by simpa [digitValues] using hne
  obtain ⟨v, vs, hv⟩ := List.exists_cons_of_ne_nil hvalues
  rw [spanDecimal]
  by_cases hzero : places = 0
  · have hnil : fraction = [] := List.length_eq_zero_iff.1 (hlen.trans hzero)
    rw [if_pos hzero, spanDigits_append hwhole (by simp), hv, hnil]
    rfl
  · rw [if_neg hzero, spanDigits_append hwhole (by simp; decide), hv]
    have hbehind : spanDigits (fraction ++ []) = (digitValues fraction, []) :=
      spanDigits_append hfraction (by simp)
    rw [List.append_nil] at hbehind
    simp [hbehind]

/-- Reading what is written of a magnitude, with or without a sign: the numeral has the digits of
the scaled number, as many of them behind the point as there are places. -/
theorem scan_writePlaces (negative : Bool) (places scaled : Nat) :
    ∃ n : Numeral,
      Numeral.scan ((if negative then ['-'] else []) ++ writePlaces places scaled) = some (n, []) ∧
        n.negative = negative ∧ digitsValue (n.whole ++ n.fraction) = scaled ∧
          n.exponent - n.fraction.length = -places := by
  obtain ⟨whole, fraction, hne, hlen, hdigits, hvalue, hwritten⟩ :=
    exists_writePlaces places scaled
  rw [List.forall_mem_append] at hdigits
  obtain ⟨hwhole, hfraction⟩ := hdigits
  have hsign : spanSign ((if negative then ['-'] else []) ++ writePlaces places scaled) =
      (negative, writePlaces places scaled) := by
    obtain ⟨d, ds, rfl⟩ := List.exists_cons_of_ne_nil hne
    rw [hwritten]
    exact spanSign_signed negative (hwhole d List.mem_cons_self) _
  have hdecimal : spanDecimal (writePlaces places scaled) =
      some (digitValues whole, digitValues fraction, []) := by
    rw [hwritten]
    exact spanDecimal_digits hne hlen hwhole hfraction
  refine ⟨⟨negative, digitValues whole, digitValues fraction, 0⟩, ?_, rfl, ?_, ?_⟩
  · simp [Numeral.scan, hsign, hdecimal, spanExponent]
  · rw [← hvalue, ← digitsValue_digitValues]
    simp [digitValues]
  · simp [digitValues, hlen]

theorem Double.fixed_finite (places : Nat) (negative : Bool) (units : Nat)
    (h : Representable units) :
    (Double.finite negative units h).fixed places =
      (if negative then ['-'] else []) ++
        writePlaces places (roundHalfEven (units * Nat.pow 10 places) unitsPerOne) := by
  cases negative <;> rfl

/-- A finite number that is written with a fixed number of places is read as the number nearest to
the decimal it was rounded to. -/
theorem Double.read?_fixed (places : Nat) (negative : Bool) (units : Nat)
    (h : Representable units) :
    Double.read? ((Double.finite negative units h).fixed places) =
      some (.ofDecimal negative (roundHalfEven (units * Nat.pow 10 places) unitsPerOne)
        (-places)) := by
  obtain ⟨n, hscan, hsign, hdigits, hexponent⟩ := scan_writePlaces negative places
    (roundHalfEven (units * Nat.pow 10 places) unitsPerOne)
  rw [Double.read?, Double.fixed_finite, hscan]
  simp only [Numeral.value, hsign, hdigits, hexponent]

/-- Digits, minus and point. -/
def FixedChar (c : Char) : Prop :=
  c.isDigit = true ∨ c = '-' ∨ c = '.'

theorem fixed_chars {x : Double} (hx : x.isFinite = true) (places : Nat) :
    ∀ c ∈ x.fixed places, FixedChar c := by
  cases x with
  | infinite negative => simp [Double.isFinite] at hx
  | nan => simp [Double.isFinite] at hx
  | finite negative units h =>
      have hmagnitude : ∀ scaled, ∀ c ∈ writePlaces places scaled, FixedChar c := by
        intro scaled c hc
        obtain ⟨whole, fraction, -, -, hdigits, -, hwritten⟩ := exists_writePlaces places scaled
        rw [hwritten] at hc
        rcases List.mem_append.1 hc with hc | hc
        · exact .inl (hdigits c (List.mem_append_left _ hc))
        · split at hc
          · simp at hc
          · rcases List.mem_cons.1 hc with rfl | hc
            · exact .inr (.inr rfl)
            · exact .inl (hdigits c (List.mem_append_right _ hc))
      intro c hc
      cases negative with
      | false => exact hmagnitude _ c hc
      | true =>
          rcases List.mem_cons.1 hc with rfl | hc
          · exact .inr (.inl rfl)
          · exact hmagnitude _ c hc

/-! ### Characters of numerals -/

/-- Digits of any script, signs, the point and the letter of an exponent. -/
def NumeralChar (c : Char) : Prop :=
  isDigit c = true ∨ c ∈ ['+', '-', '.', 'e', 'E']

theorem mem_spanDigits {c : Char} {t : Text} (h : c ∈ t) :
    NumeralChar c ∨ c ∈ (spanDigits t).2 := by
  induction t with
  | nil => simp at h
  | cons d ds ih =>
      rw [spanDigits]
      cases hd : digitValue? d with
      | none => exact .inr h
      | some v =>
          rcases List.mem_cons.1 h with rfl | h
          · exact .inl (.inl (by simp [isDigit, hd]))
          · exact ih h

theorem mem_spanSign {c : Char} {t : Text} (h : c ∈ t) : NumeralChar c ∨ c ∈ (spanSign t).2 := by
  unfold spanSign
  split
  · rcases List.mem_cons.1 h with rfl | h
    · exact .inl (.inr (by simp))
    · exact .inr h
  · rcases List.mem_cons.1 h with rfl | h
    · exact .inl (.inr (by simp))
    · exact .inr h
  · exact .inr h

theorem mem_spanDecimal {c : Char} {t : Text} {whole fraction : List Nat} {rest : Text}
    (hspan : spanDecimal t = some (whole, fraction, rest)) (h : c ∈ t) :
    NumeralChar c ∨ c ∈ rest := by
  have hpoint : ∀ {u : Text}, c ∈ '.' :: u → NumeralChar c ∨ c ∈ u := by
    intro u hu
    rcases List.mem_cons.1 hu with rfl | hu
    · exact .inl (.inr (by simp))
    · exact .inr hu
  have hfirst := mem_spanDigits h
  unfold spanDecimal at hspan
  split at hspan
  · next later hs =>
    rw [hs] at hfirst
    split at hspan
    · simp at hspan
    · next fraction' rest' hs' =>
      simp only [Option.some.injEq, Prod.mk.injEq] at hspan
      obtain ⟨-, -, rfl⟩ := hspan
      rcases hfirst with hc | hc
      · exact .inl hc
      · rcases hpoint hc with hc | hc
        · exact .inl hc
        · simpa [hs'] using mem_spanDigits hc
  · simp at hspan
  · next whole' later _ hs =>
    rw [hs] at hfirst
    simp only [Option.some.injEq, Prod.mk.injEq] at hspan
    rcases hfirst with hc | hc
    · exact .inl hc
    · rcases hpoint hc with hc | hc
      · exact .inl hc
      · simpa [hspan.2] using mem_spanDigits hc
  · next whole' later _ _ hs =>
    rw [hs] at hfirst
    simp only [Option.some.injEq, Prod.mk.injEq] at hspan
    obtain ⟨-, -, rfl⟩ := hspan
    exact hfirst

theorem mem_spanExponentDigits {c : Char} {t rest : Text} {exponent : Int}
    (hspan : spanExponentDigits t = some (exponent, rest)) (h : c ∈ t) :
    NumeralChar c ∨ c ∈ rest := by
  simp only [spanExponentDigits] at hspan
  split at hspan
  · simp at hspan
  · next digits later _ hs =>
    simp only [Option.some.injEq, Prod.mk.injEq] at hspan
    obtain ⟨-, rfl⟩ := hspan
    rcases mem_spanSign h with hc | hc
    · exact .inl hc
    · simpa [hs] using mem_spanDigits hc

theorem mem_spanExponent {c : Char} {t : Text} (h : c ∈ t) :
    NumeralChar c ∨ c ∈ (spanExponent t).2 := by
  cases t with
  | nil => simp at h
  | cons d ds =>
      rw [spanExponent]
      split
      · next he =>
        cases hs : spanExponentDigits ds with
        | none => exact .inr h
        | some found =>
            obtain ⟨exponent, rest⟩ := found
            rcases List.mem_cons.1 h with rfl | h
            · exact .inl (.inr (by simp at he; simp [he]))
            · exact mem_spanExponentDigits hs h
      · exact .inr h

/-- A numeral holds characters of numerals only. -/
theorem numeralChar_of_read? {t : Text} {x : Double} (h : Double.read? t = some x) :
    ∀ c ∈ t, NumeralChar c := by
  intro c hc
  unfold Double.read? at h
  split at h
  · next n hscan =>
    simp only [Numeral.scan, Option.map_eq_some_iff, Prod.exists, Prod.mk.injEq] at hscan
    obtain ⟨whole, fraction, rest, hdecimal, -, hnil⟩ := hscan
    rcases mem_spanSign hc with hc | hc
    · exact hc
    · rcases mem_spanDecimal hdecimal hc with hc | hc
      · exact hc
      · rcases mem_spanExponent hc with hc | hc
        · exact hc
        · rw [hnil] at hc
          simp at hc
  · simp at h

end WardleyMaps
