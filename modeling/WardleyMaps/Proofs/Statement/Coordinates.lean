/-
Module: WardleyMaps.Proofs.Statement.Coordinates
Purpose: The text of a position between brackets, as it is written and as it is read.
Main exports: Rereads, exists_rereads, readNumber_eq_ok, char_of_readCoordinates,
  brace_not_mem_of_readPosition, readPair_of_read?, readPosition_pairText
-/
import WardleyMaps.Edit.Position
import WardleyMaps.Proofs.Number.Written
import WardleyMaps.Proofs.Statement.Placed

namespace WardleyMaps

open Text

/-!
A position is written as two numerals with a comma between them, and read by cutting at the commas.
A written numeral has none of the characters that end something: no blank, comma, slash, bracket or
brace. Nor has a numeral that is read a brace in it.
-/

/-- A number `y` is what is read from the numeral that is written for `x`. -/
def Rereads (precision : Int) (x y : Double) : Prop :=
  ∃ numeral, x.fixedText precision = .ok numeral ∧ ∀ field, readNumber field numeral = .ok y

/-! ### Written numerals -/

/-- The characters that end a numeral, a bracket, a body, a line, or begin a comment. -/
def endingChars : List Char :=
  [',', '/', '[', ']', '{', '}', '\n']

theorem FixedChar.apart {c : Char} (h : FixedChar c) : isBlank c = false ∧ c ∉ endingChars := by
  rcases h with h | rfl | rfl
  · have hrange : 48 ≤ c.toNat ∧ c.toNat ≤ 57 := by
      simp only [Char.isDigit, Bool.and_eq_true, decide_eq_true_eq, UInt32.le_iff_toNat_le,
        ge_iff_le] at h
      exact h
    constructor
    · rw [← Bool.not_eq_true]
      intro hblank
      have hword := isWord_of_isBlank hblank
      have hascii : c.toNat < 128 := by omega
      simp [isWord, hascii, Char.isAlphanum, h] at hword
    · intro hmem
      have hall : ∀ d ∈ endingChars, d.toNat < 48 ∨ 57 < d.toNat := by
        simp [endingChars]
      have := hall c hmem
      omega
  · decide
  · decide

/-- What is known of every written numeral. -/
structure Written (t : Text) : Prop where
  ne_nil : t ≠ []
  chars : ∀ c ∈ t, isBlank c = false ∧ c ∉ endingChars

theorem Written.trimmed {t : Text} (h : Written t) : Trimmed t :=
  ⟨fun c hc => (h.chars c (List.mem_of_mem_head? hc)).1,
    fun c hc => (h.chars c (List.mem_of_mem_getLast? hc)).1⟩

theorem Written.not_mem {t : Text} (h : Written t) {c : Char} (hc : c ∈ endingChars) : c ∉ t :=
  fun hmem => (h.chars c hmem).2 hc

theorem written_fixed {x : Double} (hx : x.isFinite = true) (places : Nat) :
    Written (x.fixed places) := by
  refine ⟨?_, fun c hc => (fixed_chars hx places c hc).apart⟩
  intro hnil
  cases x with
  | infinite negative => simp [Double.isFinite] at hx
  | nan => simp [Double.isFinite] at hx
  | finite negative units h =>
      have hread := Double.read?_fixed places negative units h
      rw [hnil] at hread
      simp [Double.read?, Numeral.scan, spanSign, spanDecimal, spanDigits] at hread

theorem placesOf_eq_ok {precision : Int} (h : 0 ≤ precision)
    (hlimit : precision < (Nat.pow 2 31 : Nat)) :
    placesOf precision = .ok precision.toNat := by
  have hboth : (0 ≤ precision && precision < (Nat.pow 2 31 : Nat)) = true := by
    rw [Bool.and_eq_true]
    exact ⟨decide_eq_true h, decide_eq_true hlimit⟩
  rw [placesOf, if_pos hboth]

/-- A finite number is written with any usable number of places, and can be read again. -/
theorem exists_rereads {precision : Int} {x : Double} (hx : x.isFinite = true) (h : 0 ≤ precision)
    (hlimit : precision < (Nat.pow 2 31 : Nat)) : ∃ y, Rereads precision x y := by
  have hwritten := written_fixed hx precision.toNat
  cases x with
  | infinite negative => simp [Double.isFinite] at hx
  | nan => simp [Double.isFinite] at hx
  | finite negative units hunits =>
      refine ⟨.ofDecimal negative
        (roundHalfEven (units * Nat.pow 10 precision.toNat) unitsPerOne) (-precision.toNat),
        (Double.finite negative units hunits).fixed precision.toNat, ?_, ?_⟩
      · rw [Double.fixedText, placesOf_eq_ok h hlimit]
        rfl
      · intro field
        rw [readNumber, trim_eq_self hwritten.trimmed, Double.read?_fixed]

/-! ### Pairs -/

theorem readNumber_eq_ok {field : String} {token : Text} {x : Double} :
    readNumber field token = .ok x ↔ Double.read? (trim token) = some x := by
  unfold readNumber
  cases Double.read? (trim token) <;> simp

/-- A token that denotes a number holds characters of numerals, and perhaps blanks around them. -/
theorem numeralChar_or_blank {t : Text} {x : Double} (h : Double.read? (trim t) = some x) {c : Char}
    (hmem : c ∈ t) : NumeralChar c ∨ isBlank c = true := by
  obtain ⟨lead, trail, hlead, htrail, ht⟩ := exists_trim t
  rw [ht, List.mem_append, List.mem_append] at hmem
  rcases hmem with (hc | hc) | hc
  · exact .inr (hlead c hc)
  · exact .inl (numeralChar_of_read? h c hc)
  · exact .inr (htrail c hc)

/-- Coordinates that can be read hold numerals, commas and blanks. -/
theorem char_of_readCoordinates {count : Int} {field : String} {inside : Text} {xs : List Double}
    (h : readCoordinates count field inside = .ok xs) {c : Char} (hmem : c ∈ inside) :
    c = ',' ∨ NumeralChar c ∨ isBlank c = true := by
  by_cases hcomma : c = ','
  · exact .inl hcomma
  right
  obtain ⟨piece, hpiece, hc⟩ := mem_piece_of_mem hmem hcomma
  unfold readCoordinates at h
  simp only at h
  split at h
  · simp at h
  · obtain ⟨x, hx⟩ := exists_of_mapM_eq_ok h _ (List.mem_map_of_mem hpiece)
    rw [readNumber_eq_ok, trim_trim] at hx
    exact numeralChar_or_blank hx hc

theorem not_mem_of_readPair {field : String} {inside : Text} {pair : Double × Double}
    (h : readPair field inside = .ok pair) {c : Char} (hcomma : c ≠ ',')
    (hnumeral : ¬ NumeralChar c) (hblank : isBlank c = false) : c ∉ inside := by
  intro hmem
  obtain ⟨numbers, hnumbers, -⟩ := bind_eq_ok.1 h
  rcases char_of_readCoordinates hnumbers hmem with hc | hc | hc
  · exact hcomma hc
  · exact hnumeral hc
  · rw [hc] at hblank
    cases hblank

/-- A numeral has no brace in it, so nor has a position that can be read. -/
theorem brace_not_mem_of_readPosition {field : String} {inside : Text} {position : Position}
    (h : readPosition field inside = .ok position) : '}' ∉ inside := by
  obtain ⟨pair, hpair, -⟩ := bind_eq_ok.1 h
  have hnumeral : ¬ NumeralChar '}' := by
    rw [NumeralChar]
    decide +kernel
  exact not_mem_of_readPair hpair (by decide) hnumeral (by decide)

/-- A numeral that is written for a finite number. -/
theorem written_fixedText {precision : Int} {x : Double} (hx : x.isFinite = true) {t : Text}
    (h : x.fixedText precision = .ok t) : Written t := by
  unfold Double.fixedText at h
  cases hplaces : placesOf precision with
  | error e => simp [hplaces, Except.map] at h
  | ok places =>
      simp only [hplaces, Except.map, Except.ok.injEq] at h
      exact h ▸ written_fixed hx places

/-- Two tokens with a comma between them are read as the numbers that they denote. -/
theorem readPair_of_read? {first second : Text} {x y : Double} (field : String)
    (hfirst : Double.read? (trim first) = some x) (hsecond : Double.read? (trim second) = some y) :
    readPair field (first ++ ',' :: second) = .ok (x, y) := by
  have hcomma : ∀ {t : Text} {z : Double}, Double.read? (trim t) = some z → ',' ∉ t := by
    intro t z hread hmem
    rcases numeralChar_or_blank hread hmem with hc | hc
    · exact absurd hc (by rw [NumeralChar]; decide +kernel)
    · exact absurd hc (by decide)
  have hne : ∀ {t : Text} {z : Double}, Double.read? (trim t) = some z → trim t ≠ [] := by
    intro t z hread hnil
    rw [hnil] at hread
    cases hread
  have hpieces : (first ++ ',' :: second).splitOn ',' = [first, second] := by
    rw [List.splitOn_append_cons_self_of_not_mem (hcomma hfirst),
      List.splitOn_eq_singleton (hcomma hsecond)]
  have hnumber : ∀ {t : Text} {z : Double}, Double.read? (trim t) = some z →
      readNumber field (trim t) = .ok z := by
    intro t z hread
    rwa [readNumber_eq_ok, trim_trim]
  have hcoordinates : readCoordinates 2 field (first ++ ',' :: second) = .ok [x, y] := by
    unfold readCoordinates
    simp only [hpieces, List.map_cons, List.map_nil]
    simp [hne hfirst, hne hsecond, hnumber hfirst, hnumber hsecond, bind, Except.bind, pure,
      Except.pure]
  rw [readPair, hcoordinates]
  rfl

/-- Two tokens with a comma and a blank between them are read as the numbers that they are read as.
-/
theorem readPosition_of_readNumber {first second : Text} {q : Position} {field : String}
    (hreadFirst : ∀ field, readNumber field first = .ok q.visibility)
    (hreadSecond : ∀ field, readNumber field second = .ok q.maturity) :
    readPosition field (first ++ ", ".toList ++ second) = .ok q := by
  have htrim : trim (' ' :: second) = trim second := trim_cons_of_blank (by decide) second
  have hpair : readPair field (first ++ ',' :: (' ' :: second)) =
      .ok (q.visibility, q.maturity) :=
    readPair_of_read? field (readNumber_eq_ok.1 (hreadFirst field))
      (htrim ▸ readNumber_eq_ok.1 (hreadSecond field))
  rw [List.append_assoc]
  change readPosition field (first ++ ',' :: (' ' :: second)) = _
  rw [readPosition, hpair]
  rfl

/-- Two numerals with a comma between them hold no other ending character. -/
theorem not_mem_pair_of_written {first second : Text} (hfirst : Written first)
    (hsecond : Written second) :
    ∀ c ∈ endingChars, c ≠ ',' → c ∉ first ++ ", ".toList ++ second := by
  have hseparator : ∀ c ∈ endingChars, c ≠ ',' → c ∉ ", ".toList := by
    simp [endingChars]
  intro c hc hne hmem
  rw [List.mem_append, List.mem_append] at hmem
  rcases hmem with (hmem | hmem) | hmem
  · exact hfirst.not_mem hc hmem
  · exact hseparator c hc hne hmem
  · exact hsecond.not_mem hc hmem

/-- What two numbers are written as between brackets is read as the numbers that their numerals are
read as. -/
theorem readPosition_pairText {precision : Int} {p q : Position}
    (hv : p.visibility.isFinite = true) (hm : p.maturity.isFinite = true)
    (hvisibility : Rereads precision p.visibility q.visibility)
    (hmaturity : Rereads precision p.maturity q.maturity) :
    ∃ pair, pairText precision p = .ok pair ∧ (∀ field, readPosition field pair = .ok q) ∧
      '/' ∉ pair ∧ ']' ∉ pair ∧ '}' ∉ pair ∧ '\n' ∉ pair := by
  obtain ⟨first, hfirst, hreadFirst⟩ := hvisibility
  obtain ⟨second, hsecond, hreadSecond⟩ := hmaturity
  have hfirstWritten := written_fixedText hv hfirst
  have hsecondWritten := written_fixedText hm hsecond
  have hnone := not_mem_pair_of_written hfirstWritten hsecondWritten
  refine ⟨first ++ ", ".toList ++ second, ?_, ?_, ?_⟩
  · simp [pairText, hfirst, hsecond, bind, Except.bind]
  · intro field
    exact readPosition_of_readNumber hreadFirst hreadSecond
  · exact ⟨hnone _ (by decide) (by decide), hnone _ (by decide) (by decide),
      hnone _ (by decide) (by decide), hnone _ (by decide) (by decide)⟩

end WardleyMaps
