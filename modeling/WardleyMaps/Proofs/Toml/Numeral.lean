/-
Module: WardleyMaps.Proofs.Toml.Numeral
Purpose: Written integers and numbers are read as the values that they were written from.
Main exports: NumeralParts, LaidOut, laidOut_write, readTomlScalar_ofInt, readTomlScalar_text
-/
import WardleyMaps.Proofs.Number.Shortest
import WardleyMaps.Proofs.Number.Written
import WardleyMaps.Proofs.Text.Cut
import WardleyMaps.Toml.Scalar

namespace WardleyMaps

open Text

/-!
A value that begins with digits is no date and no time if neither a hyphen nor a colon follows
these, and then it is read as a decimal numeral (`readTomlScalar_of_row`). The parts of such a
numeral are told apart by the point and the letter of the exponent (`readDecimal_text`). Every
layout of the shortest numeral has these parts and denotes what the numeral denotes
(`laidOut_write`), so the text of a number is read as the number (`readTomlScalar_text`).
-/

/-! ### Rows of digits -/

theorem hexValue?_of_isDigit {c : Char} (digit : c.isDigit = true) :
    hexValue? c = some (c.toNat - 48) := by
  rw [hexValue?, if_pos digit]

theorem baseValue_ten {row : Text} (digits : ∀ c ∈ row, c.isDigit = true) :
    baseValue 10 row = Nat.ofDigitChars 10 row 0 := by
  rw [baseValue, Nat.ofDigitChars_eq_foldl]
  refine List.foldl_ext _ _ _ fun value c mem => ?_
  rw [hexValue?_of_isDigit (digits c mem)]
  rfl

/-- A row of digits ends in front of another character that is no underscore. -/
theorem spanUnderscored_row {row : Text} (digits : ∀ c ∈ row, c.isDigit = true) {c : Char}
    (other : c.isDigit = false) (plain : c ≠ '_') (rest : Text) :
    spanUnderscored Char.isDigit (row ++ c :: rest) = (row, c :: rest) := by
  induction row with
  | nil =>
      cases rest <;> simp [spanUnderscored, other, plain]
  | cons d row ih =>
      obtain ⟨first, later⟩ := List.forall_mem_cons.1 digits
      rw [List.cons_append, spanUnderscored.eq_def]
      simp only [first, if_true, ih later]

theorem readUnderscored_row {row : Text} (digits : ∀ c ∈ row, c.isDigit = true)
    (nonempty : row ≠ []) {c : Char} (other : c.isDigit = false) (plain : c ≠ '_') (rest : Text) :
    readUnderscored Char.isDigit (row ++ c :: rest) = some (row, c :: rest) := by
  obtain ⟨d, later, rfl⟩ := List.exists_cons_of_ne_nil nonempty
  rw [List.cons_append, readUnderscored, if_pos (digits d List.mem_cons_self), ← List.cons_append,
    spanUnderscored_row digits other plain]

/-! ### Neither dates nor times -/

section

variable {row : Text} {c : Char} {rest : Text}

/-- Where so many digits are taken, they come from the row at the beginning. -/
theorem takeDigits_row (other : c.isDigit = false) {count n : Nat} {after : Text}
    (taken : takeDigits count (row ++ c :: rest) = some (n, after)) :
    ∃ first later, row = first ++ later ∧ first.length = count ∧ after = later ++ c :: rest := by
  unfold takeDigits at taken
  dsimp only at taken
  split at taken
  · next allowed =>
    obtain rfl := (Prod.mk.inj (Option.some.inj taken)).2
    rw [Bool.and_eq_true, decide_eq_true_eq, List.all_eq_true] at allowed
    have within : count ≤ row.length := by
      by_contra short
      have mem : c ∈ (row ++ c :: rest).take count := by
        obtain ⟨more, rfl⟩ := Nat.exists_eq_add_of_lt (Nat.lt_of_not_le short)
        rw [Nat.add_assoc, List.take_length_add_append]
        exact List.mem_append_right _ List.mem_cons_self
      rw [allowed.2 c mem] at other
      cases other
    refine ⟨row.take count, row.drop count, (List.take_append_drop _ _).symm, ?_, ?_⟩
    · rw [List.length_take, Nat.min_eq_left within]
    · rw [List.drop_append_of_le_length within]
  · cases taken

/-- Behind digits there are only digits and the character that ends their row. -/
theorem takeTwoAfter_eq_none {mark : Char} (digits : ∀ d ∈ row, d.isDigit = true)
    (noDigit : mark.isDigit = false) (apart : c ≠ mark) (rest : Text) (least bound : Nat) :
    takeTwoAfter mark least bound (row ++ c :: rest) = none := by
  cases row with
  | nil => rw [List.nil_append, takeTwoAfter, if_neg apart]
  | cons d row =>
      have digit := digits d List.mem_cons_self
      have differs : d ≠ mark := by
        rintro rfl
        cases digit.symm.trans noDigit
      rw [List.cons_append, takeTwoAfter, if_neg differs]

theorem readMoment_row (digits : ∀ d ∈ row, d.isDigit = true) (other : c.isDigit = false)
    (apart : row = [] ∨ c ≠ '-' ∧ c ≠ ':') : readMoment (row ++ c :: rest) = none := by
  have noDay : readDayNumbers (row ++ c :: rest) = none := by
    unfold readDayNumbers
    cases taken : takeDigits 4 (row ++ c :: rest) with
    | none => rfl
    | some found =>
        obtain ⟨first, later, rfl, count, after⟩ := takeDigits_row other taken
        rcases apart with empty | apart
        · simp [(List.append_eq_nil_iff.1 empty).1] at count
        · have none := takeTwoAfter_eq_none
            (fun d mem => digits d (List.mem_append_right _ mem)) (by decide) apart.1 rest 1 13
          simp [after, none]
  have noTime : readTomlTime (row ++ c :: rest) = none := by
    unfold readTomlTime takeTwo
    cases taken : takeDigits 2 (row ++ c :: rest) with
    | none => rfl
    | some found =>
        obtain ⟨first, later, rfl, count, after⟩ := takeDigits_row other taken
        rcases apart with empty | apart
        · simp [(List.append_eq_nil_iff.1 empty).1] at count
        · have none := takeTwoAfter_eq_none
            (fun d mem => digits d (List.mem_append_right _ mem)) (by decide) apart.2 rest 0 60
          by_cases range : found.1 < 24
          · simp [range, after, none]
          · simp [range]
  rw [readMoment, noDay, noTime]
  rfl

end

/-! ### Numerals -/

section

variable {row : Text} {c : Char} {rest : Text}

/-- Digits are not taken for the mark of another base. -/
theorem readBased_row (digits : ∀ d ∈ row, d.isDigit = true) (other : c.isDigit = false)
    (plain : c ∉ ['x', 'b', 'o']) : readBased (row ++ c :: rest) = none := by
  have noMark {mark : Char} (h : mark.isDigit = true ∨ mark = c) :
      mark ≠ 'x' ∧ mark ≠ 'b' ∧ mark ≠ 'o' := by
    rcases h with digit | rfl
    · refine ⟨?_, ?_, ?_⟩ <;> rintro rfl <;> cases digit
    · simpa using plain
  unfold readBased
  split
  · next mark later whole =>
    have apart : mark ≠ 'x' ∧ mark ≠ 'b' ∧ mark ≠ 'o' := by
      cases row with
      | nil =>
          obtain ⟨rfl, -⟩ := List.cons.inj whole
          cases other
      | cons d row =>
          cases row with
          | nil => exact noMark (.inr (List.cons.inj (List.cons.inj whole).2).1.symm)
          | cons e row =>
              obtain ⟨rfl, -⟩ := List.cons.inj (List.cons.inj whole).2
              exact noMark (.inl (digits e (by simp)))
    simp [apart.1, apart.2.1, apart.2.2]
  · rfl

/-- What begins with digits or with a sign is no text and no truth value. -/
theorem readTomlScalar_of_row (digits : ∀ d ∈ row, d.isDigit = true) (other : c.isDigit = false)
    (apart : row = [] ∨ c ≠ '-' ∧ c ≠ ':') (plain : c ∉ ['"', '\'', 't', 'f', 'x', 'b', 'o']) :
    readTomlScalar (row ++ c :: rest) =
      (readDecimal (row ++ c :: rest) <|> readSpecial (row ++ c :: rest)) := by
  have notBased : readBased (row ++ c :: rest) = none :=
    readBased_row digits other fun mem => plain (List.mem_append_right ['"', '\'', 't', 'f'] mem)
  have noMoment : readMoment (row ++ c :: rest) = none := readMoment_row digits other apart
  obtain ⟨d, later, whole, begins⟩ : ∃ d later, row ++ c :: rest = d :: later ∧
      d ∉ ['"', '\'', 't', 'f'] := by
    cases row with
    | nil => exact ⟨c, rest, rfl, fun mem => plain (List.mem_append_left ['x', 'b', 'o'] mem)⟩
    | cons d row =>
        refine ⟨d, row ++ c :: rest, rfl, fun mem => ?_⟩
        have digit := digits d List.mem_cons_self
        simp only [List.mem_cons, List.not_mem_nil, or_false] at mem
        rcases mem with rfl | rfl | rfl | rfl <;> cases digit
  have noBoolean : readBoolean (row ++ c :: rest) = none := by
    have apart : 't' ≠ d ∧ 'f' ≠ d := by
      refine ⟨?_, ?_⟩ <;> rintro rfl <;> simp at begins
    have noTrue : after? "true".toList (d :: later) = none := after?_cons_ne apart.1 _ _
    have noFalse : after? "false".toList (d :: later) = none := after?_cons_ne apart.2 _ _
    rw [whole, readBoolean, noTrue, noFalse]
  have noQuote :
      ¬ (((row ++ c :: rest).head? = some '"') || (row ++ c :: rest).head? = some '\'') := by
    rw [whole]
    simp at begins ⊢
    tauto
  rw [readTomlScalar, if_neg noQuote, noBoolean, noMoment, notBased]
  rfl

end

/-- A decimal numeral that begins with a row of digits. -/
theorem readDecimal_row (negative : Bool) {row : Text} (digits : ∀ d ∈ row, d.isDigit = true)
    (leading : row = ['0'] ∨ row ≠ [] ∧ row.head? ≠ some '0') {c : Char}
    (other : c.isDigit = false) (plain : c ≠ '_') (rest : Text) :
    readDecimal ((if negative then ['-'] else []) ++ row ++ c :: rest) =
      let (fraction, later) := spanFraction (c :: rest)
      let (exponent, later) := spanTomlExponent later
      if fraction.isEmpty && exponent.isNone then
        if maxIntegerDigits < row.length then none
        else
          let value : Int := Nat.ofDigitChars 10 row 0
          some (.integer (if negative then -value else value), later)
      else
        some (.float (.ofDecimal negative (baseValue 10 (row ++ fraction))
          (exponent.getD 0 - fraction.length)), later) := by
  have nonempty : row ≠ [] := by
    rcases leading with rfl | some
    · exact List.cons_ne_nil _ _
    · exact some.1
  have sign : spanSign ((if negative then ['-'] else []) ++ row ++ c :: rest) =
      (negative, row ++ c :: rest) := by
    obtain ⟨d, later, rfl⟩ := List.exists_cons_of_ne_nil nonempty
    rw [List.append_assoc]
    exact spanSign_signed negative (digits d List.mem_cons_self) _
  unfold readDecimal
  rw [sign]
  dsimp only
  split
  · next after whole =>
    have only : row = ['0'] := by
      refine leading.resolve_right fun some => some.2 ?_
      have kept : (row ++ c :: rest).head? = row.head? := List.head?_append_of_ne_nil _ nonempty
      rw [← kept, whole]
      rfl
    subst only
    obtain ⟨-, rfl⟩ := List.cons.inj whole
    rfl
  · rw [readUnderscored_row digits nonempty other plain rest]
    rw [← baseValue_ten digits]
    rfl

/-- An exponent as it is written. -/
def exponentText : Option (Bool × Text) → Text
  | none => []
  | some (negative, digits) => 'e' :: (if negative then '-' else '+') :: digits

/-- The number that an exponent stands for, zero if there is none. -/
def exponentValue : Option (Bool × Text) → Int
  | none => 0
  | some (negative, digits) =>
      if negative then -(Nat.ofDigitChars 10 digits 0 : Int) else Nat.ofDigitChars 10 digits 0

/-- The digits behind a point as they are written. -/
def fractionText (fraction : Text) : Text :=
  if fraction = [] then [] else '.' :: fraction

/-- A numeral in parts: digits before the point, which do not begin with a zero unless there is no
other, and digits behind it or an exponent. -/
structure NumeralParts where
  whole : Text
  fraction : Text
  exponent : Option (Bool × Text)
  whole_digits : ∀ c ∈ whole, c.isDigit = true
  whole_leading : whole = ['0'] ∨ whole ≠ [] ∧ whole.head? ≠ some '0'
  fraction_digits : ∀ c ∈ fraction, c.isDigit = true
  exponent_digits : ∀ e ∈ exponent, e.2 ≠ [] ∧ ∀ c ∈ e.2, c.isDigit = true
  parted : fraction ≠ [] ∨ exponent ≠ none

namespace NumeralParts

/-- A numeral as it is written. -/
def text (n : NumeralParts) : Text :=
  n.whole ++ (fractionText n.fraction ++ exponentText n.exponent)

/-- The digits of a numeral as a whole number. -/
def digits (n : NumeralParts) : Nat :=
  Nat.ofDigitChars 10 (n.whole ++ n.fraction) 0

/-- The place of the last digit of a numeral. -/
def place (n : NumeralParts) : Int :=
  exponentValue n.exponent - n.fraction.length

end NumeralParts

/-- Characters of numerals. -/
def DecimalChar (c : Char) : Prop :=
  c.isDigit = true ∨ c ∈ ['+', '-', '.', 'e']

theorem NumeralParts.decimalChar_of_mem {n : NumeralParts} {c : Char} (mem : c ∈ n.text) :
    DecimalChar c := by
  rw [text, fractionText, List.mem_append, List.mem_append] at mem
  rcases mem with whole | fraction | exponent
  · exact .inl (n.whole_digits c whole)
  · split at fraction
    · cases fraction
    · rcases List.mem_cons.1 fraction with rfl | digit
      · exact .inr (by decide)
      · exact .inl (n.fraction_digits c digit)
  · cases some : n.exponent with
    | none =>
        rw [some] at exponent
        cases exponent
    | some e =>
        rw [some] at exponent
        rcases List.mem_cons.1 exponent with rfl | signed
        · exact .inr (by decide)
        rcases List.mem_cons.1 signed with rfl | digit
        · cases e.1 <;> exact .inr (by decide)
        · exact .inl ((n.exponent_digits e some).2 c digit)

theorem spanFraction_text {fraction : Text} (digits : ∀ c ∈ fraction, c.isDigit = true) {c : Char}
    (other : c.isDigit = false) (plain : c ≠ '_' ∧ c ≠ '.') (rest : Text) :
    spanFraction (fractionText fraction ++ c :: rest) = (fraction, c :: rest) := by
  by_cases empty : fraction = []
  · rw [fractionText, if_pos empty, List.nil_append, empty]
    unfold spanFraction
    split
    · next same => exact absurd (List.cons.inj same).1 plain.2
    · rfl
  · rw [fractionText, if_neg empty, List.cons_append]
    show (readUnderscored Char.isDigit (fraction ++ c :: rest)).getD _ = _
    rw [readUnderscored_row digits empty other plain.1]
    rfl

theorem spanTomlExponent_text {exponent : Option (Bool × Text)}
    (digits : ∀ e ∈ exponent, e.2 ≠ [] ∧ ∀ c ∈ e.2, c.isDigit = true) (rest : Text) :
    spanTomlExponent (exponentText exponent ++ '\n' :: rest) =
      (exponent.map fun e => exponentValue (some e), '\n' :: rest) := by
  cases exponent with
  | none => rfl
  | some e =>
      obtain ⟨negative, row⟩ := e
      obtain ⟨nonempty, row_digits⟩ := digits _ rfl
      have sign : spanSign ((if negative then '-' else '+') :: (row ++ '\n' :: rest)) =
          (negative, row ++ '\n' :: rest) := by cases negative <;> rfl
      show spanTomlExponent ('e' :: (if negative then '-' else '+') :: (row ++ '\n' :: rest)) = _
      simp only [spanTomlExponent, decide_true, Bool.true_or, if_true, sign,
        readUnderscored_row row_digits nonempty (c := '\n') (by decide) (by decide),
        baseValue_ten row_digits]
      rfl

/-- Behind the fraction stands the letter of the exponent, or the line ends. -/
theorem exists_behind_fraction (exponent : Option (Bool × Text)) (rest : Text) :
    ∃ c later, exponentText exponent ++ '\n' :: rest = c :: later ∧ (c = 'e' ∨ c = '\n') := by
  cases exponent with
  | none => exact ⟨'\n', rest, rfl, .inr rfl⟩
  | some e => exact ⟨'e', _, rfl, .inl rfl⟩

/-- Behind the digits before the point stands the point or the letter of the exponent. -/
theorem NumeralParts.exists_behind_whole (n : NumeralParts) (rest : Text) :
    ∃ c later, n.text ++ rest = n.whole ++ c :: later ∧
      c :: later = fractionText n.fraction ++ (exponentText n.exponent ++ rest) ∧
      (c = '.' ∨ c = 'e') := by
  have parts : n.text ++ rest =
      n.whole ++ (fractionText n.fraction ++ (exponentText n.exponent ++ rest)) := by
    rw [text, List.append_assoc, List.append_assoc]
  rw [parts]
  by_cases empty : n.fraction = []
  · obtain ⟨e, some⟩ := Option.ne_none_iff_exists'.1 (n.parted.resolve_left (not_not.2 empty))
    rw [empty, some]
    exact ⟨'e', _, rfl, rfl, .inr rfl⟩
  · rw [fractionText, if_neg empty]
    exact ⟨'.', _, rfl, rfl, .inl rfl⟩

/-- A numeral with a point or an exponent is read as the number that its digits stand for. -/
theorem readDecimal_text (negative : Bool) (n : NumeralParts) (rest : Text) :
    readDecimal ((if negative then ['-'] else []) ++ n.text ++ '\n' :: rest) =
      some (.float (.ofDecimal negative n.digits n.place), '\n' :: rest) := by
  obtain ⟨c, later, text, behind, mark⟩ := n.exists_behind_whole ('\n' :: rest)
  obtain ⟨d, last, exponent, mark'⟩ := exists_behind_fraction n.exponent rest
  have other : c.isDigit = false ∧ c ≠ '_' := by rcases mark with rfl | rfl <;> decide
  have other' : d.isDigit = false ∧ d ≠ '_' ∧ d ≠ '.' := by rcases mark' with rfl | rfl <;> decide
  have fraction : spanFraction (c :: later) = (n.fraction, d :: last) := by
    rw [behind, exponent]
    exact spanFraction_text n.fraction_digits other'.1 other'.2 last
  have power : spanTomlExponent (d :: last) =
      (n.exponent.map fun e => exponentValue (some e), '\n' :: rest) := by
    rw [← exponent]
    exact spanTomlExponent_text n.exponent_digits rest
  have value :
      (n.exponent.map fun e => exponentValue (some e)).getD 0 = exponentValue n.exponent := by
    cases n.exponent <;> rfl
  have number : (n.fraction.isEmpty &&
      (n.exponent.map fun e => exponentValue (some e)).isNone) = false := by
    rcases n.parted with some | some
    · simp [some]
    · simp [Option.isSome_iff_ne_none.2 some]
  have whole : ∀ c ∈ n.whole ++ n.fraction, c.isDigit = true :=
    List.forall_mem_append.2 ⟨n.whole_digits, n.fraction_digits⟩
  rw [List.append_assoc, text, ← List.append_assoc,
    readDecimal_row negative n.whole_digits n.whole_leading other.1 other.2 later]
  simp only [fraction, power, number, value, baseValue_ten whole]
  rfl

/-! ### Layouts -/

section

variable {row : Text} {exponent : Int} {units : Nat}

theorem isDigit_of_mem_zeros {zeros : Nat} {c : Char} (mem : c ∈ List.replicate zeros '0') :
    c.isDigit = true := by
  rw [List.eq_of_mem_replicate mem]
  decide

/-- A value below one has zeros between the point and its digits. -/
def smallParts (denotes : Denotes row exponent units) (zeros : Nat) : NumeralParts where
  whole := ['0']
  fraction := List.replicate zeros '0' ++ row
  exponent := none
  whole_digits := List.forall_mem_singleton.2 rfl
  whole_leading := .inl rfl
  fraction_digits :=
    List.forall_mem_append.2 ⟨fun _ mem => isDigit_of_mem_zeros mem, denotes.digits⟩
  exponent_digits := nofun
  parted := .inl (List.append_ne_nil_of_right_ne_nil _ denotes.nonempty)

/-- Other values have the point behind some of their digits, or behind zeros that follow these. -/
def positionalParts (denotes : Denotes row exponent units) (places : Nat) : NumeralParts where
  whole := row.take (places + 1) ++ List.replicate (places + 1 - row.length) '0'
  fraction := if (row.drop (places + 1)).isEmpty then ['0'] else row.drop (places + 1)
  exponent := none
  whole_digits := List.forall_mem_append.2
    ⟨fun c mem => denotes.digits c (List.mem_of_mem_take mem),
      fun _ mem => isDigit_of_mem_zeros mem⟩
  whole_leading := by
    obtain ⟨d, later, rfl⟩ := List.exists_cons_of_ne_nil denotes.nonempty
    exact .inr ⟨List.cons_ne_nil _ _, denotes.leading⟩
  fraction_digits := by
    split
    · exact List.forall_mem_singleton.2 rfl
    · exact fun c mem => denotes.digits c (List.mem_of_mem_drop mem)
  exponent_digits := nofun
  parted := by
    left
    split
    · exact List.cons_ne_nil _ _
    · next some => simpa using some

/-- With an exponent the point stands behind the first digit, if there are others. -/
def scientificParts (denotes : Denotes row exponent units) (width : Nat) : NumeralParts where
  whole := row.take 1
  fraction := row.drop 1
  exponent := some (decide (exponent < 0),
    List.replicate (width - (ofNat exponent.natAbs).length) '0' ++ ofNat exponent.natAbs)
  whole_digits := fun c mem => denotes.digits c (List.mem_of_mem_take mem)
  whole_leading := by
    obtain ⟨d, later, rfl⟩ := List.exists_cons_of_ne_nil denotes.nonempty
    exact .inr ⟨List.cons_ne_nil _ _, denotes.leading⟩
  fraction_digits := fun c mem => denotes.digits c (List.mem_of_mem_drop mem)
  exponent_digits := by
    rintro e ⟨⟩
    refine ⟨List.append_ne_nil_of_right_ne_nil _ Nat.toDigits_ne_nil, List.forall_mem_append.2
      ⟨fun _ mem => isDigit_of_mem_zeros mem, fun c mem => ?_⟩⟩
    exact Nat.isDigit_of_mem_toDigits (by decide) (by decide) mem
  parted := .inr (Option.some_ne_none _)

/-- The layout of a numeral for a count of units has these parts and stands for a value that reads
as the count. -/
def LaidOut (t : Text) (units : Nat) : Prop :=
  ∃ n : NumeralParts, t = n.text ∧ (RoundingInterval.of units).holds n.digits n.place = true

theorem laidOut_small (denotes : Denotes row exponent units) (below : exponent < 0) :
    LaidOut ('0' :: '.' :: List.replicate (-exponent - 1).toNat '0' ++ row) units := by
  let n := smallParts denotes (-exponent - 1).toNat
  have text : '0' :: '.' :: List.replicate (-exponent - 1).toNat '0' ++ row = n.text := by
    simp [n, NumeralParts.text, smallParts, fractionText, exponentText, denotes.nonempty]
  have place : n.place = exponent + 1 - row.length := by
    simp only [n, NumeralParts.place, smallParts, exponentValue, List.length_append,
      List.length_replicate]
    omega
  have digits : n.digits = Nat.ofDigitChars 10 row 0 := by
    simp [n, NumeralParts.digits, smallParts, Nat.ofDigitChars_append, Nat.ofDigitChars_cons]
  refine ⟨n, text, ?_⟩
  rw [place, digits]
  exact denotes.held

theorem laidOut_positional (denotes : Denotes row exponent units) {places : Nat}
    (first : exponent = places) :
    LaidOut (row.take (places + 1) ++ List.replicate (places + 1 - row.length) '0' ++
      '.' :: (if (row.drop (places + 1)).isEmpty then ['0'] else row.drop (places + 1))) units := by
  let n := positionalParts denotes places
  refine ⟨n, ?_, RoundingInterval.holds_congr ?_ denotes.held⟩
  · have some : n.fraction ≠ [] := n.parted.resolve_right (not_not.2 rfl)
    rw [NumeralParts.text, fractionText, if_neg some]
    simp [n, positionalParts, exponentText]
  · simp only [n, NumeralParts.place, NumeralParts.digits, positionalParts, exponentValue]
    rcases Nat.lt_or_ge (places + 1) row.length with long | short
    · -- The point stands between two digits.
      have some : (row.drop (places + 1)).isEmpty = false := by
        rw [List.isEmpty_eq_false_iff, ← List.length_pos_iff, List.length_drop]
        omega
      have place : exponent + 1 - row.length = 0 - (row.drop (places + 1)).length := by
        rw [List.length_drop]
        omega
      have zeros : places + 1 - row.length = 0 := by omega
      rw [if_neg (by simp [some]), zeros, List.replicate_zero, List.append_nil,
        List.take_append_drop, place]
    · -- Zeros follow the digits, and one stands behind the point.
      have zeros : exponent + 1 - row.length = (places + 1 - row.length : Nat) := by omega
      have digits : Nat.ofDigitChars 10
          (row ++ List.replicate (places + 1 - row.length) '0' ++ ['0']) 0 =
          10 * (10 ^ (places + 1 - row.length) * Nat.ofDigitChars 10 row 0) := by
        simp [Nat.ofDigitChars_append, Nat.ofDigitChars_cons]
      have tenth : (0 : Int) - (['0'] : Text).length = -1 := rfl
      rw [List.drop_of_length_le short, List.take_of_length_le short, if_pos List.isEmpty_nil,
        digits, zeros, zpow_natCast, tenth, zpow_neg_one]
      push_cast
      ring

theorem laidOut_scientific (denotes : Denotes row exponent units) (width : Nat) :
    LaidOut (row.take 1 ++ (if (row.drop 1).isEmpty then [] else '.' :: row.drop 1) ++
      'e' :: (if exponent < 0 then '-' else '+') ::
        List.replicate (width - (ofNat exponent.natAbs).length) '0' ++ ofNat exponent.natAbs)
      units := by
  let n := scientificParts denotes width
  refine ⟨n, ?_, ?_⟩
  · simp [n, NumeralParts.text, scientificParts, fractionText, exponentText]
  · have digits : n.digits = Nat.ofDigitChars 10 row 0 := by
      simp only [n, NumeralParts.digits, scientificParts, List.take_append_drop]
    have power : exponentValue n.exponent = exponent := by
      have value : Nat.ofDigitChars 10
          (List.replicate (width - (ofNat exponent.natAbs).length) '0' ++
            ofNat exponent.natAbs) 0 = exponent.natAbs := by
        rw [Nat.ofDigitChars_append, Nat.ofDigitChars_replicate_zero, Nat.mul_zero]
        exact Nat.ofDigitChars_ten_toDigits
      simp only [n, scientificParts, exponentValue, value, decide_eq_true_eq]
      split <;> omega
    have place : n.place = exponent + 1 - row.length := by
      have some := List.length_pos_iff.2 denotes.nonempty
      have length : n.fraction.length = row.length - 1 := List.length_drop
      rw [NumeralParts.place, power, length]
      omega
    rw [place, digits]
    exact denotes.held

theorem laidOut_write (layout : NumeralLayout) (denotes : Denotes row exponent units) :
    LaidOut (layout.write row exponent) units := by
  unfold NumeralLayout.write
  split
  · split
    · next below => exact laidOut_small denotes below
    · next whole => exact laidOut_positional denotes (Int.toNat_of_nonneg (by omega)).symm
  · exact laidOut_scientific denotes layout.exponentDigits

end

/-! ### Whole numbers and numbers -/

/-- A sign in front of digits. -/
theorem readTomlScalar_signed (negative : Bool) {row : Text} (digits : ∀ d ∈ row, d.isDigit = true)
    {c : Char} (other : c.isDigit = false)
    (plain : c ∉ ['"', '\'', 't', 'f', 'x', 'b', 'o', '-', ':']) {rest : Text}
    {found : TomlValue × Text}
    (read : readDecimal ((if negative then ['-'] else []) ++ row ++ c :: rest) = some found) :
    readTomlScalar ((if negative then ['-'] else []) ++ row ++ c :: rest) = some found := by
  have begun : readTomlScalar ((if negative then ['-'] else []) ++ row ++ c :: rest) =
      (readDecimal ((if negative then ['-'] else []) ++ row ++ c :: rest) <|>
        readSpecial ((if negative then ['-'] else []) ++ row ++ c :: rest)) := by
    cases negative with
    | true =>
        exact @readTomlScalar_of_row [] '-' _ nofun (by decide) (.inl rfl) (by decide)
    | false =>
        refine readTomlScalar_of_row digits other (.inr ⟨?_, ?_⟩) fun mem => plain ?_
        · rintro rfl
          simp at plain
        · rintro rfl
          simp at plain
        · simp at mem ⊢
          tauto
  rw [begun, read]
  rfl

/-- An integer that is short enough is read as it was written. -/
theorem readTomlScalar_ofInt {i : Int} (short : (ofNat i.natAbs).length ≤ maxIntegerDigits)
    (rest : Text) : readTomlScalar (ofInt i ++ '\n' :: rest) = some (.integer i, '\n' :: rest) := by
  have digits : ∀ c ∈ ofNat i.natAbs, c.isDigit = true := fun c mem =>
    Nat.isDigit_of_mem_toDigits (by decide) (by decide) mem
  have leading :
      ofNat i.natAbs = ['0'] ∨ ofNat i.natAbs ≠ [] ∧ (ofNat i.natAbs).head? ≠ some '0' := by
    rcases Nat.eq_zero_or_pos i.natAbs with zero | pos
    · left
      rw [zero]
      rfl
    · exact .inr ⟨Nat.toDigits_ne_nil, head?_ofNat_ne_zero pos⟩
  have value : Nat.ofDigitChars 10 (ofNat i.natAbs) 0 = i.natAbs := Nat.ofDigitChars_ten_toDigits
  have signed : ofInt i = (if decide (i < 0) then ['-'] else []) ++ ofNat i.natAbs := by
    rw [ofInt]
    split <;> simp [*]
  rw [signed]
  refine readTomlScalar_signed _ digits (by decide) (by decide) ?_
  rw [readDecimal_row _ digits leading (by decide) (by decide)]
  have number : (if decide (i < 0) then -(i.natAbs : Int) else i.natAbs) = i := by
    simp only [decide_eq_true_eq]
    split <;> omega
  simp only [spanFraction, spanTomlExponent, if_neg (Nat.not_lt.2 short), value, number]
  rfl

theorem readTomlScalar_parts (negative : Bool) (n : NumeralParts) (rest : Text) :
    readTomlScalar ((if negative then ['-'] else []) ++ n.text ++ '\n' :: rest) =
      some (.float (.ofDecimal negative n.digits n.place), '\n' :: rest) := by
  have read := readDecimal_text negative n rest
  obtain ⟨c, later, text, -, mark⟩ := n.exists_behind_whole ('\n' :: rest)
  rw [List.append_assoc, text, ← List.append_assoc] at read ⊢
  refine readTomlScalar_signed negative n.whole_digits ?_ ?_ read
  · rcases mark with rfl | rfl <;> decide
  · rcases mark with rfl | rfl <;> decide

/-- Zero is written with a zero on both sides of the point. -/
def zeroParts : NumeralParts where
  whole := ['0']
  fraction := ['0']
  exponent := none
  whole_digits := List.forall_mem_singleton.2 rfl
  whole_leading := .inl rfl
  fraction_digits := List.forall_mem_singleton.2 rfl
  exponent_digits := nofun
  parted := .inl (List.cons_ne_nil _ _)

/-- The magnitude of a finite number as it is written. -/
theorem laidOut_magnitude {units : Nat} (fits : Representable units) :
    LaidOut (if units = 0 then "0.0".toList
      else numeralLayout.write (shortest units).1 (shortest units).2) units := by
  split
  · next zero =>
    subst zero
    exact ⟨zeroParts, rfl, by decide +kernel⟩
  · next some => exact laidOut_write numeralLayout (shortest_denotes fits (Nat.pos_of_ne_zero some))

/-- A finite number is written as a sign and a numeral that denotes it. -/
theorem exists_parts_of_text (negative : Bool) {units : Nat} (fits : Representable units) :
    ∃ n : NumeralParts,
      (Double.finite negative units fits).text = (if negative then ['-'] else []) ++ n.text ∧
        Double.ofDecimal negative n.digits n.place = .finite negative units fits := by
  obtain ⟨n, magnitude, held⟩ := laidOut_magnitude fits
  refine ⟨n, ?_, Double.ofDecimal_of_holds negative fits held⟩
  rw [← magnitude]
  cases negative <;> rfl

/-- Every number is read from its text. -/
theorem readTomlScalar_text (x : Double) (rest : Text) :
    readTomlScalar (x.text ++ '\n' :: rest) = some (.float x, '\n' :: rest) := by
  cases x with
  | nan => rfl
  | infinite negative => cases negative <;> rfl
  | finite negative units fits =>
      obtain ⟨n, text, value⟩ := exists_parts_of_text negative fits
      rw [text, readTomlScalar_parts, value]

/-- What is written of a number holds characters of numerals and letters of names only. -/
theorem mem_doubleText {x : Double} {c : Char} (mem : c ∈ x.text) :
    DecimalChar c ∨ c ∈ ['i', 'n', 'f', 'a'] := by
  cases x with
  | nan =>
      have letters : ['n', 'a', 'n'] ⊆ ['i', 'n', 'f', 'a'] := by simp
      exact .inr (letters mem)
  | infinite negative =>
      have letters : ['i', 'n', 'f'] ⊆ ['i', 'n', 'f', 'a'] := by simp
      cases negative with
      | true =>
          rcases List.mem_cons.1 mem with rfl | name
          · exact .inl (.inr (by decide))
          · exact .inr (letters name)
      | false => exact .inr (letters mem)
  | finite negative units fits =>
      obtain ⟨n, text, -⟩ := exists_parts_of_text negative fits
      rw [text, List.mem_append] at mem
      rcases mem with sign | magnitude
      · cases negative with
        | true =>
            obtain rfl := List.mem_singleton.1 sign
            exact .inl (.inr (by decide))
        | false => cases sign
      · exact .inl (n.decimalChar_of_mem magnitude)

theorem decimalChar_of_mem_ofInt {i : Int} {c : Char} (mem : c ∈ ofInt i) : DecimalChar c := by
  have digit (h : c ∈ ofNat i.natAbs) : DecimalChar c :=
    .inl (Nat.isDigit_of_mem_toDigits (by decide) (by decide) h)
  rw [ofInt] at mem
  split at mem
  · rcases List.mem_cons.1 mem with rfl | h
    · exact .inr (by decide)
    · exact digit h
  · exact digit mem

end WardleyMaps
