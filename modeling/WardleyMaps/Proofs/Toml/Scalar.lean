/-
Module: WardleyMaps.Proofs.Toml.Scalar
Purpose: A value that is written on a line is read from it.
Main exports: ReadsAs, readsAs_text, readsAs_boolean, readsAs_integer, readsAs_float
-/
import WardleyMaps.Proofs.Toml.Numeral
import WardleyMaps.Settings.Write
import WardleyMaps.Toml.Read

namespace WardleyMaps

open Text

/-!
A string is read character by character. Every character is read back from what is written of it, be
it escaped or not (`readBasic_escaped`), and nothing that is written of it begins with the quote
that ends the string. Together with the numerals and the truth values these are the values that a
line can hold (`ReadsAs`).
-/

/-! ### Strings -/

theorem readBasic_quote (rest : Text) : readBasic ('"' :: rest) = some ([], rest) := by
  rw [readBasic, if_pos rfl]

theorem readBasic_escape {t later : Text} {c : Char} (escape : readEscape t = some (c, later)) :
    readBasic ('\\' :: t) = (readBasic later).map fun (read, after) => (c :: read, after) := by
  rw [readBasic, if_neg (by decide), if_pos rfl]
  split
  · next found same =>
    rw [escape] at same
    obtain ⟨rfl, rfl⟩ := Prod.mk.inj (Option.some.inj same)
    rfl
  · next none =>
    rw [escape] at none
    cases none

theorem readBasic_plain {c : Char} (noQuote : c ≠ '"') (noEscape : c ≠ '\\')
    (shown : isTomlControl c = false) (rest : Text) :
    readBasic (c :: rest) = (readBasic rest).map fun (read, after) => (c :: read, after) := by
  rw [readBasic, if_neg noQuote, if_neg noEscape, if_neg (by simp [shown])]

/-- The digits of a small number in four places. -/
theorem hexadecimal_four :
    ∀ n < 128, hexadecimal 4 n = ['0', '0', Nat.digitChar (n / 16), Nat.digitChar (n % 16)] := by
  decide +kernel

theorem hexValue?_digitChar : ∀ d < 16, hexValue? (Nat.digitChar d) = some d := by
  decide

/-- A character that is written by its number is read back. -/
theorem readEscape_hexadecimal {c : Char} (small : c.toNat < 128) (rest : Text) :
    readEscape ('u' :: hexadecimal 4 c.toNat ++ rest) = some (c, rest) := by
  have zero : hexValue? '0' = some 0 := by decide
  have high := hexValue?_digitChar (c.toNat / 16) (by omega)
  have low := hexValue?_digitChar (c.toNat % 16) (by omega)
  have number : 16 * (c.toNat / 16) + c.toNat % 16 = c.toNat := Nat.div_add_mod _ _
  have valid : c.toNat.isValidChar := c.valid
  rw [hexadecimal_four c.toNat small]
  show readHexChar 4 ('0' :: '0' :: _ :: _ :: rest) = _
  simp [readHexChar, takeHex, zero, high, low, number, valid, Char.ofNat_toNat]

/-- What is written of a character is read as this character. -/
theorem readBasic_escaped (c : Char) (rest : Text) :
    readBasic (tomlEscaped c ++ rest) =
      (readBasic rest).map fun (read, after) => (c :: read, after) := by
  unfold tomlEscaped
  split
  · exact readBasic_escape rfl
  · exact readBasic_escape rfl
  · exact readBasic_escape rfl
  · exact readBasic_escape rfl
  · exact readBasic_escape rfl
  · exact readBasic_escape rfl
  · next noQuote noEscape _ _ _ _ =>
    split
    · next control =>
      have small : c.toNat < 128 := by
        simp only [Bool.or_eq_true, Bool.and_eq_true, decide_eq_true_eq] at control
        omega
      exact readBasic_escape (readEscape_hexadecimal small rest)
    · next shown =>
      exact readBasic_plain noQuote noEscape (by simpa [isTomlControl] using shown) rest

theorem readBasic_body (t rest : Text) :
    readBasic (t.flatMap tomlEscaped ++ '"' :: rest) = some (t, rest) := by
  induction t with
  | nil => exact readBasic_quote rest
  | cons c t ih =>
      rw [List.flatMap_cons, List.append_assoc, readBasic_escaped, ih]
      rfl

/-- What is written of a character begins with no quote. -/
theorem tomlEscaped_begins (c : Char) : ∃ d later, tomlEscaped c = d :: later ∧ d ≠ '"' := by
  unfold tomlEscaped
  split
  · exact ⟨_, _, rfl, by decide⟩
  · exact ⟨_, _, rfl, by decide⟩
  · exact ⟨_, _, rfl, by decide⟩
  · exact ⟨_, _, rfl, by decide⟩
  · exact ⟨_, _, rfl, by decide⟩
  · exact ⟨_, _, rfl, by decide⟩
  · next noQuote _ _ _ _ _ =>
    split
    · exact ⟨_, _, rfl, by decide⟩
    · exact ⟨c, [], rfl, noQuote⟩

/-- No carriage return is written as such. -/
theorem return_not_mem_tomlEscaped (c : Char) : '\r' ∉ tomlEscaped c := by
  unfold tomlEscaped
  split
  · decide
  · decide
  · decide
  · decide
  · decide
  · decide
  · next _ _ _ _ _ noReturn =>
    split
    · next control =>
      have small : c.toNat < 128 := by
        simp only [Bool.or_eq_true, Bool.and_eq_true, decide_eq_true_eq] at control
        omega
      have noDigit (d : Nat) : '\r' ≠ Nat.digitChar d := (Nat.digitChar_ne '\r' (by decide)).symm
      rw [hexadecimal_four c.toNat small]
      simp [noDigit]
    · rw [List.mem_singleton]
      exact Ne.symm noReturn

/-- A string between quotes is read as what it was written from. -/
theorem readTomlString_tomlQuoted (t rest : Text) :
    readTomlString (tomlQuoted t ++ '\n' :: rest) = some (t, '\n' :: rest) := by
  have body : readBasic (t.flatMap tomlEscaped ++ '"' :: '\n' :: rest) = some (t, '\n' :: rest) :=
    readBasic_body t _
  have shape : tomlQuoted t ++ '\n' :: rest =
      '"' :: (t.flatMap tomlEscaped ++ '"' :: '\n' :: rest) := by
    simp [tomlQuoted]
  -- Two more quotes cannot follow the first, as only the empty string ends at once.
  have oneLine : after? ['"', '"', '"'] ('"' :: (t.flatMap tomlEscaped ++ '"' :: '\n' :: rest)) =
      none := by
    cases t with
    | nil => rfl
    | cons c t =>
        obtain ⟨d, later, begins, noQuote⟩ := tomlEscaped_begins c
        rw [List.flatMap_cons, begins, after?, if_pos rfl]
        exact after?_cons_ne noQuote.symm _ _
  have noLiteral : after? ['\'', '\'', '\'']
      ('"' :: (t.flatMap tomlEscaped ++ '"' :: '\n' :: rest)) = none :=
    after?_cons_ne (by decide) _ _
  unfold readTomlString
  rw [shape, oneLine, noLiteral]
  exact body

/-! ### Values on a line -/

/-- A text that is read as a value at the end of a line. It opens no array and no table, and stands
on one line. -/
structure ReadsAs (t : Text) (v : TomlValue) : Prop where
  scalar : ∀ rest, readTomlScalar (t ++ '\n' :: rest) = some (v, '\n' :: rest)
  flat : v.isNested = false
  begins : ∀ c ∈ t.head?, isTomlBlank c = false ∧ c ≠ '[' ∧ c ≠ '\x7b'
  oneLine : '\r' ∉ t

theorem readsAs_text (t : Text) : ReadsAs (tomlQuoted t) (.text t) where
  scalar rest := by
    have quote : (tomlQuoted t ++ '\n' :: rest).head? = some '"' := rfl
    rw [readTomlScalar, if_pos (by simp [quote]), readTomlString_tomlQuoted]
    rfl
  flat := rfl
  begins := by
    rintro c ⟨⟩
    decide
  oneLine := by
    simp [tomlQuoted, return_not_mem_tomlEscaped]

theorem readsAs_boolean (b : Bool) : ReadsAs (tomlBoolean b) (.boolean b) := by
  constructor
  · cases b <;> exact fun rest => rfl
  · rfl
  · cases b <;> simp [tomlBoolean, isTomlBlank]
  · cases b <;> simp [tomlBoolean]

theorem DecimalChar.begins {c : Char} (h : DecimalChar c ∨ c ∈ ['i', 'n', 'f', 'a']) :
    isTomlBlank c = false ∧ c ≠ '[' ∧ c ≠ '\x7b' ∧ c ≠ '\r' := by
  have others : ∀ c ∈ ['+', '-', '.', 'e'] ++ ['i', 'n', 'f', 'a'],
      isTomlBlank c = false ∧ c ≠ '[' ∧ c ≠ '\x7b' ∧ c ≠ '\r' := by
    simp [isTomlBlank]
  rcases h with (digit | mark) | name
  · have apart {d : Char} (h : d.isDigit = false) : c ≠ d := by
      rintro rfl
      cases digit.symm.trans h
    refine ⟨?_, apart (by decide), apart (by decide), apart (by decide)⟩
    simp [isTomlBlank, apart (d := ' ') (by decide), apart (d := '\t') (by decide)]
  · exact others c (List.mem_append_left _ mark)
  · exact others c (List.mem_append_right _ name)

theorem readsAs_of_decimalChar {t : Text} {v : TomlValue}
    (scalar : ∀ rest, readTomlScalar (t ++ '\n' :: rest) = some (v, '\n' :: rest))
    (flat : v.isNested = false) (chars : ∀ c ∈ t, DecimalChar c ∨ c ∈ ['i', 'n', 'f', 'a']) :
    ReadsAs t v where
  scalar := scalar
  flat := flat
  begins c head := by
    obtain ⟨blank, array, table, -⟩ := DecimalChar.begins (chars c (List.mem_of_mem_head? head))
    exact ⟨blank, array, table⟩
  oneLine mem := (DecimalChar.begins (chars _ mem)).2.2.2 rfl

theorem readsAs_integer {i : Int} (short : (ofNat i.natAbs).length ≤ maxIntegerDigits) :
    ReadsAs (ofInt i) (.integer i) :=
  readsAs_of_decimalChar (readTomlScalar_ofInt short) rfl fun _ mem =>
    .inl (decimalChar_of_mem_ofInt mem)

theorem readsAs_float (x : Double) : ReadsAs x.text (.float x) :=
  readsAs_of_decimalChar (readTomlScalar_text x) rfl fun _ mem => mem_doubleText mem

end WardleyMaps
