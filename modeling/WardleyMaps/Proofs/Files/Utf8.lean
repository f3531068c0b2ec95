/-
Module: WardleyMaps.Proofs.Files.Utf8
Purpose: The bytes of a text are read back as the text.
Main exports: Utf8.decodeFrom_character, Utf8.decode_encode
-/
import WardleyMaps.Files.Utf8

namespace WardleyMaps.Utf8

/-!
The first byte of a character tells how many bytes it takes, and each of the others carries six bits
of its number. What is restricted of the second byte is the range of the number: the shortest form
must be used, and neither a surrogate nor a number beyond U+10FFFF is a character. So the bytes of
one character are read as this character, whatever follows them (`decodeFrom_character`), and those
of a text as the text (`decode_encode`).
-/

/-! ### Bytes as numbers -/

theorem width?_eq (lead : UInt8) :
    width? lead =
      if lead.toNat < 0x80 then some 1
      else if 0xC2 ≤ lead.toNat ∧ lead.toNat ≤ 0xDF then some 2
      else if 0xE0 ≤ lead.toNat ∧ lead.toNat ≤ 0xEF then some 3
      else if 0xF0 ≤ lead.toNat ∧ lead.toNat ≤ 0xF4 then some 4
      else none := by
  simp [width?, UInt8.lt_iff_toNat_lt, UInt8.le_iff_toNat_le]

theorem continues_iff {b : UInt8} : continues b = true ↔ 0x80 ≤ b.toNat ∧ b.toNat ≤ 0xBF := by
  simp [continues, UInt8.le_iff_toNat_le]

/-- A second byte fits when it continues and is neither too small nor too large for the first. -/
theorem continuesLead_of_range {lead b : UInt8} (h : 0x80 ≤ b.toNat ∧ b.toNat ≤ 0xBF)
    (shortest3 : lead.toNat = 0xE0 → 0xA0 ≤ b.toNat)
    (surrogate : lead.toNat = 0xED → b.toNat ≤ 0x9F)
    (shortest4 : lead.toNat = 0xF0 → 0x90 ≤ b.toNat)
    (largest : lead.toNat = 0xF4 → b.toNat ≤ 0x8F) : continuesLead lead b = true := by
  have hb := continues_iff.2 h
  simp only [continuesLead, ← UInt8.toNat_inj, hb, UInt8.le_iff_toNat_le, UInt8.reduceToNat]
  split
  · next hlead => simp [shortest3 hlead, h.2]
  · split
    · next hlead => simp [h.1, surrogate hlead]
    · split
      · next hlead => simp [shortest4 hlead, h.2]
      · split
        · next hlead => simp [h.1, largest hlead]
        · rfl

/-- The bytes that the encoding builds are in range, so nothing of them is cut off. -/
theorem toNat_ofNat_of_lt {n : Nat} (h : n < 256) : (UInt8.ofNat n).toNat = n := by
  rw [UInt8.toNat_ofNat', Nat.mod_eq_of_lt h]

/-- A byte that carries six bits. -/
theorem toNat_continuing (n : Nat) : (UInt8.ofNat (n % 64 + 128)).toNat = n % 64 + 128 :=
  toNat_ofNat_of_lt (by omega)

theorem continues_continuing (n : Nat) : continues (UInt8.ofNat (n % 64 + 128)) = true := by
  rw [continues_iff, toNat_continuing]
  omega

theorem payload_continuing (n : Nat) : payload (UInt8.ofNat (n % 64 + 128)) = n % 64 := by
  rw [payload, toNat_continuing]
  omega

/-! ### Reading one character -/

section

variable {a b d e : UInt8} (position : Nat) (rest : List UInt8)

theorem decodeFrom_one (hwidth : width? a = some 1) :
    decodeFrom position (a :: rest) =
      (decodeFrom (position + 1) rest).map (charOf a.toNat :: ·) := by
  simp [decodeFrom, hwidth]

theorem decodeFrom_two (hwidth : width? a = some 2) (hb : continuesLead a b = true) :
    decodeFrom position (a :: b :: rest) =
      (decodeFrom (position + 2) rest).map (charOf (a.toNat % 32 * 64 + payload b) :: ·) := by
  simp [decodeFrom, hwidth, hb]

theorem decodeFrom_three (hwidth : width? a = some 3) (hb : continuesLead a b = true)
    (hd : continues d = true) :
    decodeFrom position (a :: b :: d :: rest) =
      (decodeFrom (position + 3) rest).map
        (charOf ((a.toNat % 16 * 64 + payload b) * 64 + payload d) :: ·) := by
  simp [decodeFrom, hwidth, hb, hd]

theorem decodeFrom_four (hwidth : width? a = some 4) (hb : continuesLead a b = true)
    (hd : continues d = true) (he : continues e = true) :
    decodeFrom position (a :: b :: d :: e :: rest) =
      (decodeFrom (position + 4) rest).map
        (charOf (((a.toNat % 8 * 64 + payload b) * 64 + payload d) * 64 + payload e) :: ·) := by
  simp [decodeFrom, hwidth, hb, hd, he]

end

/-! ### Reading what was written -/

section

variable {v : Nat} (position : Nat) (rest : List UInt8)

theorem decodeFrom_written_one (h : v ≤ 0x7F) :
    decodeFrom position (UInt8.ofNat v :: rest) =
      (decodeFrom (position + 1) rest).map (charOf v :: ·) := by
  have hlead : (UInt8.ofNat v).toNat = v := toNat_ofNat_of_lt (by omega)
  have hwidth : width? (UInt8.ofNat v) = some 1 := by
    rw [width?_eq, hlead, if_pos (by omega)]
  rw [decodeFrom_one _ _ hwidth, hlead]

theorem decodeFrom_written_two (least : 0x7F < v) (h : v ≤ 0x7FF) :
    decodeFrom position
        (UInt8.ofNat (v / 64 % 32 + 192) :: UInt8.ofNat (v % 64 + 128) :: rest) =
      (decodeFrom (position + 2) rest).map (charOf v :: ·) := by
  have hlead : (UInt8.ofNat (v / 64 % 32 + 192)).toNat = v / 64 % 32 + 192 :=
    toNat_ofNat_of_lt (by omega)
  have hwidth : width? (UInt8.ofNat (v / 64 % 32 + 192)) = some 2 := by
    rw [width?_eq, hlead, if_neg (by omega), if_pos (by omega)]
  have hsecond : continuesLead (UInt8.ofNat (v / 64 % 32 + 192)) (UInt8.ofNat (v % 64 + 128)) =
      true := by
    apply continuesLead_of_range <;> rw [toNat_continuing] <;> omega
  have hnumber : (v / 64 % 32 + 192) % 32 * 64 + v % 64 = v := by omega
  rw [decodeFrom_two _ _ hwidth hsecond, hlead, payload_continuing, hnumber]

theorem decodeFrom_written_three (valid : v.isValidChar) (least : 0x7FF < v) (h : v ≤ 0xFFFF) :
    decodeFrom position
        (UInt8.ofNat (v / 4096 % 16 + 224) :: UInt8.ofNat (v / 64 % 64 + 128) ::
          UInt8.ofNat (v % 64 + 128) :: rest) =
      (decodeFrom (position + 3) rest).map (charOf v :: ·) := by
  have hlead : (UInt8.ofNat (v / 4096 % 16 + 224)).toNat = v / 4096 % 16 + 224 :=
    toNat_ofNat_of_lt (by omega)
  have hwidth : width? (UInt8.ofNat (v / 4096 % 16 + 224)) = some 3 := by
    rw [width?_eq, hlead, if_neg (by omega), if_neg (by omega), if_pos (by omega)]
  -- The number is no surrogate, which bounds the second byte behind the lead of these.
  have hsecond : continuesLead (UInt8.ofNat (v / 4096 % 16 + 224))
      (UInt8.ofNat (v / 64 % 64 + 128)) = true := by
    apply continuesLead_of_range <;> rw [toNat_continuing] <;> omega
  have hnumber : ((v / 4096 % 16 + 224) % 16 * 64 + v / 64 % 64) * 64 + v % 64 = v := by omega
  rw [decodeFrom_three _ _ hwidth hsecond (continues_continuing v), hlead, payload_continuing,
    payload_continuing, hnumber]

theorem decodeFrom_written_four (valid : v.isValidChar) (least : 0xFFFF < v) :
    decodeFrom position
        (UInt8.ofNat (v / 262144 % 8 + 240) :: UInt8.ofNat (v / 4096 % 64 + 128) ::
          UInt8.ofNat (v / 64 % 64 + 128) :: UInt8.ofNat (v % 64 + 128) :: rest) =
      (decodeFrom (position + 4) rest).map (charOf v :: ·) := by
  have hlead : (UInt8.ofNat (v / 262144 % 8 + 240)).toNat = v / 262144 % 8 + 240 :=
    toNat_ofNat_of_lt (by omega)
  have hwidth : width? (UInt8.ofNat (v / 262144 % 8 + 240)) = some 4 := by
    rw [width?_eq, hlead, if_neg (by omega), if_neg (by omega), if_neg (by omega),
      if_pos (by omega)]
  have hsecond : continuesLead (UInt8.ofNat (v / 262144 % 8 + 240))
      (UInt8.ofNat (v / 4096 % 64 + 128)) = true := by
    apply continuesLead_of_range <;> rw [toNat_continuing] <;> omega
  have hnumber :
      (((v / 262144 % 8 + 240) % 8 * 64 + v / 4096 % 64) * 64 + v / 64 % 64) * 64 + v % 64 = v := by
    omega
  rw [decodeFrom_four _ _ hwidth hsecond (continues_continuing _) (continues_continuing v), hlead,
    payload_continuing, payload_continuing, payload_continuing, hnumber]

end

/-- The bytes of a character are read as this character, and reading goes on behind them. -/
theorem decodeFrom_character (position : Nat) (c : Char) (rest : List UInt8) :
    ∃ later, decodeFrom position (String.utf8EncodeChar c ++ rest) =
      (decodeFrom later rest).map (c :: ·) := by
  have hchar : charOf c.val.toNat = c := Char.ofNat_toNat c
  simp only [String.utf8EncodeChar]
  split
  · next hone =>
    exact ⟨_, hchar ▸ decodeFrom_written_one position rest hone⟩
  · next hone =>
    split
    · next htwo =>
      exact ⟨_, hchar ▸ decodeFrom_written_two position rest (by omega) htwo⟩
    · next htwo =>
      split
      · next hthree =>
        exact ⟨_, hchar ▸ decodeFrom_written_three position rest c.valid (by omega) hthree⟩
      · next hthree =>
        exact ⟨_, hchar ▸ decodeFrom_written_four position rest c.valid (by omega)⟩

/-! ### Whole texts -/

theorem decodeFrom_encode (position : Nat) (t : Text) : decodeFrom position (encode t) = .ok t := by
  induction t generalizing position with
  | nil => rfl
  | cons c rest ih =>
      obtain ⟨later, hlater⟩ := decodeFrom_character position c (encode rest)
      rw [encode, List.flatMap_cons, ← encode, hlater, ih]
      rfl

/-- What was written is read back. -/
theorem decode_encode (t : Text) : decode (encode t) = .ok t :=
  decodeFrom_encode 0 t

end WardleyMaps.Utf8
