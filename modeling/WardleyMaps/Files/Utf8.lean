/-
Module: WardleyMaps.Files.Utf8
Purpose: Text as bytes in UTF-8, and where bytes fail to be text.
Main exports: Utf8.encode, Utf8.decode, Utf8.DecodeError
-/
import WardleyMaps.Text.Quoted

namespace WardleyMaps.Utf8

/-!
A character takes one to four bytes, and the first of them tells how many follow. The first
following byte is restricted further where a shorter form, a surrogate or a number beyond U+10FFFF
would result. Decoding stops at the first byte sequence that begins no character; the error counts
the bytes up to the one that does not fit.
-/

/-- The bytes of a text. -/
def encode (t : Text) : List UInt8 :=
  t.flatMap String.utf8EncodeChar

/-- Why bytes are no text. -/
inductive DecodeReason where
  | invalidStart
  | invalidContinuation
  | unexpectedEnd
deriving DecidableEq, Repr

/-- The bytes that begin no character: the first of them, its position and their count. -/
structure DecodeError where
  first : UInt8
  position : Nat
  count : Nat
  reason : DecodeReason
deriving DecidableEq, Repr

/-- The wording of a reason. -/
def DecodeReason.message : DecodeReason → String
  | .invalidStart => "invalid start byte"
  | .invalidContinuation => "invalid continuation byte"
  | .unexpectedEnd => "unexpected end of data"

/-- The wording of an error; a single byte is shown with its value. -/
def DecodeError.message (e : DecodeError) : String :=
  if e.count = 1 then
    let byte := String.ofList (Text.hexadecimal 2 e.first.toNat)
    s!"'utf-8' codec can't decode byte 0x{byte} in position {e.position}: {e.reason.message}"
  else
    let last := e.position + e.count - 1
    s!"'utf-8' codec can't decode bytes in position {e.position}-{last}: {e.reason.message}"

/-- How many bytes a character has that begins with a byte, none for bytes that begin no
character. -/
def width? (lead : UInt8) : Option Nat :=
  if lead < 0x80 then some 1
  else if 0xC2 ≤ lead && lead ≤ 0xDF then some 2
  else if 0xE0 ≤ lead && lead ≤ 0xEF then some 3
  else if 0xF0 ≤ lead && lead ≤ 0xF4 then some 4
  else none

/-- Bytes that continue a character. -/
def continues (b : UInt8) : Bool :=
  0x80 ≤ b && b ≤ 0xBF

/-- Bytes that may be the second of a character with the given first byte. -/
def continuesLead (lead b : UInt8) : Bool :=
  if lead = 0xE0 then 0xA0 ≤ b && b ≤ 0xBF
  else if lead = 0xED then 0x80 ≤ b && b ≤ 0x9F
  else if lead = 0xF0 then 0x90 ≤ b && b ≤ 0xBF
  else if lead = 0xF4 then 0x80 ≤ b && b ≤ 0x8F
  else continues b

/-- The character of a number that is put together from payload bits. -/
def charOf (bits : Nat) : Char :=
  Char.ofNat bits

/-- The bits that a continuing byte carries. -/
def payload (b : UInt8) : Nat :=
  b.toNat % 64

/-- The text of bytes that begin at a position of the whole. -/
def decodeFrom : Nat → List UInt8 → Except DecodeError Text
  | _, [] => .ok []
  | position, a :: rest =>
      let fault (count : Nat) (reason : DecodeReason) : Except DecodeError Text :=
        .error { first := a, position, count, reason }
      match width? a with
      | none => fault 1 .invalidStart
      | some 1 => (decodeFrom (position + 1) rest).map (charOf a.toNat :: ·)
      | some width =>
          match rest with
          | [] => fault 1 .unexpectedEnd
          | b :: rest =>
              if !continuesLead a b then fault 1 .invalidContinuation
              else if width = 2 then
                let c := charOf (a.toNat % 32 * 64 + payload b)
                (decodeFrom (position + 2) rest).map (c :: ·)
              else
                match rest with
                | [] => fault 2 .unexpectedEnd
                | d :: rest =>
                    if !continues d then fault 2 .invalidContinuation
                    else if width = 3 then
                      let c := charOf ((a.toNat % 16 * 64 + payload b) * 64 + payload d)
                      (decodeFrom (position + 3) rest).map (c :: ·)
                    else
                      match rest with
                      | [] => fault 3 .unexpectedEnd
                      | e :: rest =>
                          if !continues e then fault 3 .invalidContinuation
                          else
                            let high := (a.toNat % 8 * 64 + payload b) * 64 + payload d
                            let c := charOf (high * 64 + payload e)
                            (decodeFrom (position + 4) rest).map (c :: ·)

/-- The text of bytes. -/
def decode (bytes : List UInt8) : Except DecodeError Text :=
  decodeFrom 0 bytes

end WardleyMaps.Utf8
