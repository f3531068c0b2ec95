/-
Module: WardleyMaps.Number.Literal
Purpose: Numbers as settings and command arguments write them.
Main exports: Double.readLiteral?, readInteger?, writeInteger, IntegerTooLong
-/
import WardleyMaps.Number.Numeral
import WardleyMaps.Text.Quoted

namespace WardleyMaps

/-!
Settings and arguments are read more freely than map text: blanks around the number are allowed, a
single underscore may stand between two digits, and infinities and the undefined number are written
by name. The four separators U+001C to U+001F are no blanks here. A decimal integer has at most 4300
digits, read or written.
-/

/-- The blanks that may surround a number. -/
def isOuterBlank (c : Char) : Bool :=
  Text.isBlank c && !(0x1C ≤ c.toNat && c.toNat ≤ 0x1F)

/-- The text without the blanks that may surround a number. -/
def trimLiteral (t : Text) : Text :=
  ((t.dropWhile isOuterBlank).reverse.dropWhile isOuterBlank).reverse

/-- Leave out the underscores of a text if each stands between two digits. The flag tells that the
character before the text is a digit. -/
def joinDigits? : Bool → Text → Option Text
  | _, [] => some []
  | afterDigit, '_' :: rest =>
      match rest with
      | c :: _ => if afterDigit && Text.isDigit c then joinDigits? false rest else none
      | [] => none
  | _, c :: rest => (joinDigits? (Text.isDigit c) rest).map (c :: ·)

/-- An infinity or the undefined number, by its name in any letter case. -/
def readNamed? (t : Text) : Option Double :=
  let (negative, name) := spanSign t
  let lower := name.map Char.toLower
  if lower = "inf".toList || lower = "infinity".toList then some (.infinite negative)
  else if lower = "nan".toList then some .nan
  else none

/-- The number that a setting or an argument denotes. -/
def Double.readLiteral? (t : Text) : Option Double :=
  let t := trimLiteral t
  match (joinDigits? false t).bind Double.read? with
  | some x => some x
  | none => readNamed? t

/-- The most digits that a decimal integer may have. -/
def maxIntegerDigits : Nat := 4300

/-- The integer that a setting denotes. -/
def readInteger? (t : Text) : Option Int :=
  let (negative, digits) := spanSign (trimLiteral t)
  match (joinDigits? false digits).map Text.spanDigits with
  | some (d :: ds, []) =>
      if (d :: ds).length ≤ maxIntegerDigits then
        let value : Int := Text.digitsValue (d :: ds)
        some (if negative then -value else value)
      else none
  | _ => none

/-- An integer has more digits than may be written. -/
structure IntegerTooLong where
deriving DecidableEq, Repr

/-- The wording of the refusal. -/
def IntegerTooLong.message (_ : IntegerTooLong) : String :=
  "Exceeds the limit (4300 digits) for integer string conversion; "
    ++ "use sys.set_int_max_str_digits() to increase the limit"

/-- An integer in decimal digits. -/
def writeInteger (i : Int) : Except IntegerTooLong Text :=
  if maxIntegerDigits < (Text.ofNat i.natAbs).length then .error {} else .ok (Text.ofInt i)

end WardleyMaps
