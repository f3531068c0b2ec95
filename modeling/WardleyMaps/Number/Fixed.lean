/-
Module: WardleyMaps.Number.Fixed
Purpose: Numerals with a fixed number of decimal places, as coordinates are written into map text.
Main exports: PrecisionError, placesOf, Double.fixed, Double.fixedText
-/
import WardleyMaps.Number.Literal

namespace WardleyMaps

/-!
A coordinate is written with a chosen number of places, rounded from its exact value; a half goes to
the even neighbour. The sign of a negative number is kept even when all digits are zero.

Of the limits that number routines have, those on the places (`placesOf`) and on the digits of an
integer (`maxIntegerDigits`) are kept. Left out are those that a program meets only with texts of a
thousand million characters and more: the longest row of digits that a numeral may be read from,
what goes wrong where the places come close to their limit, and the memory that all of this takes.
-/

/-- Why a number of places cannot be used. -/
inductive PrecisionError where
  | negative
  | tooLarge
  | unreadable
  | unwritable (e : IntegerTooLong)
deriving DecidableEq, Repr

/-- The wording of the refusal. -/
def PrecisionError.message : PrecisionError → String
  | .negative => "Format specifier missing precision"
  | .tooLarge => "precision too big"
  | .unreadable => "Too many decimal digits in format string"
  | .unwritable e => e.message

/-- Why a number of places that is negative or too large cannot be used. -/
def precisionError (precision : Int) : PrecisionError :=
  match writeInteger precision with
  | .error e => .unwritable e
  | .ok _ =>
      if precision < 0 then .negative
      else if precision < (Nat.pow 2 63 : Nat) then .tooLarge
      else .unreadable

/-- The number of places that a setting asks for: none below zero, and at most 2³¹ − 1. Each of
these is written in full, however long that makes the numeral. -/
def placesOf (precision : Int) : Except PrecisionError Nat :=
  if 0 ≤ precision && precision < (Nat.pow 2 31 : Nat) then .ok precision.toNat
  else .error (precisionError precision)

/-- A whole number of the last of the given places, written with a point. -/
def writePlaces (places scaled : Nat) : Text :=
  let digits := Text.ofNat scaled
  let row := List.replicate (places + 1 - digits.length) '0' ++ digits
  let whole := row.take (row.length - places)
  if places = 0 then whole else whole ++ '.' :: row.drop (row.length - places)

/-- A number with the given count of decimal places. -/
def Double.fixed (places : Nat) : Double → Text
  | .nan => "nan".toList
  | .infinite negative => if negative then "-inf".toList else "inf".toList
  | .finite negative units _ =>
      let magnitude := writePlaces places (roundHalfEven (units * Nat.pow 10 places) unitsPerOne)
      if negative then '-' :: magnitude else magnitude

/-- A number with as many places as a setting asks for. -/
def Double.fixedText (precision : Int) (x : Double) : Except PrecisionError Text :=
  (placesOf precision).map fun places => x.fixed places

end WardleyMaps
