/-
Module: WardleyMaps.Number.Numeral
Purpose: The grammar of numerals in map text, and the numbers that they denote.
Main exports: Numeral, Numeral.scan, Numeral.value, Double.read?
-/
import WardleyMaps.Number.Double
import WardleyMaps.Text.Digit

namespace WardleyMaps

/-!
A numeral is an optional sign, digits with an optional point among or around them, and an optional
exponent. Digits of every script count. Words such as `nan` and `inf` are no numerals, but a numeral
may denote a number beyond the largest finite one, which then reads as infinite.
-/

/-- The parts of a numeral. -/
structure Numeral where
  negative : Bool
  whole : List Nat
  fraction : List Nat
  exponent : Int
deriving DecidableEq, Repr

/-- An optional sign, and whether it is a minus. -/
def spanSign : Text → Bool × Text
  | '-' :: rest => (true, rest)
  | '+' :: rest => (false, rest)
  | rest => (false, rest)

/-- The digits around a point: some before it, with or without a point after them, or some after
it. -/
def spanDecimal (t : Text) : Option (List Nat × List Nat × Text) :=
  match Text.spanDigits t with
  | ([], '.' :: rest) =>
      match Text.spanDigits rest with
      | ([], _) => none
      | (fraction, rest) => some ([], fraction, rest)
  | ([], _) => none
  | (whole, '.' :: rest) => some (whole, Text.spanDigits rest)
  | (whole, rest) => some (whole, [], rest)

/-- The digits of an exponent with an optional sign, none if no digit is there. -/
def spanExponentDigits (t : Text) : Option (Int × Text) :=
  let (negative, rest) := spanSign t
  match Text.spanDigits rest with
  | ([], _) => none
  | (digits, rest) =>
      let value : Int := Text.digitsValue digits
      some (if negative then -value else value, rest)

/-- An optional exponent; a letter `e` without digits after it is left alone. -/
def spanExponent : Text → Int × Text
  | [] => (0, [])
  | c :: rest =>
      if c = 'e' || c = 'E' then (spanExponentDigits rest).getD (0, c :: rest) else (0, c :: rest)

/-- The longest numeral that a text begins with, and what follows it. -/
def Numeral.scan (t : Text) : Option (Numeral × Text) :=
  let (negative, rest) := spanSign t
  (spanDecimal rest).map fun (whole, fraction, rest) =>
    let (exponent, rest) := spanExponent rest
    ({ negative, whole, fraction, exponent }, rest)

/-- The number nearest to what a numeral denotes. -/
def Numeral.value (n : Numeral) : Double :=
  .ofDecimal n.negative (Text.digitsValue (n.whole ++ n.fraction)) (n.exponent - n.fraction.length)

/-- The number that a whole text denotes as a numeral. -/
def Double.read? (t : Text) : Option Double :=
  match Numeral.scan t with
  | some (n, []) => some n.value
  | _ => none

end WardleyMaps
