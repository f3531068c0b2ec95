/-
Module: WardleyMaps.Number.Shortest
Purpose: The shortest decimal numeral that reads back as a given binary number.
Main exports: Double.shortest, Double.text, NumeralLayout
-/
import WardleyMaps.Number.Double
import WardleyMaps.Text.Quoted

namespace WardleyMaps

/-!
All reals between the midpoints to a number's two neighbours round to that number. Its shortest
numeral is the one with the fewest digits in that interval, and of those the nearest to the number.
The search walks over decimal grids of one, two, up to seventeen digits; on each grid only the
neighbours of the number can be the nearest.
-/

/-- How a numeral is laid out: the exponents that are written positionally and the least count of
digits of an exponent that is written out. -/
structure NumeralLayout where
  leastPositional : Int
  firstScientific : Int
  exponentDigits : Nat
deriving DecidableEq, Repr

/-- Numerals are positional from one ten-thousandth to below ten to the sixteenth, and an exponent
has at least two digits. -/
def numeralLayout : NumeralLayout :=
  { leastPositional := -4, firstScientific := 16, exponentDigits := 2 }

/-- The count of decimal digits of a number. -/
def digitCount (n : Nat) : Nat :=
  (Nat.toDigits 10 n).length

/-- The reals that round to one count of units, in quarters of a unit. The ends belong to the
interval when the count's significand is even. -/
structure RoundingInterval where
  low : Nat
  high : Nat
  closed : Bool
deriving DecidableEq, Repr

/-- The interval between the midpoints to the two neighbours of a count of units. Below a power of
two the neighbours lie half as far apart as above it. -/
def RoundingInterval.of (units : Nat) : RoundingInterval :=
  let step := Nat.pow 2 (units.log2 - 52)
  let lowest := 1 < step && units = Nat.pow 2 52 * step
  { low := if lowest then 4 * units - step else 4 * units - 2 * step
    high := 4 * units + 2 * step
    closed := units / step % 2 = 0 }

/-- Whether `digits · 10 ^ exponent` lies in an interval. -/
def RoundingInterval.holds (i : RoundingInterval) (digits : Nat) (exponent : Int) : Bool :=
  let value := digits * Nat.pow 10 exponent.toNat * (4 * unitsPerOne)
  let scale := Nat.pow 10 (-exponent).toNat
  if i.closed then i.low * scale ≤ value && value ≤ i.high * scale
  else i.low * scale < value && value < i.high * scale

/-- The nearest numeral of the interval on the grid of the multiples of `10 ^ exponent`. -/
def nearestOnGrid? (units : Nat) (i : RoundingInterval) (exponent : Int) : Option Nat :=
  let num := units * Nat.pow 10 (-exponent).toNat
  let den := unitsPerOne * Nat.pow 10 exponent.toNat
  let below := num / den
  match i.holds below exponent, i.holds (below + 1) exponent with
  | true, true => some (roundHalfEven num den)
  | true, false => some below
  | false, true => some (below + 1)
  | false, false => none

/-- Leave out the zeros at the end of a row of digits. -/
def dropZeros (digits : Text) : Text :=
  (digits.reverse.dropWhile (· = '0')).reverse

/-- The decimal exponent of the leading digit of a positive count of units. -/
def leadingExponent (units : Nat) : Int :=
  (digitCount (units * Nat.pow 10 340 / unitsPerOne) : Int) - 341

/-- The digits of the shortest numeral for a positive count of units, and the exponent of the first
of them. -/
def shortest (units : Nat) : Text × Int :=
  let interval := RoundingInterval.of units
  let leading := leadingExponent units
  let found := (List.range 17).findSome? fun (extra : Nat) =>
    let exponent := leading - extra
    (nearestOnGrid? units interval exponent).map fun digits => (digits, exponent)
  let (digits, exponent) := found.getD (0, 0)
  let row := Text.ofNat digits
  (dropZeros row, exponent + (row.length - 1 : Nat))

/-- Lay out a row of digits with the exponent of the first digit. -/
def NumeralLayout.write (layout : NumeralLayout) (digits : Text) (exponent : Int) : Text :=
  if layout.leastPositional ≤ exponent && exponent < layout.firstScientific then
    if exponent < 0 then
      '0' :: '.' :: List.replicate (-exponent - 1).toNat '0' ++ digits
    else
      let places := exponent.toNat + 1
      let whole := digits.take places ++ List.replicate (places - digits.length) '0'
      let fraction := digits.drop places
      whole ++ '.' :: (if fraction.isEmpty then ['0'] else fraction)
  else
    let fraction := digits.drop 1
    let written := Text.ofNat exponent.natAbs
    digits.take 1 ++ (if fraction.isEmpty then [] else '.' :: fraction)
      ++ 'e' :: (if exponent < 0 then '-' else '+')
      :: List.replicate (layout.exponentDigits - written.length) '0' ++ written

/-- The text of a number: its shortest numeral, which always shows that the number need not be
whole. -/
def Double.text : Double → Text
  | .nan => "nan".toList
  | .infinite negative => if negative then "-inf".toList else "inf".toList
  | .finite negative units _ =>
      let magnitude :=
        if units = 0 then "0.0".toList
        else numeralLayout.write (shortest units).1 (shortest units).2
      if negative then '-' :: magnitude else magnitude

end WardleyMaps
