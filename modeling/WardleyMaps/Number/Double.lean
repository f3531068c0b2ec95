/-
Module: WardleyMaps.Number.Double
Purpose: Binary numbers of 53 significant bits with exact arithmetic and one rounding per operation.
Main exports: Double, Double.ofUnits, Double.ofDecimal, Double.lt, Double.le, Overflow
-/
import WardleyMaps.Number.Rounding

namespace WardleyMaps

/-!
Coordinates are binary numbers of the 64-bit interchange format. The finite ones are whole multiples
of the least positive number 2⁻¹⁰⁷⁴, so a finite number is a sign and a count of such units. Every
operation computes its exact result as a quotient of natural numbers and rounds it once, to the
nearest representable count, with a half going to the even neighbour; a result beyond the largest
count is infinite.
-/

/-- How many units make one: a unit is 2⁻¹⁰⁷⁴. -/
def unitsPerOne : Nat := Nat.pow 2 1074

/-- A count of units that a finite number may have: fewer units than make 2¹⁰²⁴, and at most 53
significant bits. -/
def Representable (units : Nat) : Prop :=
  units.log2 < 2098 ∧ Nat.pow 2 (units.log2 - 52) ∣ units

instance (units : Nat) : Decidable (Representable units) :=
  inferInstanceAs (Decidable (_ ∧ _))

/-- A binary number: a signed count of units, an infinity, or not a number. Both zeros are there. -/
inductive Double where
  | finite (negative : Bool) (units : Nat) (representable : Representable units)
  | infinite (negative : Bool)
  | nan
deriving DecidableEq

namespace Double

/-- The zero of the given sign. -/
def zero (negative : Bool) : Double :=
  .finite negative 0 (by decide)

instance : Inhabited Double := ⟨zero false⟩

/-- The count of units nearest to `num / den` units that has at most 53 significant bits. -/
def roundUnits (num den : Nat) : Nat :=
  let step := Nat.pow 2 ((num / den).log2 - 52)
  roundHalfEven num (den * step) * step

/-- The number nearest to `num / den` units; beyond the largest finite number it is infinite. -/
def ofUnits (negative : Bool) (num den : Nat) : Double :=
  let units := roundUnits num den
  if h : Representable units then .finite negative units h else .infinite negative

/-- The number nearest to a natural number. -/
def ofNat (n : Nat) : Double :=
  ofUnits false (n * unitsPerOne) 1

/-- The number nearest to an integer. -/
def ofInt (i : Int) : Double :=
  ofUnits (i < 0) (i.natAbs * unitsPerOne) 1

/-- The number nearest to `digits · 10 ^ exponent`. A value of 10³¹⁰ or more is infinite and one
below 10⁻³²⁵ is zero, so no power of ten is larger than the digits and these bounds ask for; the
binary logarithm bounds the count of decimal digits. -/
def ofDecimal (negative : Bool) (digits : Nat) (exponent : Int) : Double :=
  if digits = 0 then zero negative
  else if 310 < exponent then .infinite negative
  else if exponent + (digits.log2 / 3 + 1 : Nat) < -325 then zero negative
  else
    ofUnits negative (digits * Nat.pow 10 exponent.toNat * unitsPerOne)
      (Nat.pow 10 (-exponent).toNat)

instance (n : Nat) : OfNat Double n := ⟨ofNat n⟩

instance : OfScientific Double :=
  ⟨fun digits down exponent => ofDecimal false digits (if down then -exponent else exponent)⟩

/-- The number with the other sign. -/
def neg : Double → Double
  | .finite s m h => .finite (!s) m h
  | .infinite s => .infinite (!s)
  | .nan => .nan

/-- The number without its sign. -/
def abs : Double → Double
  | .finite _ m h => .finite false m h
  | .infinite _ => .infinite false
  | .nan => .nan

/-- The units of a finite number with their sign. -/
def signed (negative : Bool) (units : Nat) : Int :=
  if negative then -(units : Int) else units

/-- The exact sum, rounded. A sum of zero is negative only if both summands are. -/
def add : Double → Double → Double
  | .nan, _ => .nan
  | _, .nan => .nan
  | .infinite s, .infinite t => if s = t then .infinite s else .nan
  | .infinite s, .finite _ _ _ => .infinite s
  | .finite _ _ _, .infinite t => .infinite t
  | .finite s m _, .finite t n _ =>
      let sum := signed s m + signed t n
      if sum = 0 then zero (s && t) else ofUnits (sum < 0) sum.natAbs 1

/-- The exact difference, rounded. -/
def sub (a b : Double) : Double :=
  add a (neg b)

/-- The exact product, rounded. -/
def mul : Double → Double → Double
  | .nan, _ => .nan
  | _, .nan => .nan
  | .infinite s, .infinite t => .infinite (s != t)
  | .infinite s, .finite t n _ => if n = 0 then .nan else .infinite (s != t)
  | .finite s m _, .infinite t => if m = 0 then .nan else .infinite (s != t)
  | .finite s m _, .finite t n _ => ofUnits (s != t) (m * n) unitsPerOne

/-- The exact quotient, rounded. -/
def div : Double → Double → Double
  | .nan, _ => .nan
  | _, .nan => .nan
  | .infinite _, .infinite _ => .nan
  | .infinite s, .finite t _ _ => .infinite (s != t)
  | .finite s _ _, .infinite t => zero (s != t)
  | .finite s m _, .finite t n _ =>
      if n = 0 then (if m = 0 then .nan else .infinite (s != t))
      else ofUnits (s != t) (m * unitsPerOne) n

instance : Neg Double := ⟨neg⟩
instance : Add Double := ⟨add⟩
instance : Sub Double := ⟨sub⟩
instance : Mul Double := ⟨mul⟩
instance : Div Double := ⟨div⟩

/-- Whether one number is below another; nothing is below or above what is not a number. -/
def lt : Double → Double → Bool
  | .nan, _ => false
  | _, .nan => false
  | .infinite s, .infinite t => s && !t
  | .infinite s, .finite _ _ _ => s
  | .finite _ _ _, .infinite t => !t
  | .finite s m _, .finite t n _ => signed s m < signed t n

/-- Whether one number is at most another; nothing is at most what is not a number. -/
def le : Double → Double → Bool
  | .nan, _ => false
  | _, .nan => false
  | .infinite s, .infinite t => s || !t
  | .infinite s, .finite _ _ _ => s
  | .finite _ _ _, .infinite t => !t
  | .finite s m _, .finite t n _ => signed s m ≤ signed t n

/-- Whether two numbers have the same value; both zeros do, and nothing has that of what is not a
number. -/
def same (a b : Double) : Bool :=
  le a b && le b a

/-- The lesser of two numbers; the first of them if neither is less. -/
def min (a b : Double) : Double :=
  if lt b a then b else a

/-- The greater of two numbers; the first of them if neither is greater. -/
def max (a b : Double) : Double :=
  if lt a b then b else a

/-- A number moved into the range from zero to one. -/
def clampUnit (a : Double) : Double :=
  min (max a 0) 1

/-- Neither infinite nor undefined. -/
def isFinite : Double → Bool
  | .finite _ _ _ => true
  | _ => false

/-- The integer next to a finite number on the side of zero. -/
def truncate? : Double → Option Int
  | .finite s m _ => some (signed s (m / unitsPerOne))
  | _ => none

end Double

/-- Numbers that have no counterpart: an integer beyond all finite binary numbers, or an infinity
where an integer is needed. -/
inductive Overflow where
  | integerTooLarge
  | infiniteNumber
deriving DecidableEq, Repr

/-- The wording of an overflow. -/
def Overflow.message : Overflow → String
  | .integerTooLarge => "int too large to convert to float"
  | .infiniteNumber => "cannot convert float infinity to integer"

/-- The number nearest to an integer, unless that would be infinite. -/
def Double.ofInteger (i : Int) : Except Overflow Double :=
  let x := ofInt i
  if x.isFinite then .ok x else .error .integerTooLarge

end WardleyMaps
