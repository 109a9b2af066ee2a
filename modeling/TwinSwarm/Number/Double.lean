/-!
# Finite doubles

A finite double is a sign and a whole number of units of `2 ^ -1074`, the least
distance between two doubles.  The number of units is a significand below `2 ^ 53`
times a power of two, and each number has one such form, so equality of doubles is
equality of their parts.  All arithmetic is exact on the units and is rounded once,
to the nearest double and on a tie to the even significand.
-/

namespace TwinSwarm

/-- The exponent of two in the unit of which every finite double is a multiple. -/
def Double.unitExponent : Nat := 1074

/-- Half the bound of the significands. -/
def Double.leadingBit : Nat := 1 <<< 52

/-- The largest scale of a finite double. -/
def Double.largestScale : Nat := 2045

/-- A significand and a scale are in the one form that a double has: the significand
has 53 bits, or fewer at scale zero. -/
def Double.IsCanonical (significand scale : Nat) : Prop :=
  significand < 2 * Double.leadingBit ∧ scale ≤ Double.largestScale ∧
    (scale = 0 ∨ Double.leadingBit ≤ significand)

instance (significand scale : Nat) : Decidable (Double.IsCanonical significand scale) := by
  unfold Double.IsCanonical; infer_instance

/-- The double of magnitude `significand * 2 ^ scale` units. -/
structure Double where
  negative : Bool
  significand : Nat
  scale : Nat
  canonical : Double.IsCanonical significand scale
  deriving Repr, DecidableEq

namespace Double

/-- Zero, with either sign. -/
def zero (negative : Bool) : Double := ⟨negative, 0, 0, by decide⟩

instance : Inhabited Double := ⟨zero false⟩

/-- The magnitude in units of `2 ^ -1074`. -/
def units (value : Double) : Nat := value.significand <<< value.scale

/-- The magnitude is zero. -/
def isZero (value : Double) : Bool := value.significand = 0

/-- The number with the other sign. -/
def negate (value : Double) : Double := { value with negative := !value.negative }

/-- The whole number nearest to a quotient.  A half goes to the even neighbour. -/
def roundedQuotient (numerator denominator : Nat) : Nat :=
  let quotient := numerator / denominator
  let twiceRest := 2 * (numerator % denominator)
  if twiceRest < denominator then quotient
  else if denominator < twiceRest then quotient + 1
  else quotient + quotient % 2

/-- The significand and scale nearest to a number of units that is given as a
quotient.  The scale may be too large for a finite double. -/
def nearestParts (numerator denominator : Nat) : Nat × Nat :=
  let scale := Nat.log2 (numerator / denominator) - 52
  let significand := roundedQuotient numerator (denominator <<< scale)
  if significand = 2 * leadingBit then (leadingBit, scale + 1) else (significand, scale)

/-- The double nearest to a quotient, or nothing where that would be infinite. -/
def nearest? (negative : Bool) (numerator denominator : Nat) : Option Double :=
  let (significand, scale) := nearestParts (numerator <<< unitExponent) denominator
  if canonical : IsCanonical significand scale then
    some ⟨negative, significand, scale, canonical⟩
  else none

/-- The double nearest to a natural number. -/
def ofNat? (number : Nat) : Option Double := nearest? false number 1

/-- The number of decimal digits of a natural number; zero has one. -/
def digitCount (number : Nat) : Nat := (Nat.toDigits 10 number).length

/-- The decimal exponent from which on every number is infinite, and the one below
which every number is zero, both with a margin. -/
def exponentMargin : Int := 400

/-- The double nearest to `digits * 10 ^ exponent`, or nothing where that would be
infinite. -/
def ofDecimal? (negative : Bool) (digits : Nat) (exponent : Int) : Option Double :=
  let leading := (digitCount digits : Int) - 1 + exponent
  if digits = 0 then some (zero negative)
  else if exponentMargin < leading then none
  else if leading < -exponentMargin then some (zero negative)
  else match exponent with
    | .ofNat power => nearest? negative (digits * Nat.pow 10 power) 1
    | .negSucc power => nearest? negative digits (Nat.pow 10 (power + 1))

/-- The rounded product of two doubles, or nothing where it would be infinite. -/
def times? (left right : Double) : Option Double :=
  nearest? (left.negative != right.negative) (left.units * right.units)
    (1 <<< (2 * unitExponent))

/-- The rounded quotient of two doubles, or nothing where it would be infinite. -/
def over? (left right : Double) : Option Double :=
  nearest? (left.negative != right.negative) left.units right.units

end Double

end TwinSwarm
