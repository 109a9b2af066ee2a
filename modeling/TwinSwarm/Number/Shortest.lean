import TwinSwarm.Number.Double

/-!
# The shortest decimal of a double

A double is written with the fewest digits that read back as the same double; of the
numbers with so few digits the nearest is taken, and on a tie the even one.  The
digits are laid out positionally with at least one digit after the point, or with an
exponent where the number is very large or very small.
-/

namespace TwinSwarm

/-- The number `digits * 10 ^ exponent`. -/
structure Decimal where
  digits : Nat
  exponent : Int
  deriving Repr, DecidableEq, Inhabited

namespace Double

/-- The number of decimal places at which even the least double has enough digits to
count them. -/
def countingPlaces : Nat := 340

/-- The decimal exponent of the first digit of a number that is not zero. -/
def leadingExponent (value : Double) : Int :=
  (digitCount ((value.units * Nat.pow 10 countingPlaces) >>> unitExponent) : Int) - 1 - countingPlaces

/-- The magnitude in steps of `10 ^ exponent`, as a numerator and a denominator. -/
def inSteps (value : Double) : (exponent : Int) → Nat × Nat
  | .ofNat power => (value.units, Nat.pow 10 power <<< unitExponent)
  | .negSucc power => (value.units * Nat.pow 10 (power + 1), 1 <<< unitExponent)

/-- The decimal reads back as the double. -/
def isReadFrom (value : Double) (decimal : Decimal) : Bool :=
  ofDecimal? value.negative decimal.digits decimal.exponent = some value

/-- The number on the grid of `10 ^ exponent` that reads back as the double, if one
of the two neighbours of the double on that grid does. -/
def onGrid? (value : Double) (exponent : Int) : Option Decimal :=
  let (numerator, denominator) := value.inSteps exponent
  let below : Decimal := ⟨numerator / denominator, exponent⟩
  let above : Decimal := ⟨numerator / denominator + 1, exponent⟩
  let nearest := ⟨roundedQuotient numerator denominator, exponent⟩
  match value.isReadFrom below, value.isReadFrom above with
  | true, true => some nearest
  | true, false => some below
  | false, true => some above
  | false, false => none

/-- The largest number of digits that a double ever needs. -/
def largestDigitCount : Nat := 17

/-- The shortest decimal that reads back as the double. -/
def shortest (value : Double) : Decimal :=
  let finest := value.leadingExponent + 1 - largestDigitCount
  if value.isZero then ⟨0, 0⟩
  else ((List.range largestDigitCount).findSome? fun (fewer : Nat) =>
      value.onGrid? (value.leadingExponent - (fewer : Int))).getD
    ⟨(value.inSteps finest).1 / (value.inSteps finest).2, finest⟩

/-- The largest exponent of the first digit of a number that is written without an
exponent. -/
def largestPositional : Int := 15

/-- The smallest exponent of the first digit of a number that is written without an
exponent. -/
def smallestPositional : Int := -5

/-- Digits after the point; where there are none, a zero. -/
def fractionText (digits : List Char) : List Char :=
  if digits.isEmpty then ['0'] else digits

/-- Digits with the point where the exponent of the first digit puts it. -/
def positionalText (digits : List Char) : (leading : Int) → List Char
  | .ofNat whole =>
      digits.take (whole + 1) ++ List.replicate (whole + 1 - digits.length) '0' ++
        '.' :: fractionText (digits.drop (whole + 1))
  | .negSucc zeros => '0' :: '.' :: List.replicate zeros '0' ++ digits

/-- Digits with a point behind the first, if there are more, and with an exponent. -/
def scientificText (digits : List Char) (leading : Int) : List Char :=
  let point := if digits.length ≤ 1 then [] else ['.']
  let sign := if leading < 0 then '-' else '+'
  digits.take 1 ++ point ++ digits.drop 1 ++ 'e' :: sign :: Nat.toDigits 10 leading.natAbs

/-- The digits of a number without the zeros at its end. -/
def significantDigits (number : Nat) : List Char :=
  ((Nat.toDigits 10 number).reverse.dropWhile (· = '0')).reverse

/-- The magnitude as a text. -/
def magnitudeText (value : Double) : List Char :=
  if value.isZero then ['0', '.', '0']
  else
    let decimal := value.shortest
    let leading := (digitCount decimal.digits : Int) - 1 + decimal.exponent
    let digits := significantDigits decimal.digits
    if smallestPositional ≤ leading ∧ leading ≤ largestPositional then
      positionalText digits leading
    else scientificText digits leading

/-- The double as a text that reads back as the same double. -/
def text (value : Double) : List Char :=
  if value.negative then '-' :: value.magnitudeText else value.magnitudeText

end Double

end TwinSwarm
