import TwinSwarm.Json.Basic
import TwinSwarm.Number.Numeral

/-!
# Numbers in JSON texts

The parts of a number, and the value they stand for.  A number without fraction and
exponent is an integer if it fits 64 bits.  Any other number is a double: the leading
digits that fit 64 bits are rounded to a double, which is then multiplied with or
divided by a rounded power of ten.  So a double may differ in its last bit from the
nearest one.
-/

namespace TwinSwarm.Json

/-- The parts of a number. -/
structure Numeral where
  negative : Bool
  whole : List Char
  fraction : Option (List Char)
  exponent : Option (Bool × List Char)
  deriving Repr, DecidableEq, Inhabited

namespace Numeral

/-- The largest number of 64 bits. -/
def largestWord : Nat := UInt64.size - 1

/-- The largest exponent that is told from an endless one. -/
def largestExponent : Nat := 1 <<< 31 - 1

/-- The largest power of ten that is a finite double. -/
def largestPower : Nat := 308

/-- A number with one more digit. -/
def appendDigit (value : Nat) (digit : Char) : Nat :=
  10 * value + (digit.toNat - '0'.toNat)

/-- Append digits to a number while it fits 64 bits.  Gives the number and the digits
that were left over. -/
def gather (value : Nat) : List Char → Nat × List Char
  | [] => (value, [])
  | digit :: rest =>
      if appendDigit value digit ≤ largestWord then gather (appendDigit value digit) rest
      else (value, digit :: rest)

/-- The value of the digits of an exponent, or the number of digits left when it grows
too large. -/
def exponentValue (value : Nat) : List Char → Except Nat Nat
  | [] => .ok value
  | digit :: rest =>
      if appendDigit value digit ≤ largestExponent then
        exponentValue (appendDigit value digit) rest
      else .error rest.length

/-- The double nearest to a power of ten. -/
def powerOfTen (power : Nat) : Double := (Double.ofNat? (Nat.pow 10 power)).getD default

/-- Divide by a power of ten, in steps that are finite doubles. -/
def divided? (value : Double) (power : Nat) : Option Double :=
  if power ≤ largestPower then value.over? (powerOfTen power)
  else if value.isZero then some value
  else do
    let next ← value.over? (powerOfTen largestPower)
    divided? next (power - largestPower)
  termination_by power
  decreasing_by simp only [largestPower] at *; omega

/-- Multiply with a power of ten. -/
def multiplied? (value : Double) (power : Nat) : Option Double :=
  if power ≤ largestPower then value.times? (powerOfTen power)
  else if value.isZero then some value
  else none

/-- A significand times a power of ten. -/
def scaled? (significand : Nat) (exponent : Int) : Option Double := do
  let value ← Double.ofNat? significand
  match exponent with
  | .ofNat power => multiplied? value power
  | .negSucc power => divided? value (power + 1)

/-- A number with a sign. -/
def withSign (negative : Bool) (value : Double) : Double :=
  if negative then value.negate else value

/-- The leading digits that fit 64 bits, and the power of ten they are to be multiplied
with before the exponent is applied. -/
def significand (numeral : Numeral) : Nat × Int :=
  let (whole, left) := gather 0 numeral.whole
  let fraction := numeral.fraction.getD []
  let (value, unread) := gather whole fraction
  (value, (left.length : Int) - ((fraction.length : Int) - (unread.length : Int)))

/-- The value of a number without fraction and exponent whose digits fit 64 bits. -/
def integerValue? (negative : Bool) (magnitude : Nat) : Option Json :=
  if ¬ negative then some (.integer magnitude)
  else if 0 < magnitude ∧ magnitude ≤ 1 <<< 63 then some (.integer (-magnitude))
  else (Double.ofNat? magnitude).map fun value => .float value.negate

/-- The value as a double, or the number of digits that are left where it turns out to
be too large. -/
def doubleValue (numeral : Numeral) : Except Nat Double :=
  let (digits, shift) := numeral.significand
  let (downward, exponentDigits) := numeral.exponent.getD (false, [])
  match exponentValue 0 exponentDigits with
  | .error unread =>
      if digits ≠ 0 ∧ ¬ downward then .error unread else .ok (.zero numeral.negative)
  | .ok exponent =>
      match scaled? digits (shift + TwinSwarm.Numeral.signed downward exponent) with
      | some value => .ok (withSign numeral.negative value)
      | none => .error 0

/-- The number is written as an integer, and its digits fit 64 bits. -/
def isInteger (numeral : Numeral) : Bool :=
  numeral.fraction.isNone && numeral.exponent.isNone && (gather 0 numeral.whole).2.isEmpty

/-- The value of a number, or the number of digits that are left where it turns out to
be too large. -/
def value (numeral : Numeral) : Except Nat Json :=
  if numeral.isInteger then
    match integerValue? numeral.negative (gather 0 numeral.whole).1 with
    | some value => .ok value
    | none => .error 0
  else numeral.doubleValue.map .float

end Numeral

end TwinSwarm.Json
