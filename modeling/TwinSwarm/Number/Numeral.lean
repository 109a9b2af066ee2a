import TwinSwarm.Number.Double

/-!
# Numerals

How a text is read as a number: an optional sign and decimal digits, for a double
also a point and an exponent.  A text that does not have this form has no value, and
neither has a number that is out of range.
-/

namespace TwinSwarm.Numeral

/-- The value of decimal digits, the first being the most significant. -/
def ofDigits (digits : List Char) : Nat :=
  digits.foldl (fun value digit => 10 * value + (digit.toNat - '0'.toNat)) 0

/-- The sign at the start of a text, and what follows it. -/
def splitSign : List Char → Bool × List Char
  | '-' :: rest => (true, rest)
  | '+' :: rest => (false, rest)
  | text => (false, text)

/-- The digits at the start of a text, and what follows them. -/
def splitDigits (text : List Char) : List Char × List Char :=
  (text.takeWhile Char.isDigit, text.dropWhile Char.isDigit)

/-- A number with a sign. -/
def signed (negative : Bool) (magnitude : Nat) : Int :=
  if negative then -magnitude else magnitude

/-- The number is in the range of a signed word of 64 bits. -/
def isWord (number : Int) : Bool :=
  Int64.minValue.toInt ≤ number && number ≤ Int64.maxValue.toInt

/-- The whole number that a text spells, within 64 bits. -/
def integer? (text : List Char) : Option Int64 :=
  let (negative, digits) := splitSign text
  let number := signed negative (ofDigits digits)
  if digits ≠ [] ∧ digits.all Char.isDigit ∧ isWord number then some (Int64.ofInt number)
  else none

/-- The exponent that the rest of a numeral spells; no exponent is zero. -/
def exponent? : List Char → Option Int
  | [] => some 0
  | mark :: rest =>
      let (negative, digits) := splitSign rest
      if (mark = 'e' ∨ mark = 'E') ∧ digits ≠ [] ∧ digits.all Char.isDigit then
        some (signed negative (ofDigits digits))
      else none

/-- The point and the digits behind it at the start of a text, if there are any, and
what follows them. -/
def splitFraction : List Char → List Char × List Char
  | '.' :: rest => splitDigits rest
  | text => ([], text)

/-- The finite double nearest to the number that a text spells. -/
def double? (text : List Char) : Option Double :=
  let (negative, unsigned) := splitSign text
  let (whole, afterWhole) := splitDigits unsigned
  let (fraction, afterFraction) := splitFraction afterWhole
  if whole = [] ∧ fraction = [] then none
  else do
    let exponent ← exponent? afterFraction
    Double.ofDecimal? negative (ofDigits (whole ++ fraction)) (exponent - fraction.length)

end TwinSwarm.Numeral
