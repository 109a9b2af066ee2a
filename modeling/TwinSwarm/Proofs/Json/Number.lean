import TwinSwarm.Proofs.Json.Numeral
import TwinSwarm.Proofs.Number.Shortest

/-!
# The numbers of a document are read back

A whole number of 64 bits is read back as itself.  The text of a double is always the
text of a number with a fraction or an exponent, so it is read back as a double again,
if it is not out of range; which double that is depends on the text alone and not on
where it stands.
-/

namespace TwinSwarm

namespace Json

variable {levels : Nat} {after : List Char}

namespace Numeral

/-! ## Whole numbers -/

/-- The parts that a whole number is written with. -/
def ofInteger (value : Int) : Numeral :=
  ⟨value < 0, Nat.toDigits 10 value.natAbs, none, none⟩

theorem isWhole_toDigits (number : Nat) : IsWhole (Nat.toDigits 10 number) := by
  rcases Nat.eq_zero_or_pos number with rfl | positive
  · exact .zero
  · rcases exists_toDigits_eq_cons positive with ⟨first, rest, digits, notZero⟩
    rw [digits]
    apply IsWhole.digits notZero
    intro digit isMember
    rw [← digits] at isMember
    exact isDigit_of_mem_toDigits isMember

theorem ofInteger_isWritten (value : Int) : (ofInteger value).IsWritten where
  whole := isWhole_toDigits value.natAbs
  fraction := by
    intro digits isFraction
    cases isFraction
  exponent := by
    intro negative digits isExponent
    cases isExponent

theorem text_ofInteger (value : Int) : (ofInteger value).text = (toString value).toList := by
  cases value with
  | ofNat number =>
      show Nat.toDigits 10 number ++ [] = number.repr.toList
      rw [List.append_nil, Nat.toList_repr]
  | negSucc number =>
      have isNegative : (ofInteger (Int.negSucc number)).negative = true :=
        decide_eq_true (Int.negSucc_lt_zero number)
      show _ = ("-" ++ (number + 1).repr).toList
      rw [String.toList_append, Nat.toList_repr, text, if_pos isNegative]
      show '-' :: (Nat.toDigits 10 (number + 1) ++ []) = _
      rw [List.append_nil]
      rfl

theorem le_ofDigitChars (digits : List Char) (value : Nat) :
    value ≤ Nat.ofDigitChars 10 digits value := by
  induction digits generalizing value with
  | nil => exact Nat.le_refl _
  | cons digit rest fromNext =>
      rw [Nat.ofDigitChars_cons]
      exact Nat.le_trans (by omega) (fromNext _)

/-- Digits whose number fits 64 bits are all gathered. -/
theorem gather_eq {digits : List Char} {value : Nat}
    (fits : Nat.ofDigitChars 10 digits value ≤ largestWord) :
    gather value digits = (Nat.ofDigitChars 10 digits value, []) := by
  induction digits generalizing value with
  | nil => rfl
  | cons digit rest fromNext =>
      rw [Nat.ofDigitChars_cons] at fits
      have fitsNext : appendDigit value digit ≤ largestWord :=
        Nat.le_trans (le_ofDigitChars rest _) fits
      rw [gather, if_pos fitsNext, Nat.ofDigitChars_cons]
      exact fromNext fits

/-- The numbers that a text of a document can hold as whole numbers. -/
def Fits (value : Int) : Prop := -2 ^ 63 ≤ value ∧ value < 2 ^ 64

theorem fits_toInt (value : Int64) : Fits value.toInt := by
  have notBelow := value.le_toInt
  have notAbove := value.toInt_lt
  constructor
  · exact notBelow
  · omega

theorem value_ofInteger {value : Int} (fits : Fits value) :
    (ofInteger value).value = .ok (.integer value) := by
  rcases fits with ⟨notBelow, notAbove⟩
  have gathered : gather 0 (Nat.toDigits 10 value.natAbs) = (value.natAbs, []) := by
    have spelled := Nat.ofDigitChars_ten_toDigits (n := value.natAbs)
    rw [gather_eq, spelled]
    rw [spelled, largestWord, UInt64.size]
    omega
  have isInteger : (ofInteger value).isInteger = true := by
    simp only [Numeral.isInteger, ofInteger, gathered]
    rfl
  rw [Numeral.value, if_pos isInteger]
  simp only [ofInteger, gathered, integerValue?]
  by_cases negative : value < 0
  · have magnitude : 0 < value.natAbs ∧ value.natAbs ≤ 1 <<< 63 := by omega
    have isValue : -(value.natAbs : Int) = value := by omega
    rw [if_neg (by simp [negative]), if_pos magnitude, isValue]
  · have isValue : (value.natAbs : Int) = value := by omega
    rw [if_pos (by simp [negative]), isValue]

/-! ## Doubles -/

/-- The number has a fraction or an exponent. -/
def IsMarked (numeral : Numeral) : Prop :=
  numeral.fraction.isNone = false ∨ numeral.exponent.isNone = false

/-- A number with a fraction or an exponent is read as a double. -/
theorem value_of_isMarked {numeral : Numeral} (isMarked : numeral.IsMarked) :
    numeral.value = numeral.doubleValue.map .float := by
  have notInteger : numeral.isInteger = false := by
    rw [isInteger]
    rcases isMarked with hasFraction | hasExponent
    · rw [hasFraction]
      rfl
    · rw [hasExponent, Bool.and_false]
      rfl
  rw [Numeral.value, notInteger]
  rfl

end Numeral

end Json

open Json (Numeral)

namespace Json.Numeral

/-- The parts of a zero with a fraction. -/
def zero (negative : Bool) : Numeral := ⟨negative, ['0'], some ['0'], none⟩

/-- The parts of a number whose point stands where the exponent of the first digit puts it. -/
def positional (negative : Bool) (digits : List Char) : (leading : Int) → Numeral
  | .ofNat whole =>
      ⟨negative, digits.take (whole + 1) ++ List.replicate (whole + 1 - digits.length) '0',
        some (Double.fractionText (digits.drop (whole + 1))), none⟩
  | .negSucc zeros => ⟨negative, ['0'], some (List.replicate zeros '0' ++ digits), none⟩

/-- The parts of a number with a point behind the first digit and with an exponent. -/
def scientific (negative : Bool) (first : Char) (rest : List Char) (leading : Int) : Numeral :=
  ⟨negative, [first], if rest = [] then none else some rest,
    some (decide (leading < 0), Nat.toDigits 10 leading.natAbs)⟩

variable {first : Char} {rest : List Char}

theorem fractionText_isDigits {digits : List Char}
    (areDigits : ∀ digit ∈ digits, digit.isDigit = true) :
    IsDigits (Double.fractionText digits) := by
  cases digits with
  | nil => exact .of_digit rfl
  | cons first rest => exact ⟨List.cons_ne_nil first rest, areDigits⟩

theorem zero_isWritten (negative : Bool) : (zero negative).IsWritten where
  whole := .zero
  fraction := by
    intro digits isFraction
    cases isFraction
    exact .of_digit rfl
  exponent := by
    intro _ digits isExponent
    cases isExponent

theorem positional_negative (negative : Bool) (digits : List Char) (leading : Int) :
    (positional negative digits leading).negative = negative := by
  cases leading <;> rfl

theorem positional_marked (negative : Bool) (digits : List Char) (leading : Int) :
    (positional negative digits leading).fraction.isNone = false := by
  cases leading <;> rfl

theorem positional_exponent (negative : Bool) (digits : List Char) (leading : Int) :
    (positional negative digits leading).exponent = none := by
  cases leading <;> rfl

theorem positional_isWritten (notZero : first ≠ '0')
    (areDigits : ∀ digit ∈ first :: rest, digit.isDigit = true) (negative : Bool) (leading : Int) :
    (positional negative (first :: rest) leading).IsWritten := by
  cases leading with
  | ofNat whole =>
      constructor
      · apply IsWhole.digits notZero
        intro digit isMember
        change digit ∈ (first :: rest).take (whole + 1) ++ _ at isMember
        rw [List.mem_append] at isMember
        rcases isMember with isTaken | isFiller
        · exact areDigits digit (List.mem_of_mem_take isTaken)
        · rw [List.eq_of_mem_replicate isFiller]
          rfl
      · intro digits isFraction
        cases isFraction
        exact fractionText_isDigits fun digit isDropped =>
          areDigits digit (List.mem_of_mem_drop isDropped)
      · intro _ digits isExponent
        cases isExponent
  | negSucc zeros =>
      constructor
      · exact .zero
      · intro digits isFraction
        cases isFraction
        refine ⟨by simp, ?_⟩
        intro digit isMember
        rw [List.mem_append] at isMember
        rcases isMember with isFiller | isDigit
        · rw [List.eq_of_mem_replicate isFiller]
          rfl
        · exact areDigits digit isDigit
      · intro _ digits isExponent
        cases isExponent

theorem positional_magnitudeText (negative : Bool) (digits : List Char) (leading : Int) :
    (positional negative digits leading).magnitudeText = Double.positionalText digits leading := by
  cases leading with
  | ofNat whole =>
      simp [positional, magnitudeText, fractionText, exponentText, Double.positionalText]
  | negSucc zeros =>
      simp [positional, magnitudeText, fractionText, exponentText, Double.positionalText]

theorem scientific_isWritten (notZero : first ≠ '0')
    (areDigits : ∀ digit ∈ first :: rest, digit.isDigit = true) (negative : Bool) (leading : Int) :
    (scientific negative first rest leading).IsWritten := by
  constructor
  · apply IsWhole.digits notZero
    intro digit isFirst
    rw [List.mem_singleton] at isFirst
    rw [isFirst]
    exact areDigits first List.mem_cons_self
  · intro digits isFraction
    simp only [scientific] at isFraction
    split at isFraction
    · cases isFraction
    · case isFalse notEmpty =>
        cases isFraction
        exact ⟨notEmpty, fun digit isMember =>
          areDigits digit (List.mem_cons_of_mem first isMember)⟩
  · intro _ digits isExponent
    cases isExponent
    exact ⟨Nat.toDigits_ne_nil, fun digit isMember => isDigit_of_mem_toDigits isMember⟩

theorem scientific_magnitudeText (negative : Bool) (first : Char) (rest : List Char)
    (leading : Int) : (scientific negative first rest leading).magnitudeText =
      Double.scientificText (first :: rest) leading := by
  cases rest with
  | nil => simp [scientific, magnitudeText, fractionText, exponentText, Double.scientificText]
  | cons second others =>
      simp [scientific, magnitudeText, fractionText, exponentText, Double.scientificText]

end Json.Numeral

namespace Double

/-- The magnitude is written as a number with a fraction or an exponent. -/
def IsNumeral (text : List Char) : Prop :=
  ∀ negative, ∃ numeral : Numeral, numeral.negative = negative ∧ numeral.IsWritten ∧
    numeral.IsMarked ∧ numeral.magnitudeText = text

theorem positionalText_isNumeral {first : Char} {rest : List Char} (notZero : first ≠ '0')
    (areDigits : ∀ digit ∈ first :: rest, digit.isDigit = true) (leading : Int) :
    IsNumeral (positionalText (first :: rest) leading) := fun negative =>
  ⟨.positional negative (first :: rest) leading, Numeral.positional_negative ..,
    Numeral.positional_isWritten notZero areDigits negative leading,
    .inl (Numeral.positional_marked ..), Numeral.positional_magnitudeText ..⟩

theorem scientificText_isNumeral {first : Char} {rest : List Char} (notZero : first ≠ '0')
    (areDigits : ∀ digit ∈ first :: rest, digit.isDigit = true) (leading : Int) :
    IsNumeral (scientificText (first :: rest) leading) := fun negative =>
  ⟨.scientific negative first rest leading, rfl,
    Numeral.scientific_isWritten notZero areDigits negative leading, .inr rfl,
    Numeral.scientific_magnitudeText ..⟩

/-- A double other than zero is written with its significant digits, in one of two notations. -/
theorem magnitudeText_cases {value : Double} (notZero : value.isZero = false) :
    ∃ first rest, significantDigits value.shortest.digits = first :: rest ∧ first ≠ '0' ∧
      (∀ digit ∈ first :: rest, digit.isDigit = true) ∧
      ∃ leading : Int,
        leading = (digitCount value.shortest.digits : Int) - 1 + value.shortest.exponent ∧
          (leading ≤ largestPositional ∧
              value.magnitudeText = positionalText (first :: rest) leading ∨
            value.magnitudeText = scientificText (first :: rest) leading) := by
  rcases exists_significantDigits_eq_cons (shortest_digits_pos notZero) with
    ⟨first, rest, digitsEq, firstNotZero⟩
  have areDigits : ∀ digit ∈ first :: rest, digit.isDigit = true := by
    intro digit isMember
    rw [← digitsEq] at isMember
    exact isDigit_of_mem_significantDigits isMember
  refine ⟨first, rest, digitsEq, firstNotZero, areDigits, _, rfl, ?_⟩
  rw [magnitudeText, notZero, if_neg Bool.false_ne_true]
  dsimp only
  rw [digitsEq]
  split
  next isPositional => exact .inl ⟨isPositional.2, rfl⟩
  next => exact .inr rfl

theorem magnitudeText_isNumeral (value : Double) : IsNumeral value.magnitudeText := by
  cases isZero : value.isZero with
  | true =>
      intro negative
      rw [magnitudeText, if_pos isZero]
      exact ⟨.zero negative, rfl, Numeral.zero_isWritten negative, .inl rfl, rfl⟩
  | false =>
      rcases magnitudeText_cases isZero with
        ⟨first, rest, -, notZero, areDigits, leading, -, ⟨-, isText⟩ | isText⟩
      · rw [isText]
        exact positionalText_isNumeral notZero areDigits leading
      · rw [isText]
        exact scientificText_isNumeral notZero areDigits leading

/-- The text of a double is the text of a number with a fraction or an exponent. -/
theorem exists_numeral (value : Double) : ∃ numeral : Numeral, numeral.IsWritten ∧
    numeral.IsMarked ∧ numeral.text = value.text := by
  rcases magnitudeText_isNumeral value value.negative with
    ⟨numeral, sign, isWritten, isMarked, magnitude⟩
  refine ⟨numeral, isWritten, isMarked, ?_⟩
  rw [Numeral.text, sign, magnitude, Double.text]

/-- The double that is read where a double has been written.  The reader rounds twice, so
it may be a neighbour of the written one; a number that is rounded to an infinite one is
refused. -/
def reread? (value : Double) : Option Double :=
  match (Json.Reading.wholeText Json.Reading.kept (String.ofList value.text)).toOption with
  | some (.float read) => some read
  | _ => none

end Double

namespace Json.Reading

variable {levels : Nat} {after : List Char}

theorem kept_integer_answers (value : Int) (delimits : Delimits after) :
    kept.Answers levels (integerText value after) after
      (Numeral.ofInteger value).value.toOption := by
  have answers : kept.Answers levels _ after _ :=
    kept_numeral_answers (Numeral.ofInteger_isWritten value) delimits
  rw [Numeral.text_ofInteger] at answers
  exact answers

/-- What is read where a double has been written is the value of the number that its text
spells. -/
theorem reread?_eq_doubleValue {value : Double} {numeral : Numeral} (isWritten : numeral.IsWritten)
    (isMarked : numeral.IsMarked) (isText : numeral.text = value.text) :
    value.reread? = numeral.doubleValue.toOption := by
  have alone : kept.Answers levelLimit _ [] _ := kept_numeral_answers isWritten .nil
  rw [List.append_nil, isText] at alone
  rw [Double.reread?, toOption_wholeText alone, Numeral.value_of_isMarked isMarked]
  cases numeral.doubleValue with
  | error unread => rfl
  | ok read => rfl

theorem kept_float_answers (value : Double) (delimits : Delimits after) :
    kept.Answers levels (value.text ++ after) after (value.reread?.map .float) := by
  rcases value.exists_numeral with ⟨numeral, isWritten, isMarked, isText⟩
  have isOutcome : numeral.value.toOption = value.reread?.map .float := by
    rw [reread?_eq_doubleValue isWritten isMarked isText, Numeral.value_of_isMarked isMarked]
    cases numeral.doubleValue with
    | error unread => rfl
    | ok read => rfl
  have answers : kept.Answers levels _ after _ := kept_numeral_answers isWritten delimits
  rw [isText, isOutcome] at answers
  exact answers

end Json.Reading

end TwinSwarm
