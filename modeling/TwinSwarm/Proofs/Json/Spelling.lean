import TwinSwarm.Proofs.Json.Returning
import TwinSwarm.Proofs.Number.Identified

/-!
# The digits that are read where a double has been written

The text of a double spells its shortest decimal, with the point where the exponent of the first
digit puts it.  The reader gathers all of these digits, since they fit 64 bits, and then scales them
by the power of ten that is left: what it scales is the shortest decimal itself.
-/

namespace TwinSwarm

open Double (digitCount significantDigits)

namespace Json.Numeral

variable {numeral : Numeral} {downward : Bool} {found : List Char} {exponent : Nat}

/-- The digits of a number, before and behind the point. -/
def digits (numeral : Numeral) : List Char := numeral.whole ++ numeral.fraction.getD []

/-- Digits that fit 64 bits are all gathered, and the point is moved behind the last one. -/
theorem significand_eq (fits : Nat.ofDigitChars 10 numeral.digits 0 ≤ largestWord) :
    numeral.significand =
      (Nat.ofDigitChars 10 numeral.digits 0, -((numeral.fraction.getD []).length : Int)) := by
  rw [digits, Nat.ofDigitChars_append] at fits ⊢
  have wholeFits : Nat.ofDigitChars 10 numeral.whole 0 ≤ largestWord :=
    Nat.le_trans (le_ofDigitChars _ _) fits
  simp only [significand, gather_eq wholeFits, gather_eq fits]
  simp

theorem doubleValue_eq (fits : Nat.ofDigitChars 10 numeral.digits 0 ≤ largestWord)
    (isExponent : numeral.exponent.getD (false, []) = (downward, found))
    (isValue : exponentValue 0 found = .ok exponent) :
    numeral.doubleValue.toOption =
      (scaled? (Nat.ofDigitChars 10 numeral.digits 0)
        (-((numeral.fraction.getD []).length : Int) +
          TwinSwarm.Numeral.signed downward exponent)).map (withSign numeral.negative) := by
  simp only [doubleValue, significand_eq fits, isExponent, isValue]
  cases scaled? _ _ <;> rfl

end Json.Numeral

namespace Double

open Json (Numeral)
open Json.Numeral (scaled? withSign)

variable {value : Double} {first : Char} {rest : List Char} {zeros : Nat}

/-- Where a double has been written, these digits are read and scaled by this power of ten.  They
are no more digits than the shortest decimal has, or they have been filled up with zeros behind the
point. -/
structure IsSpelling (value : Double) (digits : Nat) (exponent : Int) : Prop where
  reads : value.reread? = (scaled? digits exponent).map (withSign value.negative)
  units : digits * stepUnits exponent = value.shortest.units
  few : digits ≤ 10 ^ largestDigitCount
  form : (digits ≤ value.shortest.digits ∧ value.shortest.exponent ≤ exponent) ∨
    (10 ∣ digits ∧ exponent = -1)

theorem reread?_eq_of_numeral (numeral : Numeral) (sign : numeral.negative = value.negative)
    (isWritten : numeral.IsWritten) (isMarked : numeral.IsMarked)
    (magnitude : numeral.magnitudeText = value.magnitudeText) :
    value.reread? = numeral.doubleValue.toOption := by
  apply Json.Reading.reread?_eq_doubleValue isWritten isMarked
  rw [Numeral.text, sign, magnitude, Double.text]

/-- Without the zeros at its end, the shortest decimal is the same number with a larger exponent. -/
theorem exists_zeros (isDigits : significantDigits value.shortest.digits = first :: rest) :
    ∃ zeros : Nat, digitCount value.shortest.digits = rest.length + 1 + zeros ∧
      10 ^ zeros * Nat.ofDigitChars 10 (first :: rest) 0 = value.shortest.digits := by
  rcases exists_toDigits_eq_append value.shortest.digits with ⟨zeros, isSplit⟩
  rw [isDigits] at isSplit
  refine ⟨zeros, ?_, ?_⟩
  · rw [digitCount, isSplit, List.length_append, List.length_replicate]
    rfl
  · rw [← Nat.ofDigitChars_replicate_zero, ← Nat.ofDigitChars_append, ← isSplit,
      Nat.ofDigitChars_ten_toDigits]

section Significant

variable (spelled : 10 ^ zeros * Nat.ofDigitChars 10 (first :: rest) 0 = value.shortest.digits)

include spelled

theorem significant_le : Nat.ofDigitChars 10 (first :: rest) 0 ≤ value.shortest.digits := by
  rw [← spelled]
  exact Nat.le_mul_of_pos_left _ (Nat.pow_pos (by decide))

theorem significant_units :
    Nat.ofDigitChars 10 (first :: rest) 0 * stepUnits (value.shortest.exponent + zeros) =
      value.shortest.units := by
  rw [stepUnits_add, Decimal.units, ← spelled]
  push_cast
  ring

/-- A number with no other digits than the significant ones. -/
theorem isSpelling_of_numeral {numeral : Numeral} {downward : Bool} {found : List Char}
    {exponent : Nat} (notZero : value.isZero = false)
    (reads : value.reread? = numeral.doubleValue.toOption)
    (sign : numeral.negative = value.negative)
    (isSpelt : Nat.ofDigitChars 10 numeral.digits 0 = Nat.ofDigitChars 10 (first :: rest) 0)
    (isExponent : numeral.exponent.getD (false, []) = (downward, found))
    (isValue : Numeral.exponentValue 0 found = .ok exponent)
    (isPower : -((numeral.fraction.getD []).length : Int) +
      TwinSwarm.Numeral.signed downward exponent = value.shortest.exponent + zeros) :
    value.IsSpelling (Nat.ofDigitChars 10 (first :: rest) 0) (value.shortest.exponent + zeros) := by
  have few : Nat.ofDigitChars 10 (first :: rest) 0 ≤ 10 ^ largestDigitCount :=
    Nat.le_trans (significant_le spelled) (shortest_isModerate notZero).few
  have fits : Nat.ofDigitChars 10 numeral.digits 0 ≤ Numeral.largestWord :=
    isSpelt ▸ Nat.le_trans few (by decide)
  constructor
  · rw [reads, Numeral.doubleValue_eq fits isExponent isValue, isSpelt, isPower, sign]
  · exact significant_units spelled
  · exact few
  · exact .inl ⟨significant_le spelled, by omega⟩

variable (isCount : digitCount value.shortest.digits = rest.length + 1 + zeros)

include isCount

/-- Digits behind which the point stands are filled up with zeros to the point, and there is one
more zero behind it. -/
theorem filled_isSpelling {whole : Nat} (isLeading : value.shortest.leading = whole)
    (isSmall : (whole : Int) ≤ largestPositional) (isShort : rest.length ≤ whole)
    (reads : value.reread? = (Numeral.positional value.negative (first :: rest)
      (Int.ofNat whole)).doubleValue.toOption) :
    value.IsSpelling (10 ^ (whole - rest.length + 1) * Nat.ofDigitChars 10 (first :: rest) 0)
      (-1) := by
  have low : Nat.ofDigitChars 10 (first :: rest) 0 < 10 ^ (rest.length + 1) := by
    have isBelow : value.shortest.digits < 10 ^ digitCount value.shortest.digits :=
      (Nat.length_toDigits_le_iff (by decide) Nat.length_toDigits_pos).mp (Nat.le_refl _)
    rw [isCount, ← spelled, Nat.pow_add, Nat.mul_comm] at isBelow
    exact Nat.lt_of_mul_lt_mul_right isBelow
  -- At most sixteen digits stand before the point, so with the zero behind it a number has no
  -- more digits than any shortest decimal may have.
  have few : 10 ^ (whole - rest.length + 1) * Nat.ofDigitChars 10 (first :: rest) 0 ≤
      10 ^ largestDigitCount :=
    calc 10 ^ (whole - rest.length + 1) * Nat.ofDigitChars 10 (first :: rest) 0
        ≤ 10 ^ (whole - rest.length + 1) * 10 ^ (rest.length + 1) :=
          Nat.mul_le_mul_left _ (Nat.le_of_lt low)
      _ = 10 ^ (whole + 2) := by
          rw [← Nat.pow_add]
          congr 1
          omega
      _ ≤ 10 ^ largestDigitCount := by
          rw [largestPositional] at isSmall
          apply Nat.pow_le_pow_right (by decide)
          rw [largestDigitCount]
          omega
  rw [Decimal.leading, isCount] at isLeading
  have isFraction : Double.fractionText ((first :: rest).drop (whole + 1)) = ['0'] := by
    rw [List.drop_succ_cons, List.drop_eq_nil_of_le isShort]
    rfl
  have isDigits : (Numeral.positional value.negative (first :: rest) (Int.ofNat whole)).digits =
      first :: rest ++ List.replicate (whole - rest.length + 1) '0' := by
    have isTaken : (first :: rest).take (whole + 1) = first :: rest :=
      List.take_of_length_le (Nat.succ_le_succ isShort)
    have isFiller : whole + 1 - (first :: rest).length = whole - rest.length := by
      rw [List.length_cons]
      omega
    rw [Numeral.digits, Numeral.positional, Option.getD_some, isFraction, isFiller, isTaken,
      List.append_assoc, List.replicate_succ']
  have isSpelt : Nat.ofDigitChars 10
      (Numeral.positional value.negative (first :: rest) (Int.ofNat whole)).digits 0 =
        10 ^ (whole - rest.length + 1) * Nat.ofDigitChars 10 (first :: rest) 0 := by
    rw [isDigits, Nat.ofDigitChars_append, Nat.ofDigitChars_replicate_zero]
  constructor
  · have fits : Nat.ofDigitChars 10 (Numeral.positional value.negative (first :: rest)
        (Int.ofNat whole)).digits 0 ≤ Numeral.largestWord :=
      isSpelt ▸ Nat.le_trans few (by decide)
    rw [reads, Numeral.doubleValue_eq fits rfl rfl, isSpelt, Numeral.positional, Option.getD_some,
      isFraction]
    rfl
  · have isExponent : value.shortest.exponent + zeros = -1 + (whole - rest.length + 1 : ℕ) := by
      push_cast at isLeading
      omega
    rw [← significant_units spelled, isExponent, stepUnits_add]
    push_cast
    ring
  · exact few
  · exact .inr ⟨Dvd.dvd.mul_right (dvd_pow_self 10 (Nat.succ_ne_zero _)) _, rfl⟩

variable (notZero : value.isZero = false)

include notZero

theorem scientific_isSpelling
    (reads : value.reread? = (Numeral.scientific value.negative first rest
      value.shortest.leading).doubleValue.toOption) :
    value.IsSpelling (Nat.ofDigitChars 10 (first :: rest) 0) (value.shortest.exponent + zeros) := by
  have leadingHigh := (shortest_isModerate notZero).leading_le (shortest_digits_pos notZero)
  have exponentLow := le_shortest_exponent notZero
  have isLeading : value.shortest.leading = rest.length + zeros + value.shortest.exponent := by
    rw [Decimal.leading, isCount]
    push_cast
    ring
  have isFraction : (Numeral.scientific value.negative first rest
      value.shortest.leading).fraction.getD [] = rest := by
    cases rest <;> rfl
  have isSigned : TwinSwarm.Numeral.signed (decide (value.shortest.leading < 0))
      value.shortest.leading.natAbs = value.shortest.leading := by
    simp only [TwinSwarm.Numeral.signed, decide_eq_true_eq]
    split <;> omega
  have isValue : Numeral.exponentValue 0 (Nat.toDigits 10 value.shortest.leading.natAbs) =
      .ok value.shortest.leading.natAbs := by
    have magnitude := Nat.ofDigitChars_ten_toDigits (n := value.shortest.leading.natAbs)
    rw [Numeral.exponentValue_eq, magnitude]
    rw [magnitude, Numeral.largestExponent]
    rw [finestPlaces] at exponentLow
    change value.shortest.leading ≤ 308 at leadingHigh
    omega
  apply isSpelling_of_numeral spelled notZero reads rfl _ rfl isValue
  · rw [isFraction, isSigned]
    omega
  · rw [Numeral.digits, isFraction]
    rfl

/-- A number whose point stands between its digits. -/
theorem positional_isSpelling {whole : Nat} (isLeading : value.shortest.leading = whole)
    (isLong : whole < rest.length)
    (reads : value.reread? = (Numeral.positional value.negative (first :: rest)
      (Int.ofNat whole)).doubleValue.toOption) :
    value.IsSpelling (Nat.ofDigitChars 10 (first :: rest) 0) (value.shortest.exponent + zeros) := by
  rw [Decimal.leading, isCount] at isLeading
  have isFraction : Double.fractionText ((first :: rest).drop (whole + 1)) = rest.drop whole := by
    rw [List.drop_succ_cons, fractionText, if_neg]
    simpa using isLong
  have isDigits : (Numeral.positional value.negative (first :: rest) (Int.ofNat whole)).digits =
      first :: rest := by
    have noFiller : whole + 1 - (first :: rest).length = 0 := by
      rw [List.length_cons]
      omega
    rw [Numeral.digits, Numeral.positional, Option.getD_some, isFraction, noFiller]
    simp
  apply isSpelling_of_numeral spelled notZero reads rfl (by rw [isDigits]) rfl rfl
  rw [Numeral.positional, Option.getD_some, isFraction, List.length_drop]
  simp only [TwinSwarm.Numeral.signed]
  push_cast at isLeading
  omega

/-- A number whose point stands before its digits. -/
theorem small_isSpelling {places : Nat} (isLeading : value.shortest.leading = Int.negSucc places)
    (reads : value.reread? = (Numeral.positional value.negative (first :: rest)
      (Int.negSucc places)).doubleValue.toOption) :
    value.IsSpelling (Nat.ofDigitChars 10 (first :: rest) 0) (value.shortest.exponent + zeros) := by
  rw [Decimal.leading, isCount] at isLeading
  have isDigits : (Numeral.positional value.negative (first :: rest) (Int.negSucc places)).digits =
      List.replicate (places + 1) '0' ++ first :: rest := rfl
  apply isSpelling_of_numeral spelled notZero reads rfl _ rfl rfl
  · simp only [Numeral.positional, Option.getD_some, List.length_append, List.length_replicate,
      List.length_cons, TwinSwarm.Numeral.signed]
    push_cast at isLeading ⊢
    omega
  · rw [isDigits, Nat.ofDigitChars_append, Nat.ofDigitChars_replicate_zero, Nat.mul_zero]

end Significant

/-- Whatever double is written, what is read is the scaled shortest decimal. -/
theorem exists_isSpelling (notZero : value.isZero = false) :
    ∃ digits exponent, value.IsSpelling digits exponent := by
  rcases magnitudeText_cases notZero with
    ⟨first, rest, isDigits, firstNotZero, areDigits, leading, leadingEq, isLaidOut⟩
  have sameLeading : value.shortest.leading = leading := leadingEq.symm
  rw [← sameLeading] at isLaidOut
  rcases exists_zeros isDigits with ⟨zeros, isCount, spelled⟩
  rcases isLaidOut with ⟨isSmall, isText⟩ | isText
  · have reads : value.reread? = (Numeral.positional value.negative (first :: rest)
        value.shortest.leading).doubleValue.toOption := by
      apply reread?_eq_of_numeral _ (Numeral.positional_negative _ _ _)
        (Numeral.positional_isWritten firstNotZero areDigits _ _)
        (.inl (Numeral.positional_marked _ _ _))
      rw [Numeral.positional_magnitudeText, isText]
    cases isLeading : value.shortest.leading with
    | ofNat whole =>
        rw [isLeading] at reads isSmall
        rcases Nat.lt_or_ge whole rest.length with isLong | isShort
        · exact ⟨_, _, positional_isSpelling spelled isCount notZero isLeading isLong reads⟩
        · exact ⟨_, _, filled_isSpelling spelled isCount isLeading isSmall isShort reads⟩
    | negSucc places =>
        rw [isLeading] at reads
        exact ⟨_, _, small_isSpelling spelled isCount notZero isLeading reads⟩
  · have reads : value.reread? = (Numeral.scientific value.negative first rest
        value.shortest.leading).doubleValue.toOption := by
      apply reread?_eq_of_numeral _ rfl
        (Numeral.scientific_isWritten firstNotZero areDigits _ _) (.inr rfl)
      rw [Numeral.scientific_magnitudeText, isText]
    exact ⟨_, _, scientific_isSpelling spelled isCount notZero reads⟩

end Double

end TwinSwarm
