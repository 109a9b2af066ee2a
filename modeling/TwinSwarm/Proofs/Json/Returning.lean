import TwinSwarm.Proofs.Json.Leaves
import TwinSwarm.Proofs.Number.Magnitude

/-!
# Every double that is written is read

The reader rounds the significand and the power of ten before it multiplies them, so it might round
a number beyond the largest double where the exact product is finite.  The shortest decimal of a
double never comes so close to the border: whatever finite double is written, some finite double is
read.
-/

namespace TwinSwarm

open Double (largest nearest? upperBound)

namespace Json

namespace Numeral

/-! ## Scaled significands -/

variable {digits limitDigits power limitPower : Nat}

theorem ofNat?_pow (isSmall : power ≤ largestPower) :
    Double.ofNat? (10 ^ power) = some (powerOfTen power) := by
  have notAbove : 10 ^ power ≤ upperBound := by
    -- The exponent is a variable, so nothing tries to work the powers out.
    obtain ⟨rest, isRest⟩ : ∃ rest, rest = 292 := ⟨_, rfl⟩
    calc 10 ^ power ≤ 10 ^ (16 + rest) := Nat.pow_le_pow_right (by decide) (isRest ▸ isSmall)
      _ = 10 ^ 16 * 10 ^ rest := Nat.pow_add 10 16 rest
      _ ≤ upperBound := Nat.le_of_lt (Double.mul_pow_lt_upperBound (by decide) isRest)
  rcases Double.exists_ofNat?_of_le Double.nearest?_upperBound notAbove with ⟨value, isValue, _⟩
  rw [powerOfTen, Nat.pow_eq, isValue]
  rfl

theorem units_powerOfTen_mono (notAbove : power ≤ limitPower)
    (isSmall : limitPower ≤ largestPower) :
    (powerOfTen power).units ≤ (powerOfTen limitPower).units := by
  have powNotAbove : 10 ^ power ≤ 10 ^ limitPower := Nat.pow_le_pow_right (by decide) notAbove
  rcases Double.exists_ofNat?_of_le (ofNat?_pow isSmall) powNotAbove with
    ⟨value, isValue, unitsNotAbove⟩
  rw [ofNat?_pow (Nat.le_trans notAbove isSmall), Option.some.injEq] at isValue
  rw [isValue]
  exact unitsNotAbove

theorem one_le_units_powerOfTen (isSmall : power ≤ largestPower) :
    1 <<< Double.unitExponent ≤ (powerOfTen power).units := by
  refine Nat.le_trans ?_ (units_powerOfTen_mono (Nat.zero_le power) isSmall)
  rw [Double.units_of_nearest? (ofNat?_pow (Nat.zero_le _)), Nat.pow_zero, Nat.one_shiftLeft,
    Double.roundedUnits_pow]

/-- Division by a power of ten gives a finite double. -/
theorem isSome_divided? (value : Double) (power : Nat) : (divided? value power).isSome := by
  fun_induction divided? value power with
  | case1 value power isSmall =>
      rcases Double.exists_over? value (one_le_units_powerOfTen isSmall) with ⟨quotient, isQuotient⟩
      exact isQuotient ▸ rfl
  | case2 => rfl
  | case3 value power notSmall notZero fromNext =>
      rcases Double.exists_over? value (one_le_units_powerOfTen (Nat.le_refl largestPower)) with
        ⟨next, isNext⟩
      rw [isNext]
      exact fromNext next

/-- A smaller significand with a smaller power of ten gives a finite double, if the larger ones
do. -/
theorem isSome_scaled?_of_le (isLimit : (scaled? limitDigits (limitPower : Nat)).isSome)
    (isSmall : limitPower ≤ largestPower) (digitsNotAbove : digits ≤ limitDigits)
    (powerNotAbove : power ≤ limitPower) : (scaled? digits (power : Nat)).isSome := by
  have isMultiplied {value : Double} {power : Nat} (isSmall : power ≤ largestPower) :
      multiplied? value power = value.times? (powerOfTen power) := if_pos isSmall
  have unfolds (digits power : Nat) : scaled? digits (power : Nat) =
      (Double.ofNat? digits).bind fun value => multiplied? value power := rfl
  rw [unfolds] at isLimit ⊢
  cases isRounded : Double.ofNat? limitDigits with
  | none =>
      rw [isRounded] at isLimit
      cases isLimit
  | some limitValue =>
      rw [isRounded, Option.bind_some, isMultiplied isSmall] at isLimit
      rcases Option.isSome_iff_exists.mp isLimit with ⟨limit, isLimit⟩
      rcases Double.exists_ofNat?_of_le isRounded digitsNotAbove with ⟨value, isValue, unitsLow⟩
      rcases Double.exists_times?_of_le isLimit unitsLow
        (units_powerOfTen_mono powerNotAbove isSmall) with ⟨product, isProduct⟩
      rw [isValue, Option.bind_some, isMultiplied (Nat.le_trans powerNotAbove isSmall), isProduct]
      rfl

/-- The largest significands that are needed with a power of ten: up to the power 288 any of 64 bits,
and above it those of seventeen digits that stay below the bound. -/
theorem isSome_scaled?_limits : (scaled? (10 ^ 20) (288 : Nat)).isSome ∧
    ∀ power ≤ largestPower, 288 < power →
      (scaled? (min (10 ^ 17) ((upperBound - 1) / 10 ^ power)) (power : Nat)).isSome := by
  decide +kernel

/-- A significand of 64 bits is scaled to a finite double, if its power of ten is not large. -/
theorem isSome_scaled?_of_word {exponent : Int} (isWord : digits ≤ largestWord)
    (isSmall : exponent ≤ 17) : (scaled? digits exponent).isSome := by
  have notAbove : digits ≤ 10 ^ 20 := Nat.le_trans isWord (by decide)
  cases exponent with
  | ofNat power =>
      have isLow : power ≤ 288 := Nat.le_trans (Int.ofNat_le.mp isSmall) (by decide)
      exact isSome_scaled?_of_le isSome_scaled?_limits.1 (by decide) notAbove isLow
  | negSucc power =>
      rcases Double.exists_ofNat?_of_le (ofNat?_pow (show 20 ≤ largestPower by decide))
        notAbove with ⟨value, isValue, _⟩
      rw [scaled?, isValue]
      exact isSome_divided? value (power + 1)

/-- What is less than the bound is scaled to a finite double. -/
theorem isSome_scaled?_of_lt (positive : 0 < digits) (few : digits ≤ 10 ^ 17)
    (low : digits * 10 ^ power < upperBound) : (scaled? digits (power : Nat)).isSome := by
  have isSmall : power ≤ largestPower := by
    apply Nat.le_of_not_lt
    intro tooLarge
    apply Nat.not_le_of_lt low
    calc upperBound ≤ 10 ^ 309 := Double.upperBound_between.2.1
      _ ≤ 10 ^ power := pow_le_pow_right₀ (by decide) tooLarge
      _ ≤ digits * 10 ^ power := Nat.le_mul_of_pos_left _ positive
  by_cases isLow : power ≤ 288
  · have notAbove : digits ≤ 10 ^ 20 := Nat.le_trans few (by decide)
    exact isSome_scaled?_of_le isSome_scaled?_limits.1 (by decide) notAbove isLow
  · have isBelow : digits ≤ (upperBound - 1) / 10 ^ power :=
      (Nat.le_div_iff_mul_le (Nat.pow_pos (by decide))).mpr (Nat.le_sub_one_of_lt low)
    exact isSome_scaled?_of_le (isSome_scaled?_limits.2 power isSmall (Nat.lt_of_not_le isLow))
      isSmall (Nat.le_min.mpr ⟨few, isBelow⟩) (Nat.le_refl power)

/-! ## Gathered digits -/

theorem gather_le {value : Nat} (isWord : value ≤ largestWord) (found : List Char) :
    (gather value found).1 ≤ largestWord := by
  induction found generalizing value with
  | nil => exact isWord
  | cons digit rest fromNext =>
      rw [gather]
      split
      next nextIsWord => exact fromNext nextIsWord
      next => exact isWord

theorem length_gather_le (value : Nat) (found : List Char) :
    (gather value found).2.length ≤ found.length := by
  induction found generalizing value with
  | nil => exact Nat.le_refl _
  | cons digit rest fromNext =>
      rw [gather]
      split
      next => exact Nat.le_trans (fromNext _) (Nat.le_succ _)
      next => exact Nat.le_refl _

/-- Digits whose number is not too large are a finite exponent. -/
theorem exponentValue_eq {found : List Char} {value : Nat}
    (isSmall : Nat.ofDigitChars 10 found value ≤ largestExponent) :
    exponentValue value found = .ok (Nat.ofDigitChars 10 found value) := by
  induction found generalizing value with
  | nil => rfl
  | cons digit rest fromNext =>
      rw [Nat.ofDigitChars_cons] at isSmall
      have nextIsSmall : appendDigit value digit ≤ largestExponent :=
        Nat.le_trans (le_ofDigitChars rest _) isSmall
      rw [exponentValue, if_pos nextIsSmall, Nat.ofDigitChars_cons]
      exact fromNext isSmall

/-! ## Numbers in texts -/

variable {numeral : Numeral}

theorem significand_isWord (numeral : Numeral) : numeral.significand.1 ≤ largestWord :=
  gather_le (gather_le (Nat.zero_le _) _) _

theorem shift_le (numeral : Numeral) : numeral.significand.2 ≤ numeral.whole.length := by
  have leftLow := length_gather_le 0 numeral.whole
  have unreadLow := length_gather_le (gather 0 numeral.whole).1 (numeral.fraction.getD [])
  simp only [significand]
  omega

/-- The number is read as a finite double. -/
def IsRead (numeral : Numeral) : Prop := ∃ value, numeral.doubleValue = .ok value

theorem isRead_of_scaled {downward : Bool} {found : List Char} {exponent : Nat}
    (isExponent : numeral.exponent.getD (false, []) = (downward, found))
    (isValue : exponentValue 0 found = .ok exponent)
    (isScaled : (scaled? numeral.significand.1
      (numeral.significand.2 + TwinSwarm.Numeral.signed downward exponent)).isSome) :
    numeral.IsRead := by
  rcases Option.isSome_iff_exists.mp isScaled with ⟨value, isScaled⟩
  refine ⟨withSign numeral.negative value, ?_⟩
  simp only [doubleValue, isExponent, isValue, isScaled]

/-- A number with few digits before the point and without an exponent that makes it larger is read
as a finite double. -/
theorem isRead_of_short (isShort : numeral.whole.length ≤ 17)
    (notUpward : ∀ exponent ∈ numeral.exponent, exponent.1 = true) : numeral.IsRead := by
  have shiftLow := numeral.shift_le
  cases isExponent : numeral.exponent with
  | none =>
      apply isRead_of_scaled (by rw [isExponent, Option.getD_none]) rfl
      apply isSome_scaled?_of_word numeral.significand_isWord
      show numeral.significand.2 + 0 ≤ 17
      omega
  | some exponent =>
      rcases exponent with ⟨downward, found⟩
      cases notUpward _ isExponent
      cases isValue : exponentValue 0 found with
      | error unread =>
          refine ⟨.zero numeral.negative, ?_⟩
          simp [doubleValue, isExponent, isValue]
      | ok exponent =>
          apply isRead_of_scaled (by rw [isExponent]; rfl) isValue
          apply isSome_scaled?_of_word numeral.significand_isWord
          show numeral.significand.2 + -(exponent : Int) ≤ 17
          omega

theorem significand_scientific {first : Char} {rest : List Char} (negative : Bool) (leading : Int)
    (isWord : Nat.ofDigitChars 10 (first :: rest) 0 ≤ largestWord) :
    (scientific negative first rest leading).significand =
      (Nat.ofDigitChars 10 (first :: rest) 0, -(rest.length : Int)) := by
  have isSplit : Nat.ofDigitChars 10 (first :: rest) 0 =
      Nat.ofDigitChars 10 rest (Nat.ofDigitChars 10 [first] 0) := rfl
  rw [isSplit] at isWord ⊢
  have firstIsWord : Nat.ofDigitChars 10 [first] 0 ≤ largestWord :=
    Nat.le_trans (le_ofDigitChars rest _) isWord
  have isFraction : (scientific negative first rest leading).fraction.getD [] = rest := by
    cases rest <;> rfl
  have isWhole : (scientific negative first rest leading).whole = [first] := rfl
  simp only [significand, isFraction, isWhole, gather_eq firstIsWord, gather_eq isWord]
  simp

/-- A number that is written with an exponent is read as a finite double, if it is below the bound
after its point has been moved behind the last digit. -/
theorem scientific_isRead {first : Char} {rest : List Char} {leading : Int} (negative : Bool)
    (positive : 0 < Nat.ofDigitChars 10 (first :: rest) 0)
    (few : Nat.ofDigitChars 10 (first :: rest) 0 ≤ 10 ^ 17) (isSmall : leading ≤ 308)
    (low : ∀ power : Nat, leading - rest.length = power →
      Nat.ofDigitChars 10 (first :: rest) 0 * 10 ^ power < upperBound) :
    (scientific negative first rest leading).IsRead := by
  have isWord : Nat.ofDigitChars 10 (first :: rest) 0 ≤ largestWord :=
    Nat.le_trans few (by decide)
  cases leading with
  | negSucc leading =>
      apply isRead_of_short (by simp [scientific])
      rintro exponent ⟨rfl⟩
      exact decide_eq_true (Int.negSucc_lt_zero leading)
  | ofNat leading =>
      have isExponent : (scientific negative first rest (Int.ofNat leading)).exponent.getD
          (false, []) = (false, Nat.toDigits 10 leading) := by
        simp [scientific]
      have isValue : exponentValue 0 (Nat.toDigits 10 leading) = .ok leading := by
        have spelled : Nat.ofDigitChars 10 (Nat.toDigits 10 leading) 0 = leading :=
          Nat.ofDigitChars_ten_toDigits
        rw [exponentValue_eq, spelled]
        rw [spelled]
        exact Nat.le_trans (Int.ofNat_le.mp isSmall) (by decide)
      apply isRead_of_scaled isExponent isValue
      rw [significand_scientific negative _ isWord]
      show (scaled? _ (-(rest.length : Int) + (leading : Int))).isSome
      generalize isSum : -(rest.length : Int) + (leading : Int) = sum
      cases sum with
      | negSucc power => exact isSome_scaled?_of_word isWord (by omega)
      | ofNat power =>
          apply isSome_scaled?_of_lt positive few
          apply low
          rw [Int.ofNat_eq_natCast] at isSum ⊢
          omega

end Numeral

end Json

/-! ## Doubles in texts -/

namespace Double

open Json (Numeral)

variable {value : Double} {first : Char} {rest : List Char}

theorem scientific_isRead (notZero : value.isZero = false)
    (isDigits : significantDigits value.shortest.digits = first :: rest) :
    (Numeral.scientific value.negative first rest
      ((digitCount value.shortest.digits : Int) - 1 + value.shortest.exponent)).IsRead := by
  have isModerate := shortest_isModerate notZero
  have positive := shortest_digits_pos notZero
  rcases exists_toDigits_eq_append value.shortest.digits with ⟨zeros, isSplit⟩
  rw [isDigits] at isSplit
  have isCount : digitCount value.shortest.digits = rest.length + 1 + zeros := by
    rw [digitCount, isSplit, List.length_append, List.length_replicate]
    rfl
  have spelled : 10 ^ zeros * Nat.ofDigitChars 10 (first :: rest) 0 = value.shortest.digits := by
    rw [← Nat.ofDigitChars_replicate_zero, ← Nat.ofDigitChars_append, ← isSplit,
      Nat.ofDigitChars_ten_toDigits]
  apply Numeral.scientific_isRead
  · exact Nat.pos_of_mul_pos_left (spelled ▸ positive)
  · refine Nat.le_trans ?_ isModerate.few
    rw [← spelled]
    exact Nat.le_mul_of_pos_left _ (Nat.pow_pos (by decide))
  · exact isModerate.leading_le positive
  · intro power isPower
    apply isModerate.scaled_lt spelled
    omega

theorem positional_isRead (negative : Bool) (digits : List Char) {leading : Int}
    (isSmall : leading ≤ largestPositional) :
    (Numeral.positional negative digits leading).IsRead := by
  apply Numeral.isRead_of_short
  · cases leading with
    | ofNat whole =>
        rw [largestPositional, Int.ofNat_eq_natCast] at isSmall
        have isCount : (digits.take (whole + 1) ++
            List.replicate (whole + 1 - digits.length) '0').length = whole + 1 := by
          simp
          omega
        show (digits.take (whole + 1) ++ List.replicate _ '0').length ≤ 17
        rw [isCount]
        omega
    | negSucc zeros => exact Nat.le_add_left 1 16
  · intro exponent isExponent
    rw [Numeral.positional_exponent] at isExponent
    cases isExponent

theorem isSome_reread?_of_isRead (numeral : Numeral) (sign : numeral.negative = value.negative)
    (isWritten : numeral.IsWritten) (isMarked : numeral.IsMarked)
    (magnitude : numeral.magnitudeText = value.magnitudeText) (isRead : numeral.IsRead) :
    value.reread?.isSome := by
  have isText : numeral.text = value.text := by
    rw [Numeral.text, sign, magnitude, Double.text]
  rcases isRead with ⟨read, isRead⟩
  rw [Json.Reading.reread?_eq_doubleValue isWritten isMarked isText, isRead]
  rfl

/-- Where a double has been written, a double is read. -/
theorem isSome_reread? (value : Double) : value.reread?.isSome := by
  cases isZero : value.isZero with
  | true =>
      apply isSome_reread?_of_isRead (.zero value.negative) rfl
        (Numeral.zero_isWritten value.negative) (.inl rfl)
      · rw [magnitudeText, if_pos isZero]
        rfl
      · exact Numeral.isRead_of_short (Nat.le_add_left 1 16) (by rintro exponent ⟨⟩)
  | false =>
      rcases magnitudeText_cases isZero with
        ⟨first, rest, isDigits, notZero, areDigits, leading, rfl, ⟨isSmall, isText⟩ | isText⟩
      · apply isSome_reread?_of_isRead (.positional value.negative (first :: rest) _)
          (Numeral.positional_negative _ _ _)
          (Numeral.positional_isWritten notZero areDigits _ _)
          (.inl (Numeral.positional_marked _ _ _))
        · rw [Numeral.positional_magnitudeText, isText]
        · exact positional_isRead _ _ isSmall
      · apply isSome_reread?_of_isRead (.scientific value.negative first rest _) rfl
          (Numeral.scientific_isWritten notZero areDigits _ _) (.inr rfl)
        · rw [Numeral.scientific_magnitudeText, isText]
        · exact scientific_isRead isZero isDigits

end Double

/-- No double of a document is lost when the document is written and read. -/
theorem Json.doublesReturn (leaves : List Json) : DoublesReturn leaves :=
  fun value _ => value.isSome_reread?

end TwinSwarm
