import Mathlib.Data.List.TakeWhile
import Mathlib.Tactic.Ring
import TwinSwarm.Proofs.Number.Rounding

/-!
# The size of the shortest decimal

The shortest decimal of a double has at most seventeen digits, or it is a one behind which only
zeros stand.  It is written for a finite double, so it stays below the numbers that are rounded to
the largest double, unless it is written for that double itself.
-/

namespace TwinSwarm

namespace Double

variable {value : Double}

/-! ## Digits on a grid -/

/-- The magnitude is below the power of ten behind its leading exponent. -/
theorem units_lt_leading (value : Double) :
    value.units * 10 ^ countingPlaces <
      10 ^ digitCount (value.units * 10 ^ countingPlaces / 2 ^ unitExponent) *
        2 ^ unitExponent := by
  generalize isCount : value.units * 10 ^ countingPlaces / 2 ^ unitExponent = count
  have countLow : count < 10 ^ digitCount count :=
    (Nat.length_toDigits_le_iff (by decide) Nat.length_toDigits_pos).mp (Nat.le_refl _)
  rw [← Nat.div_lt_iff_lt_mul (Nat.two_pow_pos _), isCount]
  exact countLow

/-- In steps of one of the first seventeen digits, a double has less than `10 ^ 17` steps. -/
theorem steps_lt (value : Double) {fewer : Nat} (isFew : fewer < largestDigitCount) :
    (value.inSteps (value.leadingExponent - fewer)).1 /
      (value.inSteps (value.leadingExponent - fewer)).2 < 10 ^ largestDigitCount := by
  have below := value.units_lt_leading
  rw [leadingExponent, Nat.pow_eq, Nat.shiftRight_eq_div_pow]
  generalize digitCount (value.units * 10 ^ countingPlaces / 2 ^ unitExponent) = count at *
  generalize isStep : (count : Int) - 1 - countingPlaces - fewer = step
  have counting : countingPlaces = 340 := rfl
  have most : largestDigitCount = 17 := rfl
  -- The magnitude is below ten to the count of its digits.  Both are brought to one place, with the
  -- steps on the side of the denominator or of the numerator.
  cases step with
  | ofNat power =>
      have places : count = countingPlaces + (power + 1 + fewer) := by
        simp only [Int.ofNat_eq_natCast] at isStep
        omega
      rw [inSteps, Nat.pow_eq, Nat.shiftLeft_eq]
      apply Nat.div_lt_of_lt_mul
      apply lt_of_mul_lt_mul_right _ (Nat.zero_le (10 ^ countingPlaces))
      calc value.units * 10 ^ countingPlaces < 10 ^ count * 2 ^ unitExponent := below
        _ ≤ 10 ^ (countingPlaces + (power + largestDigitCount)) * 2 ^ unitExponent :=
            Nat.mul_le_mul_right _ (Nat.pow_le_pow_right (by decide) (by omega))
        _ = 10 ^ power * 2 ^ unitExponent * 10 ^ largestDigitCount * 10 ^ countingPlaces := by
            ring
  | negSucc power =>
      have places : count + (power + 1) = countingPlaces + (fewer + 1) := by omega
      rw [inSteps, Nat.pow_eq, Nat.shiftLeft_eq, Nat.one_mul]
      apply Nat.div_lt_of_lt_mul
      apply lt_of_mul_lt_mul_right _ (Nat.zero_le (10 ^ countingPlaces))
      calc value.units * 10 ^ (power + 1) * 10 ^ countingPlaces
          = value.units * 10 ^ countingPlaces * 10 ^ (power + 1) := Nat.mul_right_comm _ _ _
        _ < 10 ^ count * 2 ^ unitExponent * 10 ^ (power + 1) :=
            Nat.mul_lt_mul_of_pos_right below (Nat.pow_pos (by decide))
        _ = 10 ^ (count + (power + 1)) * 2 ^ unitExponent := by ring
        _ ≤ 10 ^ (countingPlaces + largestDigitCount) * 2 ^ unitExponent :=
            Nat.mul_le_mul_right _ (Nat.pow_le_pow_right (by decide) (by omega))
        _ = 2 ^ unitExponent * 10 ^ largestDigitCount * 10 ^ countingPlaces := by ring

/-- What is found on a grid is one of the two neighbours of the double, and it reads back. -/
theorem onGrid?_eq_some {exponent : Int} {decimal : Decimal}
    (found : value.onGrid? exponent = some decimal) : decimal.exponent = exponent ∧
      decimal.digits ≤ (value.inSteps exponent).1 / (value.inSteps exponent).2 + 1 ∧
      value.isReadFrom decimal = true := by
  unfold onGrid? at found
  dsimp only at found
  split at found
  case h_1 belowRead aboveRead =>
    cases found
    refine ⟨rfl, roundedQuotient_le _ _, ?_⟩
    have atLeast := le_roundedQuotient (value.inSteps exponent).1 (value.inSteps exponent).2
    have atMost := roundedQuotient_le (value.inSteps exponent).1 (value.inSteps exponent).2
    rcases Nat.lt_or_eq_of_le atLeast with above | isBelow
    · rw [Nat.le_antisymm atMost above]
      exact aboveRead
    · rw [← isBelow]
      exact belowRead
  case h_2 belowRead _ =>
    cases found
    exact ⟨rfl, Nat.le_succ _, belowRead⟩
  case h_3 aboveRead =>
    cases found
    exact ⟨rfl, Nat.le_refl _, aboveRead⟩
  case h_4 => cases found

/-! ## Sizes -/

/-- A number that is rounded to the largest double. -/
def upperBound : Nat := 17976931348623158 * 10 ^ 292

theorem mul_pow_lt_upperBound {digits power : Nat} (low : digits < 17976931348623158)
    (isPower : power = 292) : digits * 10 ^ power < upperBound := by
  rw [isPower, upperBound]
  gcongr

/-- The bound has more than seventeen digits and lies above the largest double, though not so far
that it is rounded to infinity. -/
theorem upperBound_between : 10 ^ largestDigitCount < upperBound ∧ upperBound ≤ 10 ^ 309 ∧
    largest.units < upperBound * 2 ^ unitExponent ∧
    nearest? false upperBound 1 = some largest := by
  decide +kernel

theorem nearest?_upperBound : nearest? false upperBound 1 = some largest :=
  upperBound_between.2.2.2

/-- Division by a double that is not less than one gives a finite double. -/
theorem exists_over? {right : Double} (left : Double)
    (atLeastOne : 1 <<< unitExponent ≤ right.units) : ∃ value, left.over? right = some value := by
  have positive : 0 < right.units := Nat.lt_of_lt_of_le (by decide) atLeastOne
  have notAbove : left.units * 1 ≤ upperBound * right.units :=
    calc left.units * 1 ≤ largest.units := by
          rw [Nat.mul_one]
          exact left.units_le_largest
      _ ≤ upperBound * 2 ^ unitExponent := Nat.le_of_lt upperBound_between.2.2.1
      _ ≤ upperBound * right.units := by
          rw [Nat.one_shiftLeft] at atLeastOne
          exact Nat.mul_le_mul_left _ atLeastOne
  rcases exists_nearest?_of_le (left.negative != right.negative) positive Nat.one_pos
    nearest?_upperBound notAbove with ⟨value, isValue, _⟩
  exact ⟨value, isValue⟩

/-- What is read as another double than the largest is less than the bound. -/
theorem lt_upperBound_of_isReadFrom {digits power : Nat} (notZero : value.isZero = false)
    (notLargest : value.units < largest.units)
    (isRead : value.isReadFrom ⟨digits, power⟩ = true) : digits * 10 ^ power < upperBound := by
  have isNearest : nearest? value.negative (digits * 10 ^ power) 1 = some value := by
    have isDecimal := of_decide_eq_true isRead
    have notBoth : some (zero value.negative) ≠ some value := by
      intro isValue
      rw [← Option.some.inj isValue] at notZero
      cases notZero
    simp only [ofDecimal?] at isDecimal
    split at isDecimal
    · exact absurd isDecimal notBoth
    · split at isDecimal
      · cases isDecimal
      · split at isDecimal
        · exact absurd isDecimal notBoth
        · exact isDecimal
  apply Nat.lt_of_not_le
  intro atLeast
  rcases exists_nearest?_of_le false Nat.one_pos Nat.one_pos isNearest
    (Nat.mul_le_mul_right 1 atLeast) with ⟨other, isOther, notAbove⟩
  rw [nearest?_upperBound, Option.some.injEq] at isOther
  rw [← isOther] at notAbove
  exact Nat.not_lt_of_le notAbove notLargest

theorem steps_mul_lt_upperBound (value : Double) (power : Nat) :
    (value.inSteps power).1 / (value.inSteps power).2 * 10 ^ power < upperBound := by
  apply lt_of_mul_lt_mul_right _ (Nat.zero_le (2 ^ unitExponent))
  show value.units / (Nat.pow 10 power <<< unitExponent) * 10 ^ power * 2 ^ unitExponent < _
  rw [Nat.pow_eq, Nat.shiftLeft_eq, Nat.mul_assoc]
  calc value.units / (10 ^ power * 2 ^ unitExponent) * (10 ^ power * 2 ^ unitExponent)
      ≤ value.units := Nat.div_mul_le_self _ _
    _ ≤ largest.units := value.units_le_largest
    _ < upperBound * 2 ^ unitExponent := upperBound_between.2.2.1

/-- What the shortest decimal of a double is like, if the double is not zero. -/
structure IsModerate (decimal : Decimal) : Prop where
  few : decimal.digits ≤ 10 ^ largestDigitCount
  low (power : Nat) : decimal.exponent = power → decimal.digits * 10 ^ power < upperBound

theorem shortest_largest (isLargest : value.units = largest.units) :
    value.shortest = ⟨17976931348623157, 292⟩ := by
  have eitherSign (negative : Bool) :
      (⟨negative, largest.significand, largest.scale, largest.canonical⟩ : Double).shortest =
        ⟨17976931348623157, 292⟩ := by
    cases negative <;> decide +kernel
  rcases value with ⟨negative, significand, scale, isCanonical⟩
  have isParts := parts_of_units_eq_largest isLargest
  dsimp only at isParts
  rcases isParts with ⟨rfl, rfl⟩
  exact eitherSign negative

theorem shortest_isModerate_of_lt (notZero : value.isZero = false)
    (notLargest : value.units < largest.units) : IsModerate value.shortest := by
  rcases shortest_cases notZero with ⟨fewer, isFew, onGrid⟩ | isCutOff
  · rcases onGrid?_eq_some onGrid with ⟨isExponent, few, isRead⟩
    generalize value.shortest = decimal at few isRead ⊢
    constructor
    · exact Nat.le_trans few (value.steps_lt isFew)
    · rintro power isPower
      rcases decimal with ⟨digits, exponent⟩
      cases isPower
      exact lt_upperBound_of_isReadFrom notZero notLargest isRead
  · have isFinest : value.leadingExponent + 1 - largestDigitCount =
        value.leadingExponent - (16 : Nat) := by
      rw [largestDigitCount]
      omega
    rw [isCutOff, isFinest]
    constructor
    · exact Nat.le_of_lt (value.steps_lt (by decide))
    · intro power isPower
      change value.leadingExponent - (16 : Nat) = power at isPower
      rw [isPower]
      exact value.steps_mul_lt_upperBound power

theorem shortest_isModerate (notZero : value.isZero = false) : IsModerate value.shortest := by
  rcases Nat.lt_or_eq_of_le value.units_le_largest with notLargest | isLargest
  · exact shortest_isModerate_of_lt notZero notLargest
  · rw [shortest_largest isLargest]
    constructor
    · decide
    · intro power isPower
      exact mul_pow_lt_upperBound (by decide) (Int.ofNat_inj.mp isPower).symm

/-! ## Digits -/

/-- Behind the significant digits of a number, only zeros stand. -/
theorem exists_toDigits_eq_append (number : Nat) : ∃ zeros,
    Nat.toDigits 10 number = significantDigits number ++ List.replicate zeros '0' := by
  let isFiller (digit : Char) : Bool := digit = '0'
  let filler := (Nat.toDigits 10 number).reverse.takeWhile isFiller
  have isZero (digit : Char) (isMember : digit ∈ filler) : digit = '0' := by
    have satisfies : isFiller digit = true := List.mem_takeWhile_imp isMember
    simpa [isFiller] using satisfies
  have areZeros : filler = List.replicate filler.length '0' :=
    List.eq_replicate_iff.mpr ⟨rfl, isZero⟩
  refine ⟨filler.length, ?_⟩
  calc Nat.toDigits 10 number
      = (filler ++ (Nat.toDigits 10 number).reverse.dropWhile isFiller).reverse := by
        rw [List.takeWhile_append_dropWhile, List.reverse_reverse]
    _ = significantDigits number ++ filler.reverse := List.reverse_append
    _ = significantDigits number ++ List.replicate filler.length '0' := by
        rw [areZeros, List.reverse_replicate, List.length_replicate]

variable {decimal : Decimal}

/-- With the zeros at the end of its digits taken into the exponent, a moderate decimal is still
below the bound. -/
theorem IsModerate.scaled_lt (isModerate : IsModerate decimal) {digits zeros power : Nat}
    (isDigits : 10 ^ zeros * digits = decimal.digits) (isPower : zeros + decimal.exponent = power) :
    digits * 10 ^ power < upperBound := by
  rcases decimal with ⟨written, exponent⟩
  dsimp only at isDigits isPower
  cases exponent with
  | ofNat behind =>
      have isSum : power = zeros + behind := by
        rw [Int.ofNat_eq_natCast] at isPower
        omega
      calc digits * 10 ^ power = 10 ^ zeros * digits * 10 ^ behind := by rw [isSum]; ring
        _ = written * 10 ^ behind := by rw [isDigits]
        _ < upperBound := isModerate.low behind rfl
  | negSucc behind =>
      calc digits * 10 ^ power ≤ digits * 10 ^ zeros :=
            Nat.mul_le_mul_left _ (Nat.pow_le_pow_right (by decide) (by omega))
        _ = written := by rw [Nat.mul_comm, isDigits]
        _ ≤ 10 ^ largestDigitCount := isModerate.few
        _ < upperBound := upperBound_between.1

/-- The first digit of a moderate decimal stands at most where that of the largest double does. -/
theorem IsModerate.leading_le (isModerate : IsModerate decimal) (positive : 0 < decimal.digits) :
    (digitCount decimal.digits : Int) - 1 + decimal.exponent ≤ 308 := by
  rcases decimal with ⟨digits, exponent⟩
  have atLeast : 10 ^ (digitCount digits - 1) ≤ digits := pow_le_of_digitCount positive
  have someDigit : 0 < digitCount digits := Nat.length_toDigits_pos
  dsimp only
  cases exponent with
  | ofNat behind =>
      have below : 10 ^ (digitCount digits - 1 + behind) < 10 ^ 309 :=
        calc 10 ^ (digitCount digits - 1 + behind)
            = 10 ^ (digitCount digits - 1) * 10 ^ behind := pow_add _ _ _
          _ ≤ digits * 10 ^ behind := Nat.mul_le_mul_right _ atLeast
          _ < upperBound := isModerate.low behind rfl
          _ ≤ 10 ^ 309 := upperBound_between.2.1
      have lower := (Nat.pow_lt_pow_iff_right (by decide)).mp below
      rw [Int.ofNat_eq_natCast]
      omega
  | negSucc behind =>
      have notAbove : 10 ^ (digitCount digits - 1) ≤ 10 ^ largestDigitCount :=
        Nat.le_trans atLeast isModerate.few
      have lower := (Nat.pow_le_pow_iff_right (by decide)).mp notAbove
      rw [largestDigitCount] at lower
      omega

end Double

end TwinSwarm
