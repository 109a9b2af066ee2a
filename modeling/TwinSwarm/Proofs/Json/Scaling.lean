import TwinSwarm.Proofs.Json.Returning
import TwinSwarm.Proofs.Number.Identified

/-!
# The error of scaling

The reader rounds the digits, rounds the power of ten, and rounds their product or quotient; where
the power is too large for a double, it divides twice.  Each step errs by at most one part in
`2 ^ 53`, apart from the last one, which errs by at most half the distance between two doubles.
Where the digits and the power of ten are doubles themselves, only the last step rounds, and the
reader finds the nearest double.
-/

namespace TwinSwarm

/-! ## Relative errors -/

/-- A number errs from another one by no more than a part of that one. -/
def IsClose (error approximate exact : ℚ) : Prop := |approximate - exact| ≤ error * exact

namespace IsClose

variable {error otherError approximate exact other otherExact : ℚ}

theorem le_mul (isClose : IsClose error approximate exact) :
    approximate ≤ (1 + error) * exact := by
  have upper := (abs_le.mp isClose).2
  linarith

theorem mul_le (isClose : IsClose error approximate exact) :
    (1 - error) * exact ≤ approximate := by
  have lower := (abs_le.mp isClose).1
  linarith

theorem mono (isClose : IsClose error approximate exact) (notAbove : error ≤ otherError)
    (notNegative : 0 ≤ exact) : IsClose otherError approximate exact :=
  le_trans isClose (mul_le_mul_of_nonneg_right notAbove notNegative)

theorem mul (isClose : IsClose error approximate exact)
    (otherIsClose : IsClose otherError other otherExact) (notNegative : 0 ≤ exact)
    (otherNotNegative : 0 ≤ other) :
    IsClose (error * (1 + otherError) + otherError) (approximate * other) (exact * otherExact) :=
  calc |approximate * other - exact * otherExact|
      = |(approximate - exact) * other + exact * (other - otherExact)| := by ring_nf
    _ ≤ |(approximate - exact) * other| + |exact * (other - otherExact)| := abs_add_le _ _
    _ = |approximate - exact| * other + exact * |other - otherExact| := by
        rw [abs_mul, abs_mul, abs_of_nonneg otherNotNegative, abs_of_nonneg notNegative]
    _ ≤ error * exact * ((1 + otherError) * otherExact) + exact * (otherError * otherExact) :=
        add_le_add
          (mul_le_mul isClose otherIsClose.le_mul otherNotNegative
            (le_trans (abs_nonneg _) isClose))
          (mul_le_mul_of_nonneg_left otherIsClose notNegative)
    _ = (error * (1 + otherError) + otherError) * (exact * otherExact) := by ring

theorem div (isClose : IsClose error approximate exact)
    (otherIsClose : IsClose otherError other otherExact) (notNegative : 0 ≤ exact)
    (otherPositive : 0 < otherExact) (errorNotNegative : 0 ≤ error + otherError)
    (lessThanOne : otherError < 1) :
    IsClose ((error + otherError) / (1 - otherError)) (approximate / other)
      (exact / otherExact) := by
  have isLow : 0 < (1 - otherError) * otherExact := mul_pos (sub_pos.mpr lessThanOne) otherPositive
  have isPositive : 0 < other := lt_of_lt_of_le isLow otherIsClose.mul_le
  -- The error is what is wrong with the dividend and what is wrong with the divisor.
  have isQuotient : approximate / other - exact / otherExact =
      ((approximate - exact) * otherExact + exact * (otherExact - other)) /
        (other * otherExact) := by
    field_simp
    ring
  have isNumerator : |(approximate - exact) * otherExact + exact * (otherExact - other)| ≤
      (error + otherError) * exact * otherExact :=
    calc |(approximate - exact) * otherExact + exact * (otherExact - other)|
        ≤ |(approximate - exact) * otherExact| + |exact * (otherExact - other)| := abs_add_le _ _
      _ = |approximate - exact| * otherExact + exact * |other - otherExact| := by
          rw [abs_mul, abs_mul, abs_of_pos otherPositive, abs_of_nonneg notNegative,
            abs_sub_comm other]
      _ ≤ error * exact * otherExact + exact * (otherError * otherExact) :=
          add_le_add (mul_le_mul_of_nonneg_right isClose (le_of_lt otherPositive))
            (mul_le_mul_of_nonneg_left otherIsClose notNegative)
      _ = (error + otherError) * exact * otherExact := by ring
  unfold IsClose
  rw [isQuotient, abs_div, abs_of_pos (mul_pos isPositive otherPositive)]
  calc |(approximate - exact) * otherExact + exact * (otherExact - other)| / (other * otherExact)
      ≤ (error + otherError) * exact * otherExact / (other * otherExact) :=
        div_le_div_of_nonneg_right isNumerator (le_of_lt (mul_pos isPositive otherPositive))
    _ = (error + otherError) * exact / other :=
        mul_div_mul_right _ _ (ne_of_gt otherPositive)
    _ ≤ (error + otherError) * exact / ((1 - otherError) * otherExact) :=
        div_le_div_of_nonneg_left (mul_nonneg errorNotNegative notNegative) isLow
          otherIsClose.mul_le
    _ = (error + otherError) / (1 - otherError) * (exact / otherExact) := by
        rw [div_mul_div_comm]

end IsClose

/-! ## Doubles -/

namespace Double

variable {value left right : Double} {sign : Bool} {numerator denominator number : Nat}

/-- The magnitude of a double. -/
def magnitude (value : Double) : ℚ := value.units / 2 ^ unitExponent

/-- The largest error of a rounding relative to what is rounded. -/
def roundoff : ℚ := 1 / 2 ^ 53

/-- The distance between the least doubles. -/
def leastStep : ℚ := 1 / 2 ^ unitExponent

theorem magnitude_nonneg (value : Double) : 0 ≤ value.magnitude := by
  unfold magnitude
  positivity

theorem roundoff_pos : 0 < roundoff := by
  unfold roundoff
  positivity

theorem leastStep_pos : 0 < leastStep := by
  unfold leastStep
  positivity

theorem magnitude_error (positive : 0 < denominator)
    (isNearest : nearest? sign numerator denominator = some value) :
    |value.magnitude - numerator / denominator| ≤
      max (leastStep / 2) (roundoff * (numerator / denominator)) := by
  have isPositive : (0 : ℚ) < 2 ^ unitExponent := by positivity
  have error := error_le positive isNearest
  have isUnits : (value.units : ℚ) = value.magnitude * 2 ^ unitExponent := by
    rw [magnitude, div_mul_cancel₀ _ (ne_of_gt isPositive)]
  rw [quotientUnits_eq_mul, isUnits, ← sub_mul, abs_mul, abs_of_pos isPositive] at error
  have isHalf : leastStep / 2 * 2 ^ unitExponent = 1 / 2 := by
    rw [leastStep]
    field_simp
  have isPart : roundoff * ((numerator : ℚ) / denominator) * 2 ^ unitExponent =
      numerator / denominator * 2 ^ unitExponent / 2 ^ 53 := by
    rw [roundoff]
    ring
  apply le_of_mul_le_mul_right _ isPositive
  rw [max_mul_of_nonneg _ _ (le_of_lt isPositive), isHalf, isPart]
  exact error

/-- What is not less than one is rounded with a small relative error. -/
theorem isClose_of_one_le (positive : 0 < denominator) (notSmall : denominator ≤ numerator)
    (isNearest : nearest? sign numerator denominator = some value) :
    IsClose roundoff value.magnitude (numerator / denominator) := by
  refine le_trans (magnitude_error positive isNearest) (max_le ?_ (le_refl _))
  have atLeastOne : (1 : ℚ) ≤ numerator / denominator := by
    rw [one_le_div (Nat.cast_pos.mpr positive)]
    exact_mod_cast notSmall
  have isSmall : leastStep / 2 ≤ roundoff := by
    rw [leastStep, roundoff, div_div, ← pow_succ]
    apply one_div_le_one_div_of_le (by positivity)
    exact pow_le_pow_right₀ (by norm_num) (by decide)
  have isPositive := roundoff_pos
  nlinarith

theorem isClose_of_ofNat? (positive : 0 < number) (isNearest : ofNat? number = some value) :
    IsClose roundoff value.magnitude number := by
  have isClose := isClose_of_one_le Nat.one_pos positive isNearest
  rw [Nat.cast_one, div_one] at isClose
  exact isClose

/-- The quotient that is rounded when doubles are multiplied. -/
theorem times_quotient (left right : Double) :
    ((left.units * right.units : ℕ) : ℚ) / (1 <<< (2 * unitExponent) : ℕ) =
      left.magnitude * right.magnitude := by
  rw [Nat.shiftLeft_eq, Nat.one_mul, magnitude, magnitude, div_mul_div_comm, ← pow_add, ← two_mul]
  push_cast
  rfl

/-- The quotient that is rounded when doubles are divided. -/
theorem over_quotient (left right : Double) :
    (left.units : ℚ) / right.units = left.magnitude / right.magnitude := by
  rw [magnitude, magnitude, div_div_div_cancel_right₀ (by positivity)]

end Double

/-! ## Scaled digits -/

namespace Json.Numeral

open Double (nearest? roundoff roundoff_pos leastStep leastStep_pos unitExponent magnitude
  magnitude_nonneg isClose_of_ofNat?)

variable {value read : Double} {digits power : Nat} {exponent : Int}

theorem isClose_powerOfTen (isSmall : power ≤ largestPower) :
    IsClose roundoff (powerOfTen power).magnitude (10 ^ power) := by
  have isClose := isClose_of_ofNat? (Nat.pow_pos (by decide)) (ofNat?_pow isSmall)
  rw [Nat.cast_pow, Nat.cast_ofNat] at isClose
  exact isClose

/-- The largest power of ten that is a double. -/
def exactPower : Nat := 22

/-- A number of 53 bits is rounded to itself, and so is what it gives with a power of two. -/
theorem units_of_ofNat? {count power : Nat} (few : count < 2 ^ 53)
    (isNearest : Double.ofNat? (count * 2 ^ power) = some value) :
    value.units = count * 2 ^ power * 2 ^ unitExponent := by
  rw [Double.units_of_nearest? isNearest, Nat.shiftLeft_eq, Nat.mul_assoc, ← Nat.pow_add,
    Double.roundedUnits_eq_self few]

theorem units_powerOfTen (isExact : power ≤ exactPower) :
    (powerOfTen power).units = 10 ^ power * 2 ^ unitExponent := by
  have isProduct : 10 ^ power = 5 ^ power * 2 ^ power := by rw [← Nat.mul_pow]
  have isNearest := ofNat?_pow (Nat.le_trans isExact (show exactPower ≤ largestPower by decide))
  rw [isProduct] at isNearest ⊢
  apply units_of_ofNat? _ isNearest
  calc 5 ^ power ≤ 5 ^ exactPower := Nat.pow_le_pow_right (by decide) isExact
    _ < 2 ^ 53 := by decide

/-- The number that is rounded last errs from another one by no more than the digits, the powers of
ten and a quotient of these. -/
def IsRoundedFrom (value : Double) (exact : ℚ) : Prop :=
  ∃ sign numerator denominator, 0 < denominator ∧
    nearest? sign numerator denominator = some value ∧
    |(numerator : ℚ) / denominator - exact| ≤ leastStep / 20 + 25 / 8 * roundoff * exact

theorem isRoundedFrom_of_isClose {sign : Bool} {numerator denominator : Nat} {exact error : ℚ}
    (positive : 0 < denominator) (isNearest : nearest? sign numerator denominator = some value)
    (isClose : IsClose error (numerator / denominator) exact)
    (isSmall : error ≤ 25 / 8 * roundoff) (notNegative : 0 ≤ exact) :
    IsRoundedFrom value exact := by
  refine ⟨sign, numerator, denominator, positive, isNearest, ?_⟩
  have isStep := leastStep_pos
  have isLess := isClose.mono isSmall notNegative
  unfold IsClose at isLess
  linarith

theorem isZero_eq_false_of_isClose (positive : 0 < digits)
    (isClose : IsClose roundoff value.magnitude digits) : value.isZero = false := by
  cases isZero : value.isZero with
  | false => rfl
  | true =>
      have noSignificand : value.significand = 0 := of_decide_eq_true isZero
      have noMagnitude : value.magnitude = 0 := by
        rw [magnitude, Double.units_eq, noSignificand]
        simp
      have isPositive : (0 : ℚ) < digits := Nat.cast_pos.mpr positive
      have notBelow := isClose.mul_le
      rw [noMagnitude, roundoff] at notBelow
      norm_num at notBelow
      linarith

theorem isRoundedFrom_multiplied? (positive : 0 < digits)
    (isClose : IsClose roundoff value.magnitude digits)
    (isMultiplied : multiplied? value power = some read) :
    IsRoundedFrom read (digits * 10 ^ power) := by
  unfold multiplied? at isMultiplied
  split at isMultiplied
  next isSmall =>
    apply isRoundedFrom_of_isClose (by decide) isMultiplied _ _ (by positivity)
    · exact roundoff * (1 + roundoff) + roundoff
    · rw [Double.times_quotient]
      exact isClose.mul (isClose_powerOfTen isSmall) (Nat.cast_nonneg _) (magnitude_nonneg _)
    · norm_num [roundoff]
  next =>
    rw [isZero_eq_false_of_isClose positive isClose] at isMultiplied
    cases isMultiplied

/-- The error of a quotient of two numbers that have been rounded. -/
theorem isClose_over (isClose : IsClose roundoff value.magnitude digits)
    (isSmall : power ≤ largestPower) :
    IsClose (33 / 16 * roundoff) ((value.units : ℚ) / (powerOfTen power).units)
      (digits / 10 ^ power) := by
  rw [Double.over_quotient]
  apply IsClose.mono _ _ (by positivity)
  · exact (roundoff + roundoff) / (1 - roundoff)
  · exact isClose.div (isClose_powerOfTen isSmall) (Nat.cast_nonneg _) (by positivity)
      (by norm_num [roundoff]) (by norm_num [roundoff])
  · norm_num [roundoff]

theorem units_powerOfTen_pos (isSmall : power ≤ largestPower) : 0 < (powerOfTen power).units :=
  Nat.lt_of_lt_of_le (by decide) (one_le_units_powerOfTen isSmall)

theorem magnitude_powerOfTen (isExact : power ≤ exactPower) :
    (powerOfTen power).magnitude = 10 ^ power := by
  rw [magnitude, units_powerOfTen isExact]
  push_cast
  rw [mul_div_cancel_right₀ _ (by positivity)]

/-- After the first of two divisions, the error is one rounding more. -/
theorem error_of_over? (isClose : IsClose roundoff value.magnitude digits)
    (isSmall : power ≤ largestPower) (isOver : value.over? (powerOfTen power) = some read) :
    |read.magnitude - digits / 10 ^ power| ≤
      leastStep / 2 + 25 / 8 * roundoff * (digits / 10 ^ power) := by
  have near := isClose_over isClose isSmall
  have error := Double.magnitude_error (units_powerOfTen_pos isSmall) isOver
  have upper := near.le_mul
  have triangle := abs_sub_le read.magnitude ((value.units : ℚ) / (powerOfTen power).units)
    (digits / 10 ^ power)
  have notNegative : (0 : ℚ) ≤ digits / 10 ^ power := by positivity
  unfold IsClose at near
  generalize (value.units : ℚ) / (powerOfTen power).units = quotient at *
  generalize (digits : ℚ) / 10 ^ power = exact at *
  have rounding : max (leastStep / 2) (roundoff * quotient) ≤
      leastStep / 2 + 17 / 16 * roundoff * exact := by
    have isStep := leastStep_pos
    have isPart : roundoff * quotient ≤ 17 / 16 * roundoff * exact :=
      calc roundoff * quotient ≤ roundoff * ((1 + 33 / 16 * roundoff) * exact) :=
            mul_le_mul_of_nonneg_left upper (le_of_lt roundoff_pos)
        _ ≤ roundoff * (17 / 16 * exact) :=
            mul_le_mul_of_nonneg_left
              (mul_le_mul_of_nonneg_right (by norm_num [roundoff]) notNegative)
              (le_of_lt roundoff_pos)
        _ = 17 / 16 * roundoff * exact := by ring
    have isPartPositive : 0 ≤ 17 / 16 * roundoff * exact :=
      mul_nonneg (mul_nonneg (by norm_num) (le_of_lt roundoff_pos)) notNegative
    exact max_le (by linarith) (by linarith)
  linarith

theorem isRoundedFrom_divided? (positive : 0 < digits)
    (isClose : IsClose roundoff value.magnitude digits)
    (notFine : power ≤ largestPower + exactPower)
    (isDivided : divided? value power = some read) :
    IsRoundedFrom read (digits / 10 ^ power) := by
  unfold divided? at isDivided
  split at isDivided
  next isSmall =>
    exact isRoundedFrom_of_isClose (units_powerOfTen_pos isSmall) isDivided
      (isClose_over isClose isSmall) (by norm_num [roundoff]) (by positivity)
  next notSmall =>
    rw [isZero_eq_false_of_isClose positive isClose, if_neg Bool.false_ne_true] at isDivided
    rcases Option.bind_eq_some_iff.mp isDivided with ⟨next, isNext, isLast⟩
    -- Of two divisions the first goes into the bound on the quotient, the second is the rounding.
    have error := error_of_over? isClose (Nat.le_refl _) isNext
    rcases Nat.exists_eq_add_of_lt (Nat.lt_of_not_le notSmall) with ⟨rest, isPower⟩
    have isRest : power - largestPower = rest + 1 := by omega
    have isExact : rest + 1 ≤ exactPower := by omega
    have isSmall : rest + 1 ≤ largestPower :=
      Nat.le_trans isExact (show exactPower ≤ largestPower by decide)
    rw [isRest, divided?, if_pos isSmall] at isLast
    refine ⟨_, _, _, units_powerOfTen_pos isSmall, isLast, ?_⟩
    have isSplit : (digits : ℚ) / 10 ^ power = digits / 10 ^ largestPower / 10 ^ (rest + 1) := by
      rw [div_div, ← pow_add, isPower, Nat.add_assoc]
    have isPositive : (0 : ℚ) < 10 ^ (rest + 1) := by positivity
    have atLeastTen : (10 : ℚ) ≤ 10 ^ (rest + 1) := le_self_pow₀ (by norm_num) (Nat.succ_ne_zero _)
    rw [Double.over_quotient, magnitude_powerOfTen isExact, isSplit, ← sub_div, abs_div,
      abs_of_pos isPositive, div_le_iff₀ isPositive]
    generalize (digits : ℚ) / 10 ^ largestPower = exact at *
    generalize (10 : ℚ) ^ (rest + 1) = divisor at *
    calc |next.magnitude - exact| ≤ leastStep / 2 + 25 / 8 * roundoff * exact := error
      _ ≤ leastStep / 20 * divisor + 25 / 8 * roundoff * exact := by
          -- The second divisor is at least ten, so little of half a step is left.
          have isStep := leastStep_pos
          nlinarith
      _ = (leastStep / 20 + 25 / 8 * roundoff * (exact / divisor)) * divisor := by
          field_simp

/-- Digits that are scaled by a power of ten are rounded from nearly the product. -/
theorem isRoundedFrom_scaled? (positive : 0 < digits)
    (notFine : -((largestPower + exactPower : ℕ) : Int) ≤ exponent)
    (isScaled : scaled? digits exponent = some read) :
    IsRoundedFrom read (digits * 10 ^ exponent) := by
  rcases Option.bind_eq_some_iff.mp isScaled with ⟨value, isValue, isRead⟩
  have isClose := isClose_of_ofNat? positive isValue
  cases exponent with
  | ofNat power =>
      rw [Int.ofNat_eq_natCast, zpow_natCast]
      exact isRoundedFrom_multiplied? positive isClose isRead
  | negSucc power =>
      rw [zpow_negSucc, ← div_eq_mul_inv]
      exact isRoundedFrom_divided? positive isClose (by omega) isRead

/-! ## Signs -/

theorem powerOfTen_negative (power : Nat) : (powerOfTen power).negative = false := by
  unfold powerOfTen
  cases isNearest : Double.ofNat? (Nat.pow 10 power) with
  | none => rfl
  | some value => exact Double.negative_of_nearest? isNearest

theorem over?_negative (isOver : value.over? (powerOfTen power) = some read) :
    read.negative = value.negative := by
  rw [Double.negative_of_nearest? isOver, powerOfTen_negative, Bool.bne_false]

theorem divided?_negative (isDivided : divided? value power = some read) :
    read.negative = value.negative := by
  fun_induction divided? value power with
  | case1 => exact over?_negative isDivided
  | case2 => rw [Option.some.inj isDivided]
  | case3 value power notSmall notZero fromNext =>
      rcases Option.bind_eq_some_iff.mp isDivided with ⟨next, isNext, isLast⟩
      rw [fromNext next isLast, over?_negative isNext]

theorem multiplied?_negative (isMultiplied : multiplied? value power = some read) :
    read.negative = value.negative := by
  unfold multiplied? at isMultiplied
  split at isMultiplied
  · rw [Double.negative_of_nearest? isMultiplied, powerOfTen_negative, Bool.bne_false]
  · split at isMultiplied
    · rw [Option.some.inj isMultiplied]
    · cases isMultiplied

theorem scaled?_negative (isScaled : scaled? digits exponent = some read) :
    read.negative = false := by
  rcases Option.bind_eq_some_iff.mp isScaled with ⟨value, isValue, isRead⟩
  rw [← Double.negative_of_nearest? isValue]
  cases exponent with
  | ofNat power => exact multiplied?_negative isRead
  | negSucc power => exact divided?_negative isRead

/-! ## Exact operands -/

/-- If the digits and the power of ten are doubles, the double nearest to the scaled digits is
read. -/
theorem scaled?_eq_nearest? (isValue : Double.ofNat? digits = some value)
    (isExact : value.units = digits * 2 ^ unitExponent) (notLow : -exactPower ≤ exponent)
    (notHigh : exponent ≤ exactPower) :
    scaled? digits exponent = nearest? false (⟨digits, exponent⟩ : Decimal).quotient.1
      (⟨digits, exponent⟩ : Decimal).quotient.2 := by
  have notNegative : value.negative = false := Double.negative_of_nearest? isValue
  -- Both operands are exact, so the product or the quotient is rounded once.
  rw [scaled?, isValue]
  cases exponent with
  | ofNat power =>
      have isSmall : power ≤ exactPower := Int.ofNat_le.mp notHigh
      show multiplied? value power = _
      rw [multiplied?, if_pos (Nat.le_trans isSmall (by decide)), Double.times?, notNegative,
        powerOfTen_negative, isExact, units_powerOfTen isSmall]
      apply Double.nearest?_congr _ (by decide) Nat.one_pos
      rw [Nat.shiftLeft_eq, Nat.two_mul, Nat.pow_add]
      show _ = digits * 10 ^ power * _
      ring
  | negSucc power =>
      have isSmall : power + 1 ≤ exactPower := by omega
      show divided? value (power + 1) = _
      rw [divided?, if_pos (Nat.le_trans isSmall (by decide)), Double.over?, notNegative,
        powerOfTen_negative, isExact, units_powerOfTen isSmall]
      apply Double.nearest?_congr
      · exact Nat.mul_pos (Nat.pow_pos (by decide)) (Nat.two_pow_pos _)
      · exact Decimal.quotient_pos _
      · show _ * 10 ^ (power + 1) = digits * _
        ring

end Json.Numeral

end TwinSwarm
