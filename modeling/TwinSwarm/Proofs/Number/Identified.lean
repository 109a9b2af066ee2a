import Mathlib.Algebra.Order.Field.Power
import TwinSwarm.Proofs.Number.Magnitude
import TwinSwarm.Proofs.Number.Nearness

/-!
# The shortest decimal identifies its double

Seventeen digits always suffice: the grid of the seventeenth digit is so fine that a neighbour of
the double on it is nearer to the double than half way to any other one.  So the search for the
shortest decimal succeeds, and what it finds is read back as the double.  Where any decimal with no
more than seventeen digits is read as the double, the shortest decimal has no more digits.
-/

namespace TwinSwarm

open Double (unitExponent countingPlaces largestDigitCount)

/-! ## Decimals in units -/

/-- A step of a grid of decimals, in units of doubles. -/
def stepUnits (exponent : Int) : ℚ := 10 ^ exponent * 2 ^ unitExponent

theorem stepUnits_pos (exponent : Int) : 0 < stepUnits exponent := by
  unfold stepUnits
  positivity

theorem stepUnits_add (exponent : Int) (places : Nat) :
    stepUnits (exponent + places) = 10 ^ places * stepUnits exponent := by
  rw [stepUnits, stepUnits, zpow_add₀ (by norm_num), zpow_natCast]
  ring

theorem stepUnits_natCast (power : Nat) : stepUnits power = 10 ^ power * 2 ^ unitExponent := by
  rw [stepUnits, zpow_natCast]

theorem stepUnits_le_iff {exponent other : Int} :
    stepUnits exponent ≤ stepUnits other ↔ exponent ≤ other := by
  rw [stepUnits, stepUnits, mul_le_mul_iff_of_pos_right (by positivity),
    zpow_le_zpow_iff_right₀ (by norm_num)]

theorem stepUnits_lt_iff {exponent other : Int} :
    stepUnits exponent < stepUnits other ↔ exponent < other := by
  rw [← not_le, stepUnits_le_iff, not_le]

namespace Decimal

/-- The value of a decimal in units of doubles. -/
def units (decimal : Decimal) : ℚ := decimal.digits * stepUnits decimal.exponent

/-- A decimal as a quotient of natural numbers. -/
def quotient : Decimal → Nat × Nat
  | ⟨digits, .ofNat power⟩ => (digits * 10 ^ power, 1)
  | ⟨digits, .negSucc power⟩ => (digits, 10 ^ (power + 1))

variable {decimal : Decimal}

theorem quotient_pos (decimal : Decimal) : 0 < decimal.quotient.2 := by
  rcases decimal with ⟨digits, power | power⟩
  · exact Nat.one_pos
  · exact Nat.pow_pos (by decide)

theorem quotientUnits_quotient (decimal : Decimal) :
    Double.quotientUnits decimal.quotient.1 decimal.quotient.2 = decimal.units := by
  rcases decimal with ⟨digits, power | power⟩
  · simp only [quotient, Double.quotientUnits, units, stepUnits, Int.ofNat_eq_natCast, zpow_natCast]
    push_cast
    ring
  · simp only [quotient, Double.quotientUnits, units, stepUnits, zpow_negSucc]
    push_cast
    rw [div_eq_mul_inv]
    ring

/-- The decimal exponent of the first digit. -/
def leading (decimal : Decimal) : Int :=
  (Double.digitCount decimal.digits : Int) - 1 + decimal.exponent

end Decimal

namespace Double

variable {value : Double} {decimal : Decimal} {exponent : Int}

/-- A decimal that is neither very large nor very small is rounded as the quotient that it is. -/
theorem ofDecimal?_eq (decimal : Decimal) (sign : Bool) (positive : 0 < decimal.digits)
    (notLow : -exponentMargin ≤ decimal.leading) (notHigh : decimal.leading ≤ exponentMargin) :
    ofDecimal? sign decimal.digits decimal.exponent =
      nearest? sign decimal.quotient.1 decimal.quotient.2 := by
  rcases decimal with ⟨digits, exponent⟩
  simp only [Decimal.leading] at notLow notHigh
  simp only [ofDecimal?]
  rw [if_neg (Nat.ne_of_gt positive), if_neg (by omega), if_neg (by omega)]
  cases exponent <;> rfl

/-- A decimal is rounded as the quotient that it is, or it is too small. -/
theorem ofDecimal?_cases (decimal : Decimal) {sign : Bool}
    (isDecimal : ofDecimal? sign decimal.digits decimal.exponent = some value) :
    (value = zero sign ∧ (decimal.digits = 0 ∨ decimal.leading < -exponentMargin)) ∨
      nearest? sign decimal.quotient.1 decimal.quotient.2 = some value := by
  rcases decimal with ⟨digits, exponent⟩
  simp only [ofDecimal?] at isDecimal
  split at isDecimal
  next noDigits => exact .inl ⟨(Option.some.inj isDecimal).symm, .inl noDigits⟩
  · split at isDecimal
    · cases isDecimal
    · split at isDecimal
      next low => exact .inl ⟨(Option.some.inj isDecimal).symm, .inr low⟩
      · right
        cases exponent <;> exact isDecimal

theorem nearest?_of_isReadFrom (notZero : value.isZero = false)
    (isRead : value.isReadFrom decimal = true) :
    nearest? value.negative decimal.quotient.1 decimal.quotient.2 = some value := by
  rcases ofDecimal?_cases decimal (of_decide_eq_true isRead) with ⟨isZero, _⟩ | isNearest
  · rw [isZero] at notZero
    cases notZero
  · exact isNearest

/-! ## Neighbours on a grid -/

/-- The number of whole steps of a grid in a double. -/
def wholeSteps (value : Double) (exponent : Int) : Nat :=
  (value.inSteps exponent).1 / (value.inSteps exponent).2

theorem inSteps_pos (value : Double) (exponent : Int) : 0 < (value.inSteps exponent).2 := by
  cases exponent with
  | ofNat power => exact shiftLeft_pos (Nat.pow_pos (by decide)) _
  | negSucc power => exact shiftLeft_pos Nat.one_pos _

theorem inSteps_mul_stepUnits (value : Double) (exponent : Int) :
    ((value.inSteps exponent).1 : ℚ) / (value.inSteps exponent).2 * stepUnits exponent =
      value.units := by
  have notZero : (((value.inSteps exponent).2 : ℕ) : ℚ) ≠ 0 :=
    Nat.cast_ne_zero.mpr (Nat.ne_of_gt (value.inSteps_pos exponent))
  rw [div_mul_eq_mul_div, div_eq_iff notZero]
  cases exponent with
  | ofNat power =>
      simp only [inSteps, stepUnits, Nat.shiftLeft_eq, Nat.pow_eq, Int.ofNat_eq_natCast,
        zpow_natCast]
      push_cast
      ring
  | negSucc power =>
      simp only [inSteps, stepUnits, Nat.shiftLeft_eq, Nat.pow_eq, zpow_negSucc]
      push_cast
      field_simp

theorem wholeSteps_le (value : Double) (exponent : Int) :
    value.wholeSteps exponent * stepUnits exponent ≤ value.units := by
  rw [← value.inSteps_mul_stepUnits exponent]
  exact mul_le_mul_of_nonneg_right Nat.cast_div_le (le_of_lt (stepUnits_pos exponent))

theorem lt_wholeSteps (value : Double) (exponent : Int) :
    (value.units : ℚ) < (value.wholeSteps exponent + 1) * stepUnits exponent := by
  rw [← value.inSteps_mul_stepUnits exponent]
  apply mul_lt_mul_of_pos_right _ (stepUnits_pos exponent)
  have isPositive : (0 : ℚ) < (value.inSteps exponent).2 :=
    Nat.cast_pos.mpr (value.inSteps_pos exponent)
  rw [div_lt_iff₀ isPositive, mul_comm]
  exact_mod_cast Nat.lt_mul_div_succ (value.inSteps exponent).1 (value.inSteps_pos exponent)

/-- The leading exponent is that of the first digit. -/
theorem leading_bounds (notZero : value.isZero = false) :
    stepUnits value.leadingExponent ≤ value.units ∧
      value.units < stepUnits (value.leadingExponent + 1) := by
  have lower := leading_le_units notZero
  have upper := value.units_lt_leading
  have isLeading : value.leadingExponent =
      (digitCount (value.units * 10 ^ countingPlaces / 2 ^ unitExponent) : Int) - 1 -
        countingPlaces := by
    rw [leadingExponent, Nat.shiftRight_eq_div_pow, Nat.pow_eq]
  have someDigit : 0 < digitCount (value.units * 10 ^ countingPlaces / 2 ^ unitExponent) :=
    Nat.length_toDigits_pos
  rw [isLeading]
  generalize digitCount (value.units * 10 ^ countingPlaces / 2 ^ unitExponent) = count at *
  -- Both bounds are counted in the places that the leading exponent was counted in.
  have isPositive : (0 : ℚ) < 10 ^ countingPlaces := by positivity
  have counted {exponent : Int} (power : Nat) (isPower : exponent + countingPlaces = power) :
      10 ^ countingPlaces * stepUnits exponent = 10 ^ power * 2 ^ unitExponent := by
    rw [← stepUnits_add, isPower, stepUnits_natCast]
  constructor
  · apply le_of_mul_le_mul_left _ isPositive
    rw [counted (count - 1) (by omega), mul_comm _ (value.units : ℚ)]
    exact_mod_cast lower
  · apply lt_of_mul_lt_mul_left _ (le_of_lt isPositive)
    rw [counted count (by omega), mul_comm _ (value.units : ℚ)]
    exact_mod_cast upper

theorem units_pos (notZero : value.isZero = false) : 0 < value.units := by
  rw [units_eq]
  apply Nat.mul_pos _ (Nat.two_pow_pos _)
  simpa [isZero, Nat.pos_iff_ne_zero] using notZero

/-- The number of decimal places at which a step is less than the least positive double. -/
def finestPlaces : Nat := 324

theorem stepUnits_finestPlaces : stepUnits (-finestPlaces) < 1 := by
  have isLess : 2 ^ unitExponent < 10 ^ finestPlaces := by
    have isSixth : unitExponent = 179 * 6 ∧ finestPlaces = 54 * 6 := ⟨rfl, rfl⟩
    rw [isSixth.1, isSixth.2, Nat.pow_mul, Nat.pow_mul]
    exact Nat.pow_lt_pow_left (by decide) (by decide)
  have isSum := stepUnits_add (-finestPlaces) finestPlaces
  rw [neg_add_cancel, stepUnits, zpow_zero, one_mul] at isSum
  have isPositive : (0 : ℚ) < 10 ^ finestPlaces := by positivity
  apply lt_of_mul_lt_mul_left _ (le_of_lt isPositive)
  rw [← isSum, mul_one]
  exact_mod_cast isLess

theorem le_leadingExponent (notZero : value.isZero = false) :
    -finestPlaces ≤ value.leadingExponent := by
  have isPositive : (1 : ℚ) ≤ value.units := by exact_mod_cast units_pos notZero
  have isBetween : stepUnits (-finestPlaces) < stepUnits (value.leadingExponent + 1) :=
    lt_trans (lt_of_lt_of_le stepUnits_finestPlaces isPositive) (leading_bounds notZero).2
  exact Int.lt_add_one_iff.mp (stepUnits_lt_iff.mp isBetween)

theorem leadingExponent_le (notZero : value.isZero = false) : value.leadingExponent ≤ 308 := by
  have low : value.units < 10 ^ 309 * 2 ^ unitExponent :=
    calc value.units ≤ largest.units := value.units_le_largest
      _ < upperBound * 2 ^ unitExponent := upperBound_between.2.2.1
      _ ≤ 10 ^ 309 * 2 ^ unitExponent := Nat.mul_le_mul_right _ upperBound_between.2.1
  have isBetween : stepUnits value.leadingExponent < stepUnits (309 : ℕ) := by
    refine lt_of_le_of_lt (leading_bounds notZero).1 ?_
    rw [stepUnits_natCast]
    exact_mod_cast low
  exact Int.lt_add_one_iff.mp (stepUnits_lt_iff.mp isBetween)

/-- The step above a double is still below the power of ten behind its first digit. -/
theorem succ_wholeSteps_le (notZero : value.isZero = false)
    (fine : exponent ≤ value.leadingExponent + 1) :
    (value.wholeSteps exponent + 1) * stepUnits exponent ≤
      stepUnits (value.leadingExponent + 1) := by
  rcases Int.eq_ofNat_of_zero_le (Int.sub_nonneg_of_le fine) with ⟨places, isPlaces⟩
  have isSum : value.leadingExponent + 1 = exponent + places := by omega
  have isBelow :
      value.wholeSteps exponent * stepUnits exponent < 10 ^ places * stepUnits exponent :=
    calc value.wholeSteps exponent * stepUnits exponent ≤ value.units :=
          value.wholeSteps_le exponent
      _ < stepUnits (value.leadingExponent + 1) := (leading_bounds notZero).2
      _ = 10 ^ places * stepUnits exponent := by rw [isSum, stepUnits_add]
  have isLess : value.wholeSteps exponent < 10 ^ places := by
    exact_mod_cast lt_of_mul_lt_mul_right isBelow (le_of_lt (stepUnits_pos exponent))
  rw [isSum, stepUnits_add]
  apply mul_le_mul_of_nonneg_right _ (le_of_lt (stepUnits_pos exponent))
  exact_mod_cast isLess

end Double

theorem Decimal.stepUnits_leading_le {decimal : Decimal} (positive : 0 < decimal.digits) :
    stepUnits decimal.leading ≤ decimal.units := by
  have someDigit : 0 < Double.digitCount decimal.digits := Nat.length_toDigits_pos
  have isSum : decimal.leading = decimal.exponent + (Double.digitCount decimal.digits - 1 : ℕ) := by
    rw [leading]
    omega
  rw [isSum, stepUnits_add, units]
  apply mul_le_mul_of_nonneg_right _ (le_of_lt (stepUnits_pos _))
  exact_mod_cast Double.pow_le_of_digitCount positive

theorem Decimal.units_lt (decimal : Decimal) : decimal.units < stepUnits (decimal.leading + 1) := by
  have low : decimal.digits < 10 ^ Double.digitCount decimal.digits :=
    (Nat.length_toDigits_le_iff (by decide) Nat.length_toDigits_pos).mp (Nat.le_refl _)
  have isSum : decimal.leading + 1 = decimal.exponent + Double.digitCount decimal.digits := by
    rw [leading]
    omega
  rw [isSum, stepUnits_add, units]
  apply mul_lt_mul_of_pos_right _ (stepUnits_pos _)
  exact_mod_cast low

namespace Double

variable {value : Double} {decimal : Decimal} {exponent : Int} {sign : Bool}

/-- No double is nearer to a number of less than half a unit than zero. -/
theorem zero_nearest {exact : ℚ} (notNegative : 0 ≤ exact) (low : exact < 1 / 2) (other : Double) :
    |((zero sign).units : ℚ) - exact| ≤ |(other.units : ℚ) - exact| := by
  have noUnits : (zero sign).units = 0 := rfl
  rw [noUnits, Nat.cast_zero, zero_sub, abs_neg, abs_of_nonneg notNegative]
  rcases Nat.eq_zero_or_pos other.units with isZero | positive
  · rw [isZero, Nat.cast_zero, zero_sub, abs_neg]
    exact le_abs_self _
  · have atLeastOne : (1 : ℚ) ≤ other.units := by exact_mod_cast positive
    rw [abs_of_nonneg (by linarith)]
    linarith

/-- No double is nearer to a decimal than the one as which it is read. -/
theorem ofDecimal?_nearest
    (isDecimal : ofDecimal? sign decimal.digits decimal.exponent = some value) (other : Double) :
    |(value.units : ℚ) - decimal.units| ≤ |(other.units : ℚ) - decimal.units| := by
  have notNegative : 0 ≤ decimal.units :=
    mul_nonneg (Nat.cast_nonneg _) (le_of_lt (stepUnits_pos _))
  rcases ofDecimal?_cases decimal isDecimal with ⟨rfl, noDigits | low⟩ | isNearest
  · apply zero_nearest notNegative
    rw [Decimal.units, noDigits, Nat.cast_zero, zero_mul]
    norm_num
  · apply zero_nearest notNegative
    have isTenth := stepUnits_add (-finestPlaces - 1) 1
    rw [Nat.cast_one, sub_add_cancel, pow_one] at isTenth
    have finest := stepUnits_finestPlaces
    have below : stepUnits (decimal.leading + 1) ≤ stepUnits (-finestPlaces - 1) := by
      apply stepUnits_le_iff.mpr
      rw [exponentMargin] at low
      rw [finestPlaces]
      omega
    have isLess := decimal.units_lt
    linarith
  · rw [units_of_nearest? isNearest, ← Decimal.quotientUnits_quotient, quotientUnits_eq]
    exact roundedUnits_nearest _ decimal.quotient_pos other.units_isRepresented

theorem isReadFrom_of_near (positive : 0 < decimal.digits)
    (notLow : -exponentMargin ≤ decimal.leading) (notHigh : decimal.leading ≤ exponentMargin)
    (near : ∀ other, IsRepresented other → other ≠ value.units →
      2 * |(value.units : ℚ) - decimal.units| < |(other : ℚ) - value.units|) :
    value.isReadFrom decimal = true := by
  apply decide_eq_true
  rw [ofDecimal?_eq decimal _ positive notLow notHigh]
  apply nearest?_eq_of_near decimal.quotient_pos
  rw [decimal.quotientUnits_quotient]
  exact near

theorem isSome_onGrid?_iff : (value.onGrid? exponent).isSome ↔
    value.isReadFrom ⟨value.wholeSteps exponent, exponent⟩ = true ∨
      value.isReadFrom ⟨value.wholeSteps exponent + 1, exponent⟩ = true := by
  simp only [onGrid?, wholeSteps]
  split <;> simp_all

/-- A step of the grid is less than the distance of the double from any other one. -/
def IsFine (value : Double) (exponent : Int) : Prop :=
  ∀ other, IsRepresented other → other ≠ value.units →
    stepUnits exponent < |(other : ℚ) - value.units|

theorem isFine_of_lt_one (low : stepUnits exponent < 1) : value.IsFine exponent := by
  intro other _ different
  refine lt_of_lt_of_le low ?_
  have apart : (1 : ℤ) ≤ |(other : ℤ) - value.units| := Int.one_le_abs (by omega)
  exact_mod_cast apart

theorem isFine_of_lt (low : 2 ^ 53 * stepUnits exponent < value.units) : value.IsFine exponent := by
  intro other isRepresented different
  have apart := value.units_isRepresented.le_mul_distance isRepresented different
  linarith

theorem isFine_seventeenth (notZero : value.isZero = false) :
    value.IsFine (value.leadingExponent - 16) := by
  apply isFine_of_lt
  refine lt_of_lt_of_le ?_ (leading_bounds notZero).1
  have isSum := stepUnits_add (value.leadingExponent - 16) 16
  rw [Nat.cast_ofNat, Int.sub_add_cancel] at isSum
  rw [isSum]
  exact mul_lt_mul_of_pos_right (by norm_num) (stepUnits_pos _)

theorem leading_ge (decimal : Decimal) : decimal.exponent ≤ decimal.leading := by
  have someDigit : 0 < digitCount decimal.digits := Nat.length_toDigits_pos
  rw [Decimal.leading]
  omega

/-- The neighbours of a double on a grid are neither very large nor very small. -/
theorem leading_le_of_neighbour {digits : Nat} (notZero : value.isZero = false)
    (notHigh : exponent ≤ value.leadingExponent) (positive : 0 < digits)
    (isNeighbour : digits ≤ value.wholeSteps exponent + 1) :
    (⟨digits, exponent⟩ : Decimal).leading ≤ exponentMargin := by
  have leadingHigh := leadingExponent_le notZero
  have below : stepUnits (⟨digits, exponent⟩ : Decimal).leading ≤
      stepUnits (value.leadingExponent + 1) :=
    calc stepUnits (⟨digits, exponent⟩ : Decimal).leading ≤ digits * stepUnits exponent :=
          Decimal.stepUnits_leading_le positive
      _ ≤ (value.wholeSteps exponent + 1) * stepUnits exponent :=
          mul_le_mul_of_nonneg_right (by exact_mod_cast isNeighbour) (le_of_lt (stepUnits_pos _))
      _ ≤ stepUnits (value.leadingExponent + 1) := succ_wholeSteps_le notZero (by omega)
  have leadingLow := stepUnits_le_iff.mp below
  rw [exponentMargin]
  omega

theorem wholeSteps_pos (notZero : value.isZero = false)
    (notHigh : exponent ≤ value.leadingExponent) : 0 < value.wholeSteps exponent := by
  have above : 1 * stepUnits exponent < (value.wholeSteps exponent + 1) * stepUnits exponent := by
    rw [one_mul]
    calc stepUnits exponent ≤ stepUnits value.leadingExponent := stepUnits_le_iff.mpr notHigh
      _ ≤ value.units := (leading_bounds notZero).1
      _ < (value.wholeSteps exponent + 1) * stepUnits exponent := value.lt_wholeSteps exponent
  have moreThanOne := lt_of_mul_lt_mul_right above (le_of_lt (stepUnits_pos exponent))
  have isPositive : (0 : ℚ) < value.wholeSteps exponent := by linarith
  exact_mod_cast isPositive

section Neighbours

variable (notZero : value.isZero = false) (notLow : -exponentMargin ≤ exponent)
variable (notHigh : exponent ≤ value.leadingExponent)

include notZero notLow notHigh

/-- A neighbour of the double on a fine grid is read back as the double. -/
theorem isSome_onGrid?_of_isFine (isFine : value.IsFine exponent) :
    (value.onGrid? exponent).isSome := by
  have below := value.wholeSteps_le exponent
  have above := value.lt_wholeSteps exponent
  have isRead {digits : Nat} (positive : 0 < digits)
      (isNeighbour : digits ≤ value.wholeSteps exponent + 1)
      (near : 2 * |value.units - digits * stepUnits exponent| ≤ stepUnits exponent) :
      value.isReadFrom ⟨digits, exponent⟩ = true := by
    apply isReadFrom_of_near positive (le_trans notLow (leading_ge _))
      (leading_le_of_neighbour notZero notHigh positive isNeighbour)
    intro other isRepresented different
    exact lt_of_le_of_lt near (isFine other isRepresented different)
  rw [isSome_onGrid?_iff]
  -- One of the two neighbours is at most half a step away.
  rcases le_total (2 * (value.units - value.wholeSteps exponent * stepUnits exponent))
    (stepUnits exponent) with nearBelow | nearAbove
  · left
    apply isRead (wholeSteps_pos notZero notHigh) (Nat.le_succ _)
    rw [abs_of_nonneg (by linarith)]
    exact nearBelow
  · right
    apply isRead (Nat.succ_pos _) (Nat.le_refl _)
    push_cast
    rw [abs_of_nonpos (by linarith)]
    linarith

/-- A grid with a decimal that is read as the double has such a decimal next to the double. -/
theorem isSome_onGrid?_of_isReadFrom (notFiner : exponent ≤ decimal.exponent)
    (isRead : value.isReadFrom decimal = true) : (value.onGrid? exponent).isSome := by
  rcases Int.eq_ofNat_of_zero_le (Int.sub_nonneg_of_le notFiner) with ⟨places, isPlaces⟩
  have isSum : decimal.exponent = exponent + places := by omega
  have isUnits : decimal.units = (decimal.digits * 10 ^ places : ℕ) * stepUnits exponent := by
    rw [Decimal.units, isSum, stepUnits_add]
    push_cast
    ring
  have isNearest := nearest?_of_isReadFrom notZero isRead
  have isReadBetween {digits : Nat} (positive : 0 < digits)
      (isNeighbour : digits ≤ value.wholeSteps exponent + 1)
      (isBetween : decimal.units ≤ digits * stepUnits exponent ∧
          digits * stepUnits exponent ≤ value.units ∨
        value.units ≤ digits * stepUnits exponent ∧
          digits * stepUnits exponent ≤ decimal.units) :
      value.isReadFrom ⟨digits, exponent⟩ = true := by
    apply decide_eq_true
    rw [ofDecimal?_eq ⟨digits, exponent⟩ _ positive (le_trans notLow (leading_ge _))
      (leading_le_of_neighbour notZero notHigh positive isNeighbour)]
    apply nearest?_eq_of_between decimal.quotient_pos (Decimal.quotient_pos _) isNearest
    rw [Decimal.quotientUnits_quotient, Decimal.quotientUnits_quotient]
    exact isBetween
  rw [isSome_onGrid?_iff]
  have isPositive := le_of_lt (stepUnits_pos exponent)
  -- The neighbour on the side of the decimal stands between it and the double, and what stands
  -- there is read as the double.
  rcases Nat.lt_or_ge (value.wholeSteps exponent) (decimal.digits * 10 ^ places) with more | notMore
  · right
    refine isReadBetween (Nat.succ_pos _) (Nat.le_refl _) (.inr ⟨?_, ?_⟩)
    · exact_mod_cast le_of_lt (value.lt_wholeSteps exponent)
    · rw [isUnits]
      exact mul_le_mul_of_nonneg_right (Nat.cast_le.mpr more) isPositive
  · left
    refine isReadBetween (wholeSteps_pos notZero notHigh) (Nat.le_succ _) (.inl ⟨?_, ?_⟩)
    · rw [isUnits]
      exact mul_le_mul_of_nonneg_right (Nat.cast_le.mpr notMore) isPositive
    · exact value.wholeSteps_le exponent

end Neighbours

/-! ## The shortest decimal -/

/-- The search ends no later than at a grid with a decimal. -/
theorem exists_findSome?_range {α : Type} (find : Nat → Option α) {count fewer : Nat}
    (isFew : fewer < count) (isFound : (find fewer).isSome) : ∃ earlier ≤ fewer, ∃ found,
      find earlier = some found ∧ (List.range count).findSome? find = some found := by
  rcases Nat.exists_eq_add_of_lt isFew with ⟨more, isCount⟩
  have isSplit : List.range count =
      List.range (fewer + 1) ++ (List.range more).map (fewer + 1 + ·) := by
    rw [isCount, Nat.add_right_comm, List.range_add]
  have isSome : ((List.range (fewer + 1)).findSome? find).isSome :=
    List.findSome?_isSome_iff.mpr ⟨fewer, List.mem_range.mpr (Nat.lt_succ_self fewer), isFound⟩
  rcases Option.isSome_iff_exists.mp isSome with ⟨found, isFirst⟩
  rcases List.exists_of_findSome?_eq_some isFirst with ⟨earlier, isEarlier, isThere⟩
  refine ⟨earlier, Nat.le_of_lt_succ (List.mem_range.mp isEarlier), found, isThere, ?_⟩
  rw [isSplit, List.findSome?_append, isFirst, Option.some_or]

/-- Where one of the first seventeen grids has a decimal that is read as the double, so is the
shortest decimal, and it has no more digits. -/
theorem shortest_of_isSome {fewer : Nat} (notZero : value.isZero = false)
    (isFew : fewer < largestDigitCount)
    (isFound : (value.onGrid? (value.leadingExponent - fewer)).isSome) :
    value.isReadFrom value.shortest = true ∧
      value.leadingExponent - fewer ≤ value.shortest.exponent := by
  rcases exists_findSome?_range
    (fun (fewer : Nat) => value.onGrid? (value.leadingExponent - fewer)) isFew isFound with
    ⟨earlier, isEarlier, found, isThere, isFirst⟩
  have isShortest : value.shortest = found := by
    unfold shortest
    dsimp only
    rw [if_neg (by simp [notZero]), isFirst, Option.getD_some]
  rcases onGrid?_eq_some isThere with ⟨isExponent, _, isRead⟩
  rw [isShortest, isExponent]
  exact ⟨isRead, by omega⟩

theorem isSome_onGrid?_seventeenth (notZero : value.isZero = false) :
    (value.onGrid? (value.leadingExponent - (16 : Nat))).isSome := by
  have leadingLow := le_leadingExponent notZero
  apply isSome_onGrid?_of_isFine notZero _ (by omega) (isFine_seventeenth notZero)
  rw [exponentMargin]
  rw [finestPlaces] at leadingLow
  omega

/-- The shortest decimal of a double is read as the double. -/
theorem isReadFrom_shortest (notZero : value.isZero = false) :
    value.isReadFrom value.shortest = true :=
  (shortest_of_isSome notZero (by decide) (isSome_onGrid?_seventeenth notZero)).1

/-- The shortest decimal has no digits behind the place at which steps are finer than the least
positive double. -/
theorem le_shortest_exponent (notZero : value.isZero = false) :
    -finestPlaces ≤ value.shortest.exponent := by
  have leadingLow := le_leadingExponent notZero
  rcases Int.lt_or_le (-finestPlaces) (value.leadingExponent - 16) with coarse | fine
  · have isFound := shortest_of_isSome notZero (by decide) (isSome_onGrid?_seventeenth notZero)
    exact le_trans (le_of_lt coarse) isFound.2
  · rcases Int.eq_ofNat_of_zero_le (Int.sub_nonneg_of_le leadingLow) with ⟨fewer, isFewer⟩
    have isGrid : value.leadingExponent - fewer = -finestPlaces := by omega
    have isFew : fewer < largestDigitCount := by
      rw [largestDigitCount]
      omega
    have isFound : (value.onGrid? (value.leadingExponent - fewer)).isSome := by
      rw [isGrid]
      exact isSome_onGrid?_of_isFine notZero (by decide) leadingLow
        (isFine_of_lt_one stepUnits_finestPlaces)
    rw [← isGrid]
    exact (shortest_of_isSome notZero isFew isFound).2

/-- The shortest decimal has no more places than another decimal that is read as the double, if that
one has no more than seventeen digits. -/
theorem le_shortest_exponent_of_isReadFrom (notZero : value.isZero = false)
    (isFew : value.leadingExponent - 16 ≤ decimal.exponent)
    (isRead : value.isReadFrom decimal = true) :
    min decimal.exponent value.leadingExponent ≤ value.shortest.exponent := by
  have leadingLow := le_leadingExponent notZero
  have atMost : min decimal.exponent value.leadingExponent ≤ value.leadingExponent :=
    min_le_right _ _
  rcases Int.eq_ofNat_of_zero_le (Int.sub_nonneg_of_le atMost) with ⟨fewer, isFewer⟩
  have isGrid : value.leadingExponent - fewer = min decimal.exponent value.leadingExponent := by
    omega
  have isFew : fewer < largestDigitCount := by
    rw [largestDigitCount]
    omega
  rw [← isGrid]
  apply And.right (shortest_of_isSome notZero isFew _)
  apply isSome_onGrid?_of_isReadFrom notZero _ (by omega) _ isRead
  · rw [exponentMargin]
    rw [finestPlaces] at leadingLow
    omega
  · omega

end Double

end TwinSwarm
