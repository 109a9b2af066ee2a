import TwinSwarm.Proofs.Json.Scaling
import TwinSwarm.Proofs.Json.Spelling

/-!
# How near a double is read

The reader scales the shortest decimal of a double with a few roundings, so what it reads is at
most four units in the last place from what has been written.  A double that is nearest to a decimal
with at most fifteen digits, of which at most twenty-two stand behind the point, is read as itself:
then both the digits of its shortest decimal and the power of ten are doubles.
-/

namespace TwinSwarm

namespace Double

open Json.Numeral (exactPower scaled? withSign IsRoundedFrom)

variable {value read : Double} {digits : Nat} {exponent : Int}

/-! ## What is read -/

theorem eq_zero_of_isZero (isZero : value.isZero = true) : value = zero value.negative := by
  rcases value with ⟨negative, significand, scale, canonical⟩
  have noSignificand : significand = 0 := of_decide_eq_true isZero
  subst noSignificand
  have noScale : scale = 0 := canonical.2.2.resolve_right (by decide)
  subst noScale
  rfl

theorem scaled?_zero : scaled? 0 (-1) = some (zero false) := by
  rw [Json.Numeral.scaled?_eq_nearest? (nearest?_zero false 1) (Nat.zero_mul _).symm (by decide)
    (by decide)]
  exact nearest?_zero false _

theorem zero_reads (negative : Bool) :
    (zero negative).reread? = (scaled? 0 (-1)).map (withSign negative) := by
  rw [reread?_eq_of_numeral (.zero negative) rfl (Json.Numeral.zero_isWritten negative)
    (.inl rfl) rfl]
  have fits : Nat.ofDigitChars 10 (Json.Numeral.zero negative).digits 0 ≤
      Json.Numeral.largestWord := by
    cases negative <;> decide
  exact Json.Numeral.doubleValue_eq fits rfl rfl

theorem reread?_zero (negative : Bool) : (zero negative).reread? = some (zero negative) := by
  rw [zero_reads, scaled?_zero]
  cases negative <;> rfl

/-- No double is nearer to a decimal with places behind the point than the one as which it is
read. -/
theorem magnitude_nearest {sign : Bool} {places : Nat}
    (isDecimal : ofDecimal? sign digits (-places) = some value) (other : Double) :
    |value.magnitude - digits / 10 ^ places| ≤ |other.magnitude - digits / 10 ^ places| := by
  have isPositive : (0 : ℚ) < 2 ^ unitExponent := by positivity
  have counted (value : Double) : |value.magnitude - digits / 10 ^ places| =
      |(value.units : ℚ) - (⟨digits, -places⟩ : Decimal).units| / 2 ^ unitExponent := by
    have isQuotient : value.magnitude - digits / 10 ^ places =
        ((value.units : ℚ) - (⟨digits, -places⟩ : Decimal).units) / 2 ^ unitExponent := by
      rw [sub_div, Decimal.units, stepUnits, ← mul_assoc,
        mul_div_cancel_right₀ _ (ne_of_gt isPositive), zpow_neg, zpow_natCast, ← div_eq_mul_inv,
        magnitude]
    rw [isQuotient, abs_div, abs_of_pos isPositive]
  rw [counted, counted]
  exact div_le_div_of_nonneg_right (ofDecimal?_nearest isDecimal other) (le_of_lt isPositive)

theorem ofDecimal?_negative {sign : Bool}
    (isDecimal : ofDecimal? sign digits exponent = some value) : value.negative = sign := by
  rcases ofDecimal?_cases ⟨digits, exponent⟩ isDecimal with ⟨rfl, _⟩ | isNearest
  · rfl
  · exact negative_of_nearest? isNearest

theorem withSign_units (negative : Bool) (value : Double) :
    (withSign negative value).units = value.units := by
  cases negative <;> rfl

theorem withSign_nearest? (sign : Bool) (numerator denominator : Nat) :
    (nearest? false numerator denominator).map (withSign sign) =
      nearest? sign numerator denominator := by
  unfold nearest?
  dsimp only
  split <;> cases sign <;> rfl

namespace IsSpelling

theorem positive (isSpelling : value.IsSpelling digits exponent)
    (notZero : value.isZero = false) : 0 < digits := by
  apply Nat.pos_of_ne_zero
  rintro rfl
  have isPositive : 0 < value.shortest.units :=
    mul_pos (Nat.cast_pos.mpr (shortest_digits_pos notZero)) (stepUnits_pos _)
  rw [← isSpelling.units, Nat.cast_zero, zero_mul] at isPositive
  exact lt_irrefl 0 isPositive

theorem notFine (isSpelling : value.IsSpelling digits exponent)
    (notZero : value.isZero = false) : -finestPlaces ≤ exponent := by
  rcases isSpelling.form with ⟨_, notFiner⟩ | ⟨_, isLast⟩
  · exact le_trans (le_shortest_exponent notZero) notFiner
  · rw [isLast]
    decide

end IsSpelling

/-! ## Near doubles -/

/-- The shortest decimal is not farther from its double than half a unit in the last place. -/
theorem shortest_error (notZero : value.isZero = false) :
    |(value.units : ℚ) - value.shortest.units| ≤ 2 ^ value.scale / 2 := by
  rw [← Decimal.quotientUnits_quotient]
  exact error_le_half (Decimal.quotient_pos _)
    (nearest?_of_isReadFrom notZero (isReadFrom_shortest notZero))

/-- What is rounded last, counted in units. -/
theorem exists_quotient_of_isRoundedFrom {exact : ℚ} (isRounded : IsRoundedFrom read exact) :
    ∃ quotient : ℚ, |quotient - exact * 2 ^ unitExponent| ≤
        1 / 20 + 25 / 8 / 2 ^ 53 * (exact * 2 ^ unitExponent) ∧
      |(read.units : ℚ) - quotient| ≤ max (1 / 2) (quotient / 2 ^ 53) ∧
      |(read.units : ℚ) - quotient| ≤ 2 ^ read.scale / 2 := by
  rcases isRounded with ⟨sign, numerator, denominator, positive, isNearest, near⟩
  refine ⟨quotientUnits numerator denominator, ?_, error_le positive isNearest,
    error_le_half positive isNearest⟩
  have isPositive : (0 : ℚ) < 2 ^ unitExponent := by positivity
  rw [quotientUnits_eq_mul, ← sub_mul, abs_mul, abs_of_pos isPositive]
  refine le_trans (mul_le_mul_of_nonneg_right near (le_of_lt isPositive)) (le_of_eq ?_)
  rw [roundoff, leastStep]
  field_simp

/-- How far what is found is from what was written, in steps between neighbours of the latter. -/
theorem distance_le {written scaled exact found step : ℚ} (atLeastOne : 1 ≤ step)
    (low : written ≤ (2 ^ 53 - 1) * step) (isShortest : |written - exact| ≤ step / 2)
    (isScaled : |scaled - exact| ≤ 1 / 20 + 25 / 8 / 2 ^ 53 * exact)
    (isRounded : |found - scaled| ≤ max (1 / 2) (scaled / 2 ^ 53)) :
    |found - written| < 5 * step ∧
      (|found - scaled| ≤ step / 4 → |found - written| ≤ 4 * step) := by
  have exactLow : exact ≤ 2 ^ 53 * step := by
    have lower := (abs_le.mp isShortest).1
    linarith
  have scaledNear : |scaled - exact| ≤ 16 / 5 * step := by
    refine le_trans isScaled ?_
    linarith
  have scaledLow : scaled / 2 ^ 53 ≤ 5 / 4 * step := by
    have upper := (abs_le.mp scaledNear).2
    rw [div_le_iff₀ (by norm_num)]
    linarith
  have foundNear : |found - scaled| ≤ 5 / 4 * step :=
    le_trans isRounded (max_le (by linarith) scaledLow)
  -- The errors of the shortest decimal, of the scaling and of the last rounding add up.
  have toScaled := abs_sub_le found scaled written
  have toExact := abs_sub_le scaled exact written
  rw [abs_sub_comm exact] at toExact
  constructor
  · linarith
  · intro nearer
    linarith

/-- A multiple of a step that is less than five steps is at most four steps. -/
theorem le_of_multiple {count otherCount step : Nat}
    (near : |((otherCount * step : ℕ) : ℤ) - (count * step : ℕ)| < 5 * step) :
    |((otherCount * step : ℕ) : ℤ) - (count * step : ℕ)| ≤ 4 * step := by
  push_cast at near ⊢
  rw [← sub_mul, abs_mul, abs_of_nonneg (Int.natCast_nonneg step)] at near ⊢
  have few : |(otherCount : ℤ) - count| < 5 := lt_of_mul_lt_mul_right near (Int.natCast_nonneg step)
  exact mul_le_mul_of_nonneg_right (Int.le_of_lt_add_one few) (Int.natCast_nonneg step)

/-- What is read is at most four units in the last place from what was written. -/
theorem near_of_isRoundedFrom (notZero : value.isZero = false)
    (isRounded : IsRoundedFrom read (digits * 10 ^ exponent))
    (isSpelling : digits * stepUnits exponent = value.shortest.units) :
    |(read.units : ℤ) - value.units| ≤ 4 * 2 ^ value.scale := by
  rcases exists_quotient_of_isRoundedFrom isRounded with ⟨quotient, near, error, halfError⟩
  rw [mul_assoc, ← stepUnits, isSpelling] at near
  have low : (value.units : ℚ) ≤ (2 ^ 53 - 1) * 2 ^ value.scale := by
    rw [units_eq]
    push_cast
    apply mul_le_mul_of_nonneg_right _ (by positivity)
    have significandLow : value.significand ≤ 2 ^ 53 - 1 := Nat.le_pred_of_lt value.canonical.1
    rw [le_sub_iff_add_le]
    exact_mod_cast Nat.add_le_of_le_sub (by decide) significandLow
  have distance := distance_le (one_le_pow₀ (by norm_num)) low (shortest_error notZero) near error
  rcases Nat.lt_or_ge read.scale value.scale with lower | notLower
  · -- Below a power of two the doubles are nearer to each other.
    have isQuarter : (2 : ℚ) ^ read.scale / 2 ≤ 2 ^ value.scale / 4 := by
      have isHalf : (2 : ℚ) ^ (read.scale + 1) ≤ 2 ^ value.scale :=
        pow_le_pow_right₀ (by norm_num) lower
      rw [pow_succ] at isHalf
      linarith
    exact_mod_cast distance.2 (le_trans halfError isQuarter)
  · have less : |(read.units : ℤ) - value.units| < 5 * (2 ^ value.scale : ℕ) := by
      exact_mod_cast distance.1
    rw [read.units_eq, value.units_eq, mul_pow_eq read.significand notLower] at less ⊢
    exact_mod_cast le_of_multiple less

theorem exists_scaled (isSpelling : value.IsSpelling digits exponent) :
    ∃ read, scaled? digits exponent = some read ∧
      value.reread? = some (withSign value.negative read) := by
  have isSome := value.isSome_reread?
  rw [isSpelling.reads, Option.isSome_map] at isSome
  rcases Option.isSome_iff_exists.mp isSome with ⟨read, isScaled⟩
  refine ⟨read, isScaled, ?_⟩
  rw [isSpelling.reads, isScaled]
  rfl

theorem zero_isSpelling (negative : Bool) : (zero negative).IsSpelling 0 (-1) where
  reads := zero_reads negative
  units := by
    rw [Nat.cast_zero, zero_mul]
    cases negative <;> exact (zero_mul _).symm
  few := Nat.zero_le _
  form := .inr ⟨dvd_zero 10, rfl⟩

/-- What is read where a double that is not negative has been written: the digits of its shortest
decimal and a power of ten are rounded, and their product or quotient is rounded again. -/
theorem exists_scaled_reread (notNegative : value.negative = false) :
    ∃ (digits : Nat) (exponent : Int), (digits : ℚ) * 10 ^ exponent =
        value.shortest.digits * 10 ^ value.shortest.exponent ∧
      scaled? digits exponent = some value.reread := by
  have isSpelt : ∃ digits exponent, value.IsSpelling digits exponent := by
    cases notZero : value.isZero with
    | true =>
        rw [eq_zero_of_isZero notZero]
        exact ⟨0, -1, zero_isSpelling _⟩
    | false => exact exists_isSpelling notZero
  rcases isSpelt with ⟨digits, exponent, isSpelling⟩
  rcases exists_scaled isSpelling with ⟨read, isScaled, isRead⟩
  refine ⟨digits, exponent, ?_, ?_⟩
  · have isUnits := isSpelling.units
    rw [Decimal.units, stepUnits, stepUnits, ← mul_assoc, ← mul_assoc] at isUnits
    exact mul_right_cancel₀ (by positivity) isUnits
  · rw [isScaled, reread, isRead, notNegative]
    rfl

/-- Where a double has been written, a double of the same sign is read that is at most four units in
the last place away. -/
theorem reread_near (value : Double) : value.reread.negative = value.negative ∧
    |(value.reread.units : ℤ) - value.units| ≤ 4 * 2 ^ value.scale := by
  cases notZero : value.isZero with
  | true =>
      have same : value.reread = value := by
        rw [eq_zero_of_isZero notZero, reread, reread?_zero]
        rfl
      rw [same, sub_self, abs_zero]
      exact ⟨rfl, by positivity⟩
  | false =>
      rcases exists_isSpelling notZero with ⟨digits, exponent, isSpelling⟩
      rcases exists_scaled isSpelling with ⟨read, isScaled, isRead⟩
      have notNegative := Json.Numeral.scaled?_negative isScaled
      have isRounded := Json.Numeral.isRoundedFrom_scaled? (isSpelling.positive notZero)
        (le_trans (by decide) (isSpelling.notFine notZero)) isScaled
      rw [reread, isRead, Option.getD_some, withSign_units]
      refine ⟨?_, near_of_isRoundedFrom notZero isRounded isSpelling.units⟩
      cases value.negative <;> simp [withSign, negate, notNegative]

/-! ## Doubles with few digits -/

/-- The largest number of digits that every decimal keeps when it is read as a double. -/
def keptDigits : Nat := 15

/-- A quotient that is rounded to a number of several units is about as large as that. -/
theorem near_of_nearest? {sign : Bool} {numerator denominator : Nat} (large : 8 ≤ value.units)
    (positive : 0 < denominator)
    (isNearest : nearest? sign numerator denominator = some value) :
    8 * quotientUnits numerator denominator ≤ 9 * value.units ∧
      8 * value.units ≤ 9 * quotientUnits numerator denominator := by
  have error := error_le positive isNearest
  have isLarge : (8 : ℚ) ≤ value.units := by exact_mod_cast large
  rcases abs_le.mp error with ⟨lower, upper⟩
  rcases max_cases (1 / 2) (quotientUnits numerator denominator / 2 ^ 53) with
    ⟨isMax, _⟩ | ⟨isMax, _⟩
  · rw [isMax] at lower upper
    constructor <;> linarith
  · rw [isMax] at lower upper
    constructor <;> linarith

/-- The least decimal with so many places is not rounded to a smaller number. -/
theorem stepUnits_le_roundedUnits :
    stepUnits (-exactPower) ≤ roundedUnits (1 <<< unitExponent) (10 ^ exactPower) := by
  have isAbove : 2 ^ unitExponent ≤
      roundedUnits (1 <<< unitExponent) (10 ^ exactPower) * 10 ^ exactPower := by
    decide +kernel
  rw [stepUnits, zpow_neg, zpow_natCast, inv_mul_le_iff₀ (by positivity), mul_comm]
  exact_mod_cast isAbove

theorem eight_le_stepUnits : 8 ≤ stepUnits (-exactPower) := by
  have isAbove : 8 * 10 ^ exactPower ≤ 2 ^ unitExponent :=
    calc 8 * 10 ^ exactPower ≤ 2 ^ 77 := by decide
      _ ≤ 2 ^ unitExponent := Nat.pow_le_pow_right (by decide) (by decide)
  rw [stepUnits, zpow_neg, zpow_natCast, le_inv_mul_iff₀ (by positivity), mul_comm]
  exact_mod_cast isAbove

section Few

variable {places : Nat} (notZero : value.isZero = false)
variable (isRead : value.isReadFrom ⟨digits, -places⟩ = true)

include notZero isRead

theorem digits_pos_of_isReadFrom : 0 < digits := by
  apply Nat.pos_of_ne_zero
  rintro rfl
  rw [isReadFrom_zero_digits _ notZero] at isRead
  cases isRead

variable (short : places ≤ exactPower)

include short

/-- A decimal with few places has its first digit before the last of them. -/
theorem exactPower_le_leading : -exactPower ≤ value.leadingExponent := by
  have isNearest := nearest?_of_isReadFrom notZero isRead
  have notBelow : stepUnits (-exactPower) ≤ digits * stepUnits (-places) :=
    calc stepUnits (-exactPower) ≤ stepUnits (-places) := stepUnits_le_iff.mpr (by omega)
      _ ≤ digits * stepUnits (-places) := by
          apply le_mul_of_one_le_left (le_of_lt (stepUnits_pos _))
          exact_mod_cast digits_pos_of_isReadFrom notZero isRead
  have least : quotientUnits 1 (10 ^ exactPower) = stepUnits (-exactPower) := by
    rw [quotientUnits, stepUnits, zpow_neg, zpow_natCast]
    push_cast
    ring
  have isUnits := Decimal.quotientUnits_quotient ⟨digits, -places⟩
  rw [Decimal.units] at isUnits
  rw [← least, ← isUnits] at notBelow
  have roundedNotBelow :=
    roundedUnits_le_roundedUnits (Nat.pow_pos (by decide)) (Decimal.quotient_pos _) notBelow
  rw [← units_of_nearest? isNearest] at roundedNotBelow
  have isBetween : stepUnits (-exactPower) < stepUnits (value.leadingExponent + 1) :=
    calc stepUnits (-exactPower) ≤ roundedUnits (1 <<< unitExponent) (10 ^ exactPower) :=
          stepUnits_le_roundedUnits
      _ ≤ value.units := by exact_mod_cast roundedNotBelow
      _ < stepUnits (value.leadingExponent + 1) := (leading_bounds notZero).2
  exact Int.lt_add_one_iff.mp (stepUnits_lt_iff.mp isBetween)

theorem eight_le_units : 8 ≤ value.units := by
  have isLarge : (8 : ℚ) ≤ value.units :=
    calc (8 : ℚ) ≤ stepUnits (-exactPower) := eight_le_stepUnits
      _ ≤ stepUnits value.leadingExponent :=
          stepUnits_le_iff.mpr (exactPower_le_leading notZero isRead short)
      _ ≤ value.units := (leading_bounds notZero).1
  exact_mod_cast isLarge

/-- The shortest decimal is about as large as the double. -/
theorem shortest_units_le : 8 * value.shortest.units ≤ 9 * value.units := by
  have near := near_of_nearest? (eight_le_units notZero isRead short) (Decimal.quotient_pos _)
    (nearest?_of_isReadFrom notZero (isReadFrom_shortest notZero))
  rw [Decimal.quotientUnits_quotient] at near
  exact near.1

variable (few : digits < 10 ^ keptDigits)

include few

theorem units_lt_of_few : 8 * (value.units : ℚ) < 9 * 10 ^ 15 * stepUnits (-places) := by
  have near := near_of_nearest? (eight_le_units notZero isRead short) (Decimal.quotient_pos _)
    (nearest?_of_isReadFrom notZero isRead)
  rw [Decimal.quotientUnits_quotient] at near
  rw [keptDigits] at few
  refine lt_of_le_of_lt near.2 ?_
  rw [mul_assoc]
  apply mul_lt_mul_of_pos_left _ (by norm_num)
  apply mul_lt_mul_of_pos_right _ (stepUnits_pos _)
  exact_mod_cast few

/-- The shortest decimal has no more places than the decimal with few digits, or one digit. -/
theorem le_shortest_exponent_of_few :
    min (-(places : Int)) value.leadingExponent ≤ value.shortest.exponent := by
  apply le_shortest_exponent_of_isReadFrom notZero _ isRead
  have isBetween : stepUnits value.leadingExponent < stepUnits (-places + (16 : ℕ)) :=
    calc stepUnits value.leadingExponent ≤ value.units := (leading_bounds notZero).1
      _ < 10 ^ 16 * stepUnits (-places) := by
          have low := units_lt_of_few notZero isRead short few
          have isPositive := stepUnits_pos (-places)
          linarith
      _ = stepUnits (-places + (16 : ℕ)) := (stepUnits_add _ _).symm
  have less := stepUnits_lt_iff.mp isBetween
  dsimp only
  omega

/-- The shortest decimal has few digits. -/
theorem shortest_digits_lt : value.shortest.digits < 2 ^ 53 := by
  have notAbove := shortest_units_le notZero isRead short
  have isPositive := stepUnits_pos value.shortest.exponent
  have isLess : value.shortest.digits * stepUnits value.shortest.exponent <
      2 ^ 53 * stepUnits value.shortest.exponent := by
    rw [Decimal.units] at notAbove
    rcases min_le_iff.mp (le_shortest_exponent_of_few notZero isRead short few) with
      notFiner | isFirst
    · have low := units_lt_of_few notZero isRead short few
      have coarser := stepUnits_le_iff.mpr notFiner
      linarith
    · have low := (leading_bounds notZero).2
      have isStep := stepUnits_add value.leadingExponent 1
      rw [Nat.cast_one, pow_one] at isStep
      have coarser := stepUnits_le_iff.mpr isFirst
      linarith
  exact_mod_cast lt_of_mul_lt_mul_right isLess (le_of_lt isPositive)

theorem shortest_units_lt : 64 * value.shortest.units < 81 * 10 ^ 15 * stepUnits 0 := by
  have notAbove := shortest_units_le notZero isRead short
  have low := units_lt_of_few notZero isRead short few
  have coarser : stepUnits (-places) ≤ stepUnits 0 := stepUnits_le_iff.mpr (by omega)
  linarith

section Spelling

variable {spelt : Nat} {power : Int} (isSpelling : value.IsSpelling spelt power)

include isSpelling

/-- The digits that are read are a number of 53 bits, but for a power of two. -/
theorem exists_bits : ∃ count factor, count < 2 ^ 53 ∧ spelt = count * 2 ^ factor := by
  rcases isSpelling.form with ⟨notMore, _⟩ | ⟨⟨tenth, isTenth⟩, isLast⟩
  · exact ⟨spelt, 0, Nat.lt_of_le_of_lt notMore (shortest_digits_lt notZero isRead short few),
      (Nat.mul_one _).symm⟩
  · refine ⟨5 * tenth, 1, ?_, by omega⟩
    have low := shortest_units_lt notZero isRead short few
    have isStep := stepUnits_add (-1) 1
    have isPositive := stepUnits_pos (-1)
    rw [Nat.cast_one, neg_add_cancel, pow_one] at isStep
    rw [← isSpelling.units, isTenth, isLast, isStep] at low
    push_cast at low
    have isLess : 5 * (tenth : ℚ) * stepUnits (-1) < 2 ^ 53 * stepUnits (-1) := by linarith
    exact_mod_cast lt_of_mul_lt_mul_right isLess (le_of_lt isPositive)

/-- The power of ten that is left is a double. -/
theorem power_isExact : -exactPower ≤ power ∧ power ≤ exactPower := by
  constructor
  · rcases isSpelling.form with ⟨_, notFiner⟩ | ⟨_, isLast⟩
    · have leadingLow := exactPower_le_leading notZero isRead short
      have exponentLow := le_shortest_exponent_of_few notZero isRead short few
      omega
    · rw [isLast]
      decide
  · have low := shortest_units_lt notZero isRead short few
    have isStep : stepUnits ((0 : Int) + exactPower) = 10 ^ exactPower * stepUnits 0 :=
      stepUnits_add 0 exactPower
    have atLeastOne : 1 * stepUnits power ≤ spelt * stepUnits power := by
      apply mul_le_mul_of_nonneg_right _ (le_of_lt (stepUnits_pos _))
      exact_mod_cast isSpelling.positive notZero
    rw [isSpelling.units] at atLeastOne
    have isPositive := stepUnits_pos 0
    rw [zero_add, exactPower] at isStep
    apply stepUnits_le_iff.mp
    rw [exactPower, isStep]
    linarith

end Spelling

/-- A double that is nearest to a decimal with few digits and places is read as itself. -/
theorem reread?_eq_self : value.reread? = some value := by
  rcases exists_isSpelling notZero with ⟨spelt, power, isSpelling⟩
  rcases exists_bits notZero isRead short few isSpelling with ⟨count, factor, isFew, isSpelt⟩
  rcases exists_scaled isSpelling with ⟨read, isScaled, _⟩
  rcases Option.bind_eq_some_iff.mp isScaled with ⟨rounded, isRounded, _⟩
  have isExact : rounded.units = spelt * 2 ^ unitExponent := by
    rw [isSpelt] at isRounded ⊢
    exact Json.Numeral.units_of_ofNat? isFew isRounded
  have powerIsExact := power_isExact notZero isRead short few isSpelling
  have sameUnits : quotientUnits (⟨spelt, power⟩ : Decimal).quotient.1
      (⟨spelt, power⟩ : Decimal).quotient.2 =
        quotientUnits value.shortest.quotient.1 value.shortest.quotient.2 := by
    rw [Decimal.quotientUnits_quotient, Decimal.quotientUnits_quotient]
    exact isSpelling.units
  rw [isSpelling.reads, Json.Numeral.scaled?_eq_nearest? isRounded isExact powerIsExact.1
    powerIsExact.2, withSign_nearest?, nearest?_congr_units _ (Decimal.quotient_pos _)
    (Decimal.quotient_pos _) sameUnits]
  exact nearest?_of_isReadFrom notZero (isReadFrom_shortest notZero)

end Few

theorem reread_eq_self {places : Nat} (few : digits < 10 ^ keptDigits)
    (short : places ≤ exactPower)
    (isDecimal : ofDecimal? value.negative digits (-places) = some value) :
    value.reread = value := by
  have isRead : value.reread? = some value := by
    cases notZero : value.isZero with
    | true => rw [eq_zero_of_isZero notZero, reread?_zero]
    | false => exact reread?_eq_self notZero (decide_eq_true isDecimal) short few
  rw [reread, isRead, Option.getD_some]

end Double

end TwinSwarm
