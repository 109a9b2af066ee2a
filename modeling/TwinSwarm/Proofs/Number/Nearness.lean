import Mathlib.Algebra.Order.Ring.Abs
import Mathlib.Data.Nat.Cast.Order.Field
import Mathlib.Data.Rat.Cast.Order
import Mathlib.Tactic.FieldSimp
import Mathlib.Tactic.Positivity
import Mathlib.Tactic.Ring
import TwinSwarm.Proofs.Number.Rounding

/-!
# Rounding takes the nearest double

No double is nearer to a quotient than the one to which the quotient is rounded.  So the error of a
rounding is at most half a unit or, where that is more, one part in `2 ^ 53`; and a quotient that is
nearer to a double than half way to any other one is rounded to that double.
-/

namespace TwinSwarm

namespace Double

variable {numerator denominator other divisor : Nat}

/-! ## Rounded quotients -/

/-- A quotient is its whole part and a rest. -/
theorem quotient_eq (positive : 0 < denominator) : (numerator : ℚ) / denominator =
    (numerator / denominator : ℕ) + (numerator % denominator : ℕ) / (denominator : ℚ) := by
  have notZero : (denominator : ℚ) ≠ 0 := Nat.cast_ne_zero.mpr (Nat.ne_of_gt positive)
  have isNumerator : (denominator * (numerator / denominator) + numerator % denominator : ℕ) =
      (numerator : ℚ) := congrArg Nat.cast (Nat.div_add_mod numerator denominator)
  rw [div_eq_iff notZero, add_mul, div_mul_cancel₀ _ notZero, ← isNumerator]
  push_cast
  ring

theorem roundedQuotient_error (numerator : Nat) (positive : 0 < denominator) :
    |(roundedQuotient numerator denominator : ℚ) - numerator / denominator| ≤ 1 / 2 := by
  have isPositive : (0 : ℚ) < denominator := Nat.cast_pos.mpr positive
  rw [quotient_eq positive, roundedQuotient]
  have restLow : numerator % denominator < denominator := Nat.mod_lt _ positive
  generalize numerator / denominator = whole
  generalize numerator % denominator = rest at restLow ⊢
  have notNegative : (0 : ℚ) ≤ rest / denominator := by positivity
  -- What decides the rounding are two comparisons of the rest with half the denominator.
  have belowHalf_iff : (rest : ℚ) / denominator < 1 / 2 ↔ 2 * rest < denominator := by
    rw [div_lt_div_iff₀ isPositive two_pos, one_mul, mul_comm]
    exact_mod_cast Iff.rfl
  have aboveHalf_iff : 1 / 2 < (rest : ℚ) / denominator ↔ denominator < 2 * rest := by
    rw [div_lt_div_iff₀ two_pos isPositive, one_mul, mul_comm]
    exact_mod_cast Iff.rfl
  have belowOne : (rest : ℚ) / denominator < 1 := by
    rw [div_lt_one isPositive]
    exact_mod_cast restLow
  split
  next isBelow =>
    have belowHalf := belowHalf_iff.mpr isBelow
    rw [abs_le]
    constructor <;> linarith
  next notBelow =>
    have notBelowHalf := mt belowHalf_iff.mp notBelow
    split
    next isAbove =>
      rw [abs_le]
      push_cast
      constructor <;> linarith
    next notAbove =>
      have notAboveHalf := mt aboveHalf_iff.mp notAbove
      -- The rest is half the denominator, so both neighbours are equally near.
      have evenLow : ((whole % 2 : ℕ) : ℚ) ≤ 1 := by
        exact_mod_cast Nat.le_of_lt_succ (Nat.mod_lt whole two_pos)
      have evenNotNegative : (0 : ℚ) ≤ ((whole % 2 : ℕ) : ℚ) := Nat.cast_nonneg _
      rw [abs_le]
      push_cast
      constructor <;> linarith

/-- No natural number is nearer to a quotient than the rounded one. -/
theorem roundedQuotient_nearest (positive : 0 < denominator) (number : Nat) :
    |(roundedQuotient numerator denominator : ℚ) - numerator / denominator| ≤
      |(number : ℚ) - numerator / denominator| := by
  have error := roundedQuotient_error numerator positive
  by_cases same : number = roundedQuotient numerator denominator
  · rw [same]
  · have apart : (1 : ℚ) ≤ |(number : ℚ) - roundedQuotient numerator denominator| := by
      have different : (1 : ℤ) ≤ |(number : ℤ) - roundedQuotient numerator denominator| :=
        Int.one_le_abs (by omega)
      exact_mod_cast different
    have triangle := abs_sub_le (number : ℚ) (numerator / denominator)
      (roundedQuotient numerator denominator)
    rw [abs_sub_comm (numerator / denominator : ℚ)] at triangle
    linarith

/-! ## Rounded numbers of units -/

theorem shiftLeft_pos (positive : 0 < denominator) (scale : Nat) : 0 < denominator <<< scale := by
  rw [Nat.shiftLeft_eq]
  exact Nat.mul_pos positive (Nat.two_pow_pos _)

/-- The distance from a multiple of a power of two, in multiples of that power. -/
theorem distance_mul_pow (count : ℚ) (scale : Nat) :
    |count * 2 ^ scale - (numerator : ℚ) / denominator| =
      |count - (numerator : ℚ) / (denominator <<< scale : ℕ)| * 2 ^ scale := by
  have powerPositive : (0 : ℚ) < 2 ^ scale := by positivity
  have isProduct : count * 2 ^ scale - (numerator : ℚ) / denominator =
      (count - numerator / (denominator <<< scale : ℕ)) * 2 ^ scale := by
    rw [Nat.shiftLeft_eq, Nat.cast_mul, Nat.cast_pow, Nat.cast_ofNat, sub_mul, ← div_div,
      div_mul_cancel₀ _ (ne_of_gt powerPositive)]
  rw [isProduct, abs_mul, abs_of_pos powerPositive]

theorem roundedUnits_error_scale (positive : 0 < denominator) :
    |(roundedUnits numerator denominator : ℚ) - numerator / denominator| ≤
      2 ^ scaleOf numerator denominator / 2 := by
  unfold roundedUnits
  generalize scaleOf numerator denominator = scale
  have powerPositive : (0 : ℚ) < 2 ^ scale := by positivity
  push_cast
  rw [distance_mul_pow]
  have error := roundedQuotient_error numerator (shiftLeft_pos positive scale)
  nlinarith

theorem roundedUnits_nearest_multiple (numerator : Nat) (positive : 0 < denominator)
    (number : Nat) :
    |(roundedUnits numerator denominator : ℚ) - numerator / denominator| ≤
      |(number : ℚ) * 2 ^ scaleOf numerator denominator - numerator / denominator| := by
  unfold roundedUnits
  generalize scaleOf numerator denominator = scale
  push_cast
  rw [distance_mul_pow, distance_mul_pow]
  apply mul_le_mul_of_nonneg_right _ (by positivity)
  exact roundedQuotient_nearest (shiftLeft_pos positive scale) number

theorem pow_le_of_scaleOf_pos (scaled : 0 < scaleOf numerator denominator) :
    (2 ^ 52 * 2 ^ scaleOf numerator denominator : ℚ) ≤ numerator / denominator := by
  rw [← pow_add]
  refine le_trans ?_ Nat.cast_div_le
  exact_mod_cast pow_le_div_of_scaled scaled

/-- A multiple of a power of two is a multiple of every lower one. -/
theorem mul_pow_eq {power lower : Nat} (count : Nat) (notHigher : lower ≤ power) :
    count * 2 ^ power = count * 2 ^ (power - lower) * 2 ^ lower := by
  rw [Nat.mul_assoc, ← Nat.pow_add, Nat.sub_add_cancel notHigher]

/-- A number of at most 53 bits is not changed, whatever power of two it is multiplied with. -/
theorem roundedUnits_eq_self {count power : Nat} (few : count < 2 ^ 53) :
    roundedUnits (count * 2 ^ power) 1 = count * 2 ^ power := by
  have scaleNotAbove : scaleOf (count * 2 ^ power) 1 ≤ power := by
    rcases Nat.eq_zero_or_pos count with rfl | positive
    · simp [scaleOf]
    · have low : Nat.log2 (count * 2 ^ power) < 53 + power := by
        rw [Nat.log2_lt (Nat.ne_of_gt (Nat.mul_pos positive (Nat.two_pow_pos _))), Nat.pow_add]
        exact Nat.mul_lt_mul_of_pos_right few (Nat.two_pow_pos _)
      rw [scaleOf, Nat.div_one]
      omega
  have nearest := roundedUnits_nearest_multiple (count * 2 ^ power) Nat.one_pos
    (count * 2 ^ (power - scaleOf (count * 2 ^ power) 1))
  have isMultiple : ((count * 2 ^ (power - scaleOf (count * 2 ^ power) 1) : ℕ) : ℚ) *
      2 ^ scaleOf (count * 2 ^ power) 1 = (count * 2 ^ power : ℕ) := by
    exact_mod_cast (mul_pow_eq count scaleNotAbove).symm
  rw [isMultiple, Nat.cast_one, div_one, sub_self, abs_zero] at nearest
  exact_mod_cast sub_eq_zero.mp (abs_nonpos_iff.mp nearest)

/-- The numbers of units that doubles have, if there were doubles of every scale. -/
def IsRepresented (units : Nat) : Prop :=
  ∃ significand scale, IsNormal significand scale ∧ significand * 2 ^ scale = units

theorem units_isRepresented (value : Double) : IsRepresented value.units :=
  ⟨value.significand, value.scale, ⟨value.canonical.1, value.canonical.2.2⟩, value.units_eq.symm⟩

theorem roundedUnits_isRepresented (numerator denominator : Nat) :
    IsRepresented (roundedUnits numerator denominator) :=
  ⟨_, _, nearestParts_isNormal numerator denominator, nearestParts_units numerator denominator⟩

variable {significand scale otherSignificand otherScale units otherUnits : Nat}

/-- A number of units with a smaller scale is smaller. -/
theorem IsNormal.lt_of_scale_lt (isNormal : IsNormal significand scale)
    (otherIsNormal : IsNormal otherSignificand otherScale) (lower : scale < otherScale) :
    significand * 2 ^ scale < leadingBit * 2 ^ otherScale ∧
      leadingBit * 2 ^ otherScale ≤ otherSignificand * 2 ^ otherScale := by
  constructor
  · calc significand * 2 ^ scale < 2 * leadingBit * 2 ^ scale :=
          Nat.mul_lt_mul_of_pos_right isNormal.low (Nat.two_pow_pos _)
      _ = leadingBit * 2 ^ (scale + 1) := by ring
      _ ≤ leadingBit * 2 ^ otherScale :=
          Nat.mul_le_mul_left _ (Nat.pow_le_pow_right (by decide) lower)
  · apply Nat.mul_le_mul_right
    exact otherIsNormal.leads.resolve_left (Nat.ne_zero_of_lt lower)

/-- Each number of units has one form. -/
theorem IsNormal.parts_eq (isNormal : IsNormal significand scale)
    (otherIsNormal : IsNormal otherSignificand otherScale)
    (same : significand * 2 ^ scale = otherSignificand * 2 ^ otherScale) :
    significand = otherSignificand ∧ scale = otherScale := by
  rcases Nat.lt_trichotomy scale otherScale with lower | rfl | higher
  · have less := isNormal.lt_of_scale_lt otherIsNormal lower
    omega
  · exact ⟨Nat.eq_of_mul_eq_mul_right (Nat.two_pow_pos _) same, rfl⟩
  · have less := otherIsNormal.lt_of_scale_lt isNormal higher
    omega

/-- Of two multiples of a power of two, one of which is small, the other one is at least one part
in `2 ^ 53` apart. -/
theorem le_mul_distance_of_small {count otherCount power : Nat}
    (different : otherCount * 2 ^ power ≠ count * 2 ^ power)
    (small : count ≤ 2 ^ 53 ∨ otherCount < 2 ^ 53) : ((count * 2 ^ power : ℕ) : ℚ) ≤
      2 ^ 53 * |((otherCount * 2 ^ power : ℕ) : ℚ) - (count * 2 ^ power : ℕ)| := by
  have differentCounts : otherCount ≠ count := fun same => different (by rw [same])
  have apart : (count : ℤ) ≤ 2 ^ 53 * |(otherCount : ℤ) - count| := by
    rcases Nat.lt_or_gt_of_ne differentCounts with less | greater
    · rw [abs_of_nonpos (by omega)]
      omega
    · rw [abs_of_nonneg (by omega)]
      omega
  have powerPositive : (0 : ℚ) < 2 ^ power := by positivity
  push_cast
  rw [← sub_mul, abs_mul, abs_of_pos powerPositive, ← mul_assoc]
  exact mul_le_mul_of_nonneg_right (by exact_mod_cast apart) (le_of_lt powerPositive)

/-- Two numbers of units are at least one part in `2 ^ 53` apart. -/
theorem IsRepresented.le_mul_distance (isRepresented : IsRepresented units)
    (otherIsRepresented : IsRepresented otherUnits) (different : otherUnits ≠ units) :
    (units : ℚ) ≤ 2 ^ 53 * |(otherUnits : ℚ) - units| := by
  rcases isRepresented with ⟨significand, scale, isNormal, rfl⟩
  rcases otherIsRepresented with ⟨otherSignificand, otherScale, otherIsNormal, rfl⟩
  have isBit : 2 * leadingBit = 2 ^ 53 := rfl
  -- Both are counted in multiples of the power of two of the smaller scale.
  rcases Nat.le_total scale otherScale with notHigher | notLower
  · rw [mul_pow_eq otherSignificand notHigher] at different ⊢
    exact le_mul_distance_of_small different (.inl (isBit ▸ Nat.le_of_lt isNormal.low))
  · rw [mul_pow_eq significand notLower] at different ⊢
    exact le_mul_distance_of_small different (.inr (isBit ▸ otherIsNormal.low))

theorem roundedUnits_nearest (numerator : Nat) (positive : 0 < denominator)
    (isRepresented : IsRepresented units) :
    |(roundedUnits numerator denominator : ℚ) - numerator / denominator| ≤
      |(units : ℚ) - numerator / denominator| := by
  rcases isRepresented with ⟨significand, scale, isNormal, rfl⟩
  rcases Nat.lt_or_ge scale (scaleOf numerator denominator) with lower | notLower
  · -- A double of a lower scale is at most `2 ^ 52` units of this one, and so many units are no
    -- more than the quotient.
    have below : significand * 2 ^ scale ≤ 2 ^ 52 * 2 ^ scaleOf numerator denominator :=
      calc significand * 2 ^ scale ≤ 2 * leadingBit * 2 ^ scale :=
            Nat.mul_le_mul_right _ (Nat.le_of_lt isNormal.low)
        _ = 2 ^ 52 * 2 ^ (scale + 1) := by
            rw [leadingBit, Nat.shiftLeft_eq]
            ring
        _ ≤ 2 ^ 52 * 2 ^ scaleOf numerator denominator :=
            Nat.mul_le_mul_left _ (Nat.pow_le_pow_right (by decide) lower)
    have above := pow_le_of_scaleOf_pos (Nat.zero_lt_of_lt lower)
    calc |(roundedUnits numerator denominator : ℚ) - numerator / denominator|
        ≤ |((2 ^ 52 : ℕ) : ℚ) * 2 ^ scaleOf numerator denominator - numerator / denominator| :=
          roundedUnits_nearest_multiple numerator positive (2 ^ 52)
      _ = numerator / denominator - 2 ^ 52 * 2 ^ scaleOf numerator denominator := by
          rw [Nat.cast_pow, Nat.cast_ofNat, abs_sub_comm, abs_of_nonneg (sub_nonneg.mpr above)]
      _ ≤ numerator / denominator - (significand * 2 ^ scale : ℕ) :=
          sub_le_sub_left (by exact_mod_cast below) _
      _ ≤ |((significand * 2 ^ scale : ℕ) : ℚ) - numerator / denominator| := by
          rw [abs_sub_comm]
          exact le_abs_self _
  · have nearest := roundedUnits_nearest_multiple numerator positive
      (significand * 2 ^ (scale - scaleOf numerator denominator))
    rw [mul_pow_eq significand notLower]
    exact_mod_cast nearest

theorem roundedUnits_error (positive : 0 < denominator) :
    |(roundedUnits numerator denominator : ℚ) - numerator / denominator| ≤
      max (1 / 2) ((numerator : ℚ) / denominator / 2 ^ 53) := by
  refine le_trans (roundedUnits_error_scale positive) ?_
  rcases Nat.eq_zero_or_pos (scaleOf numerator denominator) with isZero | scaled
  · rw [isZero, pow_zero]
    exact le_max_left _ _
  · refine le_trans ?_ (le_max_right _ _)
    have above := pow_le_of_scaleOf_pos scaled
    linarith

/-! ## Doubles -/

variable {value : Double} {sign : Bool}

/-- The number of units for which a quotient stands. -/
def quotientUnits (numerator denominator : Nat) : ℚ :=
  numerator * 2 ^ unitExponent / denominator

theorem quotientUnits_eq (numerator denominator : Nat) : quotientUnits numerator denominator =
    ((numerator <<< unitExponent : ℕ) : ℚ) / denominator := by
  rw [quotientUnits, Nat.shiftLeft_eq]
  push_cast
  rfl

theorem quotientUnits_eq_mul (numerator denominator : Nat) : quotientUnits numerator denominator =
    (numerator : ℚ) / denominator * 2 ^ unitExponent := by
  rw [quotientUnits, div_mul_eq_mul_div]

theorem negative_of_nearest? (isNearest : nearest? sign numerator denominator = some value) :
    value.negative = sign := by
  simp only [nearest?] at isNearest
  split at isNearest
  · rw [← Option.some.inj isNearest]
  · cases isNearest

theorem nearest?_eq_of_units
    (same : roundedUnits (numerator <<< unitExponent) denominator = value.units) :
    nearest? value.negative numerator denominator = some value := by
  have isNormal := nearestParts_isNormal (numerator <<< unitExponent) denominator
  rw [← nearestParts_units, units_eq] at same
  rcases isNormal.parts_eq ⟨value.canonical.1, value.canonical.2.2⟩ same with
    ⟨sameSignificand, sameScale⟩
  rcases value with ⟨negative, significand, scale, canonical⟩
  dsimp only at sameSignificand sameScale
  subst sameSignificand sameScale
  exact dif_pos canonical

/-- A power of two is rounded to the double that has as many units. -/
theorem nearest?_pow {bits power : Nat} (isBit : value.significand = 2 ^ bits)
    (sameUnits : bits + value.scale = power + unitExponent) :
    nearest? value.negative (2 ^ power) 1 = some value := by
  apply nearest?_eq_of_units
  rw [Nat.shiftLeft_eq, ← Nat.pow_add, roundedUnits_pow, units_eq, isBit, ← Nat.pow_add, sameUnits]

/-- A quotient is rounded to a double if it is nearer to it than half way to any other number. -/
theorem nearest?_eq_of_near (positive : 0 < denominator)
    (near : ∀ other, IsRepresented other → other ≠ value.units →
      2 * |(value.units : ℚ) - quotientUnits numerator denominator| < |(other : ℚ) - value.units|) :
    nearest? value.negative numerator denominator = some value := by
  apply nearest?_eq_of_units
  by_contra different
  have isNear := near _ (roundedUnits_isRepresented _ _) different
  have nearest := roundedUnits_nearest (numerator <<< unitExponent) positive
    value.units_isRepresented
  rw [← quotientUnits_eq] at nearest
  have triangle := abs_sub_le (roundedUnits (numerator <<< unitExponent) denominator : ℚ)
    (quotientUnits numerator denominator) value.units
  rw [abs_sub_comm (quotientUnits numerator denominator)] at triangle
  linarith

/-- Equal quotients are rounded to the same double. -/
theorem nearest?_congr (sign : Bool) (positive : 0 < denominator) (divisorPositive : 0 < divisor)
    (same : numerator * divisor = other * denominator) :
    nearest? sign numerator denominator = nearest? sign other divisor := by
  have sameShifted : (numerator <<< unitExponent) * divisor =
      (other <<< unitExponent) * denominator := by
    rw [Nat.shiftLeft_eq, Nat.shiftLeft_eq, Nat.mul_right_comm, same, Nat.mul_right_comm]
  have sameUnits : roundedUnits (numerator <<< unitExponent) denominator =
      roundedUnits (other <<< unitExponent) divisor :=
    Nat.le_antisymm (roundedUnits_mono positive divisorPositive (Nat.le_of_eq sameShifted))
      (roundedUnits_mono divisorPositive positive (Nat.le_of_eq sameShifted.symm))
  rw [← nearestParts_units, ← nearestParts_units] at sameUnits
  rcases (nearestParts_isNormal _ _).parts_eq (nearestParts_isNormal _ _) sameUnits with
    ⟨sameSignificand, sameScale⟩
  simp only [nearest?, sameSignificand, sameScale]

theorem quotientUnits_le_iff (positive : 0 < denominator) (divisorPositive : 0 < divisor) :
    quotientUnits numerator denominator ≤ quotientUnits other divisor ↔
      numerator * divisor ≤ other * denominator := by
  have isPositive : (0 : ℚ) < denominator := Nat.cast_pos.mpr positive
  have isDivisorPositive : (0 : ℚ) < divisor := Nat.cast_pos.mpr divisorPositive
  rw [quotientUnits, quotientUnits, div_le_div_iff₀ isPositive isDivisorPositive,
    mul_right_comm, mul_right_comm (other : ℚ), mul_le_mul_iff_of_pos_right (by positivity)]
  exact_mod_cast Iff.rfl

/-- Rounding depends on the number alone that a quotient stands for. -/
theorem nearest?_congr_units (sign : Bool) (positive : 0 < denominator)
    (divisorPositive : 0 < divisor)
    (same : quotientUnits numerator denominator = quotientUnits other divisor) :
    nearest? sign numerator denominator = nearest? sign other divisor := by
  apply nearest?_congr sign positive divisorPositive
  apply Nat.le_antisymm
  · exact (quotientUnits_le_iff positive divisorPositive).mp (le_of_eq same)
  · exact (quotientUnits_le_iff divisorPositive positive).mp (le_of_eq same.symm)

theorem roundedUnits_le_roundedUnits (positive : 0 < denominator) (divisorPositive : 0 < divisor)
    (notAbove : quotientUnits numerator denominator ≤ quotientUnits other divisor) :
    roundedUnits (numerator <<< unitExponent) denominator ≤
      roundedUnits (other <<< unitExponent) divisor := by
  apply roundedUnits_mono positive divisorPositive
  rw [Nat.shiftLeft_eq, Nat.shiftLeft_eq, Nat.mul_right_comm, Nat.mul_right_comm other]
  exact Nat.mul_le_mul_right _ ((quotientUnits_le_iff positive divisorPositive).mp notAbove)

theorem roundedUnits_le_units (positive : 0 < denominator)
    (notAbove : quotientUnits numerator denominator ≤ value.units) :
    roundedUnits (numerator <<< unitExponent) denominator ≤ value.units := by
  have nearest := roundedUnits_nearest (numerator <<< unitExponent) positive
    value.units_isRepresented
  rw [← quotientUnits_eq, abs_of_nonneg (sub_nonneg.mpr notAbove)] at nearest
  exact Nat.cast_le.mp (sub_le_sub_iff_right _ |>.mp (le_trans (le_abs_self _) nearest))

theorem units_le_roundedUnits (positive : 0 < denominator)
    (notBelow : value.units ≤ quotientUnits numerator denominator) :
    value.units ≤ roundedUnits (numerator <<< unitExponent) denominator := by
  have nearest := roundedUnits_nearest (numerator <<< unitExponent) positive
    value.units_isRepresented
  rw [← quotientUnits_eq, abs_sub_comm, abs_of_nonpos (sub_nonpos.mpr notBelow), neg_sub] at nearest
  exact Nat.cast_le.mp (sub_le_sub_iff_left _ |>.mp (le_trans (le_abs_self _) nearest))

/-- What lies between a double and a quotient that is rounded to it is also rounded to it. -/
theorem nearest?_eq_of_between (positive : 0 < denominator) (divisorPositive : 0 < divisor)
    (isNearest : nearest? value.negative numerator denominator = some value)
    (isBetween : (quotientUnits numerator denominator ≤ quotientUnits other divisor ∧
        quotientUnits other divisor ≤ value.units) ∨
      (value.units ≤ quotientUnits other divisor ∧
        quotientUnits other divisor ≤ quotientUnits numerator denominator)) :
    nearest? value.negative other divisor = some value := by
  apply nearest?_eq_of_units
  have isRounded := units_of_nearest? isNearest
  rcases isBetween with ⟨above, below⟩ | ⟨above, below⟩
  · apply Nat.le_antisymm (roundedUnits_le_units divisorPositive below)
    rw [isRounded]
    exact roundedUnits_le_roundedUnits positive divisorPositive above
  · apply Nat.le_antisymm _ (units_le_roundedUnits divisorPositive above)
    rw [isRounded]
    exact roundedUnits_le_roundedUnits divisorPositive positive below

theorem error_le_half (positive : 0 < denominator)
    (isNearest : nearest? sign numerator denominator = some value) :
    |(value.units : ℚ) - quotientUnits numerator denominator| ≤ 2 ^ value.scale / 2 := by
  have scaleNotAbove : scaleOf (numerator <<< unitExponent) denominator ≤ value.scale := by
    simp only [nearest?] at isNearest
    split at isNearest
    · rw [← Option.some.inj isNearest]
      simp only [nearestParts]
      split
      · exact Nat.le_succ _
      · exact Nat.le_refl _
    · cases isNearest
  rw [units_of_nearest? isNearest, quotientUnits_eq]
  refine le_trans (roundedUnits_error_scale positive) ?_
  exact div_le_div_of_nonneg_right (pow_le_pow_right₀ (by norm_num) scaleNotAbove) (by norm_num)

theorem error_le (positive : 0 < denominator)
    (isNearest : nearest? sign numerator denominator = some value) :
    |(value.units : ℚ) - quotientUnits numerator denominator| ≤
      max (1 / 2) (quotientUnits numerator denominator / 2 ^ 53) := by
  rw [units_of_nearest? isNearest, quotientUnits_eq]
  exact roundedUnits_error positive

end Double

end TwinSwarm
