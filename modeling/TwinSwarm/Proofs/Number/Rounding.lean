import Mathlib.Data.Nat.Log
import Mathlib.Tactic.Linarith
import TwinSwarm.Proofs.Number.Shortest

/-!
# Rounding keeps the order

A quotient that is not larger than another is not rounded to a larger double.  So where one
quotient is rounded to a finite double, every smaller one is.
-/

namespace TwinSwarm

namespace Double

variable {numerator denominator other divisor : Nat}

/-! ## Rounded quotients -/

theorem roundedQuotient_le (numerator denominator : Nat) :
    roundedQuotient numerator denominator ≤ numerator / denominator + 1 := by
  unfold roundedQuotient
  dsimp only
  split
  · exact Nat.le_succ _
  · split
    · exact Nat.le_refl _
    · omega

theorem div_le_div_of_mul_le (positive : 0 < denominator) (divisorPositive : 0 < divisor)
    (notAbove : numerator * divisor ≤ other * denominator) :
    numerator / denominator ≤ other / divisor := by
  rw [Nat.le_div_iff_mul_le divisorPositive]
  apply Nat.le_of_mul_le_mul_right _ positive
  calc numerator / denominator * divisor * denominator
      = numerator / denominator * denominator * divisor := Nat.mul_right_comm _ _ _
    _ ≤ numerator * divisor := Nat.mul_le_mul_right _ (Nat.div_mul_le_self _ _)
    _ ≤ other * denominator := notAbove

/-- If two quotients have the same whole part, their order is that of their rests. -/
theorem mod_mul_le_mod_mul (notAbove : numerator * divisor ≤ other * denominator)
    (sameWhole : numerator / denominator = other / divisor) :
    numerator % denominator * divisor ≤ other % divisor * denominator := by
  have isNumerator := Nat.div_add_mod numerator denominator
  have isOther := Nat.div_add_mod other divisor
  rw [← sameWhole] at isOther
  rw [← isNumerator, ← isOther] at notAbove
  generalize numerator / denominator = whole at notAbove
  nlinarith

/-- A quotient that is not larger is not rounded to a larger number. -/
theorem roundedQuotient_mono (positive : 0 < denominator) (divisorPositive : 0 < divisor)
    (notAbove : numerator * divisor ≤ other * denominator) :
    roundedQuotient numerator denominator ≤ roundedQuotient other divisor := by
  rcases Nat.lt_or_eq_of_le (div_le_div_of_mul_le positive divisorPositive notAbove) with
    lower | sameWhole
  · calc roundedQuotient numerator denominator ≤ numerator / denominator + 1 :=
          roundedQuotient_le numerator denominator
      _ ≤ other / divisor := lower
      _ ≤ roundedQuotient other divisor := le_roundedQuotient other divisor
  · have restNotAbove := mod_mul_le_mod_mul notAbove sameWhole
    unfold roundedQuotient
    dsimp only
    rw [sameWhole]
    generalize numerator % denominator = rest at *
    generalize other % divisor = otherRest at *
    -- Where the first is rounded up, twice its rest reaches the denominator, and so does twice
    -- the other rest.
    have above (isAbove : denominator < 2 * rest) : divisor < 2 * otherRest := by nlinarith
    have half (isHalf : denominator ≤ 2 * rest) : divisor ≤ 2 * otherRest := by nlinarith
    split
    · split
      · exact Nat.le_refl _
      · split <;> omega
    · rename_i notBelow
      have otherNotBelow := half (Nat.le_of_not_lt notBelow)
      rw [if_neg (Nat.not_lt.mpr otherNotBelow)]
      split
      next isAbove => rw [if_pos (above isAbove)]
      · split <;> omega

/-! ## Rounded numbers of units -/

/-- The scale at which a quotient has a significand of 53 bits. -/
def scaleOf (numerator denominator : Nat) : Nat := Nat.log2 (numerator / denominator) - 52

/-- The number of units to which a quotient is rounded. -/
def roundedUnits (numerator denominator : Nat) : Nat :=
  roundedQuotient numerator (denominator <<< scaleOf numerator denominator) *
    2 ^ scaleOf numerator denominator

theorem significand_le (numerator denominator : Nat) :
    roundedQuotient numerator (denominator <<< scaleOf numerator denominator) ≤ 2 ^ 53 := by
  refine Nat.le_trans (roundedQuotient_le _ _) ?_
  rw [Nat.shiftLeft_eq, ← Nat.div_div_eq_div_mul]
  apply Nat.succ_le_of_lt
  apply Nat.div_lt_of_lt_mul
  rw [← Nat.pow_add]
  calc numerator / denominator < 2 ^ (Nat.log2 (numerator / denominator) + 1) :=
        Nat.lt_log2_self
    _ ≤ 2 ^ (scaleOf numerator denominator + 53) :=
        Nat.pow_le_pow_right (by decide) (by rw [scaleOf]; omega)

/-- The leading bit of a quotient that is scaled stands 52 bits in front of its scale. -/
theorem pow_le_div_of_scaled (scaled : 0 < scaleOf numerator denominator) :
    2 ^ (52 + scaleOf numerator denominator) ≤ numerator / denominator := by
  rw [scaleOf] at scaled ⊢
  have isLog : 52 + (Nat.log2 (numerator / denominator) - 52) =
      Nat.log2 (numerator / denominator) := by omega
  rw [isLog]
  apply Nat.log2_self_le
  intro isZero
  rw [isZero] at scaled
  exact absurd scaled (by decide)

theorem le_significand (scaled : 0 < scaleOf numerator denominator) :
    2 ^ 52 ≤ roundedQuotient numerator (denominator <<< scaleOf numerator denominator) := by
  refine Nat.le_trans ?_ (le_roundedQuotient _ _)
  rw [Nat.shiftLeft_eq, ← Nat.div_div_eq_div_mul, Nat.le_div_iff_mul_le (Nat.two_pow_pos _),
    ← Nat.pow_add]
  exact pow_le_div_of_scaled scaled

theorem roundedUnits_mono (positive : 0 < denominator) (divisorPositive : 0 < divisor)
    (notAbove : numerator * divisor ≤ other * denominator) :
    roundedUnits numerator denominator ≤ roundedUnits other divisor := by
  have scaleNotAbove : scaleOf numerator denominator ≤ scaleOf other divisor := by
    apply Nat.sub_le_sub_right
    rw [Nat.log2_eq_log_two, Nat.log2_eq_log_two]
    exact Nat.log_mono_right (div_le_div_of_mul_le positive divisorPositive notAbove)
  unfold roundedUnits
  have low := significand_le numerator denominator
  rcases Nat.lt_or_eq_of_le scaleNotAbove with lower | sameScale
  · -- The largest significand of the lower scale is the least one of the scale above.
    have high : 2 ^ 52 ≤ roundedQuotient other (divisor <<< scaleOf other divisor) :=
      le_significand (Nat.zero_lt_of_lt lower)
    generalize scaleOf numerator denominator = scale at *
    calc _ ≤ 2 ^ 53 * 2 ^ scale := Nat.mul_le_mul_right _ low
      _ = 2 ^ 52 * 2 ^ (scale + 1) := by omega
      _ ≤ 2 ^ 52 * 2 ^ scaleOf other divisor :=
          Nat.mul_le_mul_left _ (Nat.pow_le_pow_right (by decide) lower)
      _ ≤ _ := Nat.mul_le_mul_right _ high
  · rw [sameScale]
    apply Nat.mul_le_mul_right
    simp only [Nat.shiftLeft_eq]
    apply roundedQuotient_mono (Nat.mul_pos positive (Nat.two_pow_pos _))
      (Nat.mul_pos divisorPositive (Nat.two_pow_pos _))
    simp only [← Nat.mul_assoc]
    exact Nat.mul_le_mul_right _ notAbove

/-- A power of two is not rounded. -/
theorem roundedUnits_pow (power : Nat) : roundedUnits (2 ^ power) 1 = 2 ^ power := by
  have isScale : scaleOf (2 ^ power) 1 ≤ power := by
    rw [scaleOf, Nat.div_one, Nat.log2_two_pow]
    exact Nat.sub_le _ _
  have isDivisor := Nat.pow_dvd_pow 2 isScale
  rw [roundedUnits, Nat.one_shiftLeft, roundedQuotient, Nat.mod_eq_zero_of_dvd isDivisor,
    if_pos (Nat.two_pow_pos _), Nat.div_mul_cancel isDivisor]

/-- A significand and a scale have the form that the parts of a double have, but for a scale that
may be too large. -/
structure IsNormal (significand scale : Nat) : Prop where
  low : significand < 2 * leadingBit
  leads : scale = 0 ∨ leadingBit ≤ significand

theorem nearestParts_isNormal (numerator denominator : Nat) :
    IsNormal (nearestParts numerator denominator).1 (nearestParts numerator denominator).2 := by
  have low := significand_le numerator denominator
  have leads := @le_significand numerator denominator
  have isBit : leadingBit = 2 ^ 52 := rfl
  simp only [nearestParts, scaleOf] at low leads ⊢
  split
  next => exact ⟨by dsimp only; omega, .inr (Nat.le_refl _)⟩
  next => constructor <;> omega

theorem nearestParts_units (numerator denominator : Nat) :
    (nearestParts numerator denominator).1 * 2 ^ (nearestParts numerator denominator).2 =
      roundedUnits numerator denominator := by
  simp only [nearestParts, roundedUnits, scaleOf]
  split
  next isCarried =>
    rw [isCarried, Nat.pow_succ, Nat.mul_comm 2 leadingBit, Nat.mul_assoc, Nat.mul_comm 2]
  next => rfl

theorem units_eq (value : Double) : value.units = value.significand * 2 ^ value.scale :=
  Nat.shiftLeft_eq _ _

theorem units_lt (value : Double) : value.units < leadingBit * 2 ^ (value.scale + 1) := by
  rw [units_eq, Nat.pow_succ, Nat.mul_comm _ 2, ← Nat.mul_assoc, Nat.mul_comm leadingBit]
  exact Nat.mul_lt_mul_of_pos_right value.canonical.1 (Nat.two_pow_pos _)

/-- What has no more units than a double has no larger scale than doubles have. -/
theorem IsNormal.scale_le {significand scale : Nat} (isNormal : IsNormal significand scale)
    (value : Double) (notAbove : significand * 2 ^ scale ≤ value.units) :
    scale ≤ largestScale := by
  rcases isNormal.leads with isZero | leads
  · exact isZero ▸ Nat.zero_le _
  · apply Nat.le_of_not_lt
    intro tooLarge
    apply Nat.not_lt_of_le notAbove
    have scaleLow := value.canonical.2.1
    calc value.units < leadingBit * 2 ^ (value.scale + 1) := value.units_lt
      _ ≤ leadingBit * 2 ^ scale :=
          Nat.mul_le_mul_left _ (Nat.pow_le_pow_right (by decide) (by omega))
      _ ≤ significand * 2 ^ scale := Nat.mul_le_mul_right _ leads

/-! ## Doubles -/

variable {value limit : Double} {sign limitSign : Bool}

theorem nearest?_zero (sign : Bool) (denominator : Nat) :
    nearest? sign 0 denominator = some (zero sign) := by
  have noUnits (denominator : Nat) : roundedQuotient 0 denominator = 0 := by
    simp [roundedQuotient]
  have noParts : nearestParts (0 <<< unitExponent) denominator = (0, 0) := by
    simp [nearestParts, noUnits, leadingBit]
  rw [nearest?, noParts]
  rfl

theorem units_of_nearest? (isNearest : nearest? sign numerator denominator = some value) :
    value.units = roundedUnits (numerator <<< unitExponent) denominator := by
  rw [← nearestParts_units]
  simp only [nearest?] at isNearest
  split at isNearest
  · rw [← Option.some.inj isNearest, units_eq]
  · cases isNearest

/-- A quotient that is not larger than one that is rounded to a finite double is rounded to a
finite double that is not larger. -/
theorem exists_nearest?_of_le (sign : Bool) (positive : 0 < denominator)
    (divisorPositive : 0 < divisor) (isLimit : nearest? limitSign other divisor = some limit)
    (notAbove : numerator * divisor ≤ other * denominator) :
    ∃ value, nearest? sign numerator denominator = some value ∧ value.units ≤ limit.units := by
  have unitsNotAbove : roundedUnits (numerator <<< unitExponent) denominator ≤ limit.units := by
    rw [units_of_nearest? isLimit]
    apply roundedUnits_mono positive divisorPositive
    rw [Nat.shiftLeft_eq, Nat.shiftLeft_eq, Nat.mul_right_comm, Nat.mul_right_comm other]
    exact Nat.mul_le_mul_right _ notAbove
  have isNormal := nearestParts_isNormal (numerator <<< unitExponent) denominator
  have isCanonical : IsCanonical (nearestParts (numerator <<< unitExponent) denominator).1
      (nearestParts (numerator <<< unitExponent) denominator).2 := by
    refine ⟨isNormal.low, isNormal.scale_le limit ?_, isNormal.leads⟩
    rw [nearestParts_units]
    exact unitsNotAbove
  refine ⟨⟨sign, _, _, isCanonical⟩, dif_pos isCanonical, ?_⟩
  rw [units_eq, nearestParts_units]
  exact unitsNotAbove

/-- A natural number that is not larger than one that is rounded to a finite double is rounded to
one that is not larger. -/
theorem exists_ofNat?_of_le {number limitNumber : Nat} (isLimit : ofNat? limitNumber = some limit)
    (notAbove : number ≤ limitNumber) :
    ∃ value, ofNat? number = some value ∧ value.units ≤ limit.units := by
  apply exists_nearest?_of_le false Nat.one_pos Nat.one_pos isLimit
  rw [Nat.mul_one, Nat.mul_one]
  exact notAbove

/-- The largest finite double. -/
def largest : Double := ⟨false, 2 * leadingBit - 1, largestScale, by decide⟩

theorem units_le_largest (value : Double) : value.units ≤ largest.units := by
  rcases value.canonical with ⟨low, scaleLow, _⟩
  rw [units_eq, units_eq]
  exact Nat.mul_le_mul (Nat.le_pred_of_lt low) (Nat.pow_le_pow_right (by decide) scaleLow)

/-- The magnitude of the largest double has only this form. -/
theorem parts_of_units_eq_largest (isLargest : value.units = largest.units) :
    value.significand = largest.significand ∧ value.scale = largest.scale := by
  have sameScale : value.scale = largest.scale := by
    apply Nat.le_antisymm value.canonical.2.1
    apply Nat.le_of_not_lt
    intro tooSmall
    have leads : leadingBit ≤ largest.significand := by decide
    have higher : 2 ^ (value.scale + 1) ≤ 2 ^ largest.scale :=
      Nat.pow_le_pow_right Nat.two_pos tooSmall
    have below : value.units < largest.units :=
      calc value.units < leadingBit * 2 ^ (value.scale + 1) := value.units_lt
        _ ≤ largest.significand * 2 ^ largest.scale :=
            Nat.mul_le_mul leads higher
        _ = largest.units := largest.units_eq.symm
    exact absurd isLargest (Nat.ne_of_lt below)
  rw [units_eq, units_eq, ← sameScale] at isLargest
  exact ⟨Nat.eq_of_mul_eq_mul_right (Nat.two_pow_pos _) isLargest, sameScale⟩

variable {left right : Double}

/-- A product is finite if that of larger factors is. -/
theorem exists_times?_of_le {leftLimit rightLimit : Double}
    (isLimit : leftLimit.times? rightLimit = some limit) (leftLow : left.units ≤ leftLimit.units)
    (rightLow : right.units ≤ rightLimit.units) : ∃ value, left.times? right = some value := by
  rcases exists_nearest?_of_le (left.negative != right.negative)
    (show 0 < 1 <<< (2 * unitExponent) by decide) (by decide) isLimit
      (Nat.mul_le_mul_right _ (Nat.mul_le_mul leftLow rightLow)) with ⟨value, isValue, _⟩
  exact ⟨value, isValue⟩

end Double

end TwinSwarm
