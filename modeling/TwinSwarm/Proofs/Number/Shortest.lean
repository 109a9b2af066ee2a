import Mathlib.Algebra.Order.Ring.Nat
import Mathlib.Tactic.NormNum
import TwinSwarm.Number.Shortest

/-!
# The digits of a double

The shortest decimal of a double that is not zero has a digit that is not zero, so its
text has digits before and behind the point and no superfluous zero at its start.
-/

namespace TwinSwarm

/-! ## Digits of natural numbers -/

/-- The digits of a number that is not zero do not begin with a zero. -/
theorem exists_toDigits_eq_cons {number : Nat} (positive : 0 < number) :
    ∃ first rest, Nat.toDigits 10 number = first :: rest ∧ first ≠ '0' := by
  induction number using Nat.strongRecOn with
  | ind number shorter =>
      by_cases oneDigit : number < 10
      · refine ⟨number.digitChar, [], Nat.toDigits_of_lt_base oneDigit, ?_⟩
        have notZero : ∀ digit < 10, 0 < digit → digit.digitChar ≠ '0' := by decide
        exact notZero number oneDigit positive
      · have split := Nat.toDigits_of_base_le (b := 10) (by decide) (Nat.le_of_not_lt oneDigit)
        rcases shorter (number / 10) (by omega) (by omega) with ⟨first, rest, digits, notZero⟩
        refine ⟨first, rest ++ [(number % 10).digitChar], ?_, notZero⟩
        rw [split, digits]
        rfl

theorem isDigit_of_mem_toDigits {number : Nat} {digit : Char}
    (isMember : digit ∈ Nat.toDigits 10 number) : digit.isDigit = true :=
  Nat.isDigit_of_mem_toDigits (by decide) (by decide) isMember

namespace Double

/-- Without the zeros at its end, a number that is not zero still begins with the same
digit. -/
theorem exists_significantDigits_eq_cons {number : Nat} (positive : 0 < number) :
    ∃ first rest, significantDigits number = first :: rest ∧ first ≠ '0' := by
  rcases exists_toDigits_eq_cons positive with ⟨first, rest, digits, notZero⟩
  rw [significantDigits, digits, List.reverse_cons, List.dropWhile_append]
  split
  · refine ⟨first, [], ?_, notZero⟩
    rw [List.dropWhile_cons_of_neg (by simpa using notZero)]
    rfl
  · refine ⟨first, (rest.reverse.dropWhile (· = '0')).reverse, ?_, notZero⟩
    rw [List.reverse_append]
    rfl

theorem isDigit_of_mem_significantDigits {number : Nat} {digit : Char}
    (isMember : digit ∈ significantDigits number) : digit.isDigit = true := by
  rw [significantDigits, List.mem_reverse] at isMember
  have isDigit := (List.dropWhile_sublist _).subset isMember
  rw [List.mem_reverse] at isDigit
  exact isDigit_of_mem_toDigits isDigit

/-! ## The shortest decimal -/

variable {value : Double}

theorem isReadFrom_zero_digits (exponent : Int) (notZero : value.isZero = false) :
    value.isReadFrom ⟨0, exponent⟩ = false := by
  simp only [isReadFrom, ofDecimal?, if_true, decide_eq_false_iff_not]
  intro found
  rw [← Option.some.inj found] at notZero
  cases notZero

theorem le_roundedQuotient (numerator denominator : Nat) :
    numerator / denominator ≤ roundedQuotient numerator denominator := by
  unfold roundedQuotient
  dsimp only
  split
  · exact Nat.le_refl _
  · split
    · exact Nat.le_succ _
    · exact Nat.le_add_right _ _

/-- A grid on which zero would do as well finds no decimal. -/
theorem digits_pos_of_onGrid? {exponent : Int} {decimal : Decimal}
    (notZero : value.isZero = false) (found : value.onGrid? exponent = some decimal) :
    0 < decimal.digits := by
  have belowPositive : value.isReadFrom
      ⟨(value.inSteps exponent).1 / (value.inSteps exponent).2, exponent⟩ = true →
      0 < (value.inSteps exponent).1 / (value.inSteps exponent).2 := by
    intro isRead
    apply Nat.pos_of_ne_zero
    intro isZero
    rw [isZero, isReadFrom_zero_digits exponent notZero] at isRead
    cases isRead
  unfold onGrid? at found
  dsimp only at found
  split at found
  · case h_1 belowRead _ =>
      cases found
      exact Nat.lt_of_lt_of_le (belowPositive belowRead) (le_roundedQuotient _ _)
  · case h_2 belowRead _ =>
      cases found
      exact belowPositive belowRead
  · cases found
    exact Nat.succ_pos _
  · cases found

/-- A number has at least the value of a one at its first digit. -/
theorem pow_le_of_digitCount {number : Nat} (positive : 0 < number) :
    10 ^ (digitCount number - 1) ≤ number := by
  by_cases oneDigit : digitCount number = 1
  · rw [oneDigit]
    exact positive
  · have several : 0 < digitCount number - 1 := by
      have atLeastOne : 0 < digitCount number := Nat.length_toDigits_pos
      omega
    apply Nat.le_of_not_lt
    intro tooSmall
    have fewer := (Nat.length_toDigits_le_iff (by decide) several).mpr tooSmall
    rw [digitCount] at several fewer
    omega

/-- The least positive double is not below `10 ^ -340`. -/
theorem counted_pos (notZero : value.isZero = false) :
    0 < value.units * 10 ^ countingPlaces / 2 ^ unitExponent := by
  have unitsPositive : 0 < value.units := by
    rw [units, Nat.shiftLeft_eq]
    apply Nat.mul_pos _ (Nat.two_pow_pos _)
    simpa [isZero, Nat.pos_iff_ne_zero] using notZero
  apply Nat.div_pos _ (Nat.two_pow_pos _)
  have places : countingPlaces = 20 * 17 := rfl
  rw [places]
  calc 2 ^ unitExponent ≤ 2 ^ (64 * 17) := Nat.pow_le_pow_right (by decide) (by decide)
    _ = (2 ^ 64) ^ 17 := pow_mul 2 64 17
    _ ≤ (10 ^ 20) ^ 17 := Nat.pow_le_pow_left (by decide) 17
    _ = 10 ^ (20 * 17) := (pow_mul 10 20 17).symm
    _ ≤ value.units * 10 ^ (20 * 17) := Nat.le_mul_of_pos_left _ unitsPositive

/-- The magnitude has a digit at its leading exponent. -/
theorem leading_le_units (notZero : value.isZero = false) :
    10 ^ (digitCount (value.units * 10 ^ countingPlaces / 2 ^ unitExponent) - 1) *
      2 ^ unitExponent ≤ value.units * 10 ^ countingPlaces := by
  have positive := counted_pos notZero
  generalize counted : value.units * 10 ^ countingPlaces / 2 ^ unitExponent = count at positive
  calc 10 ^ (digitCount count - 1) * 2 ^ unitExponent ≤ count * 2 ^ unitExponent :=
        Nat.mul_le_mul_right _ (pow_le_of_digitCount positive)
    _ ≤ value.units * 10 ^ countingPlaces := by
        rw [← counted]
        exact Nat.div_mul_le_self _ _

/-- Counted in steps of the seventeenth digit, a number that is not zero has at least one
step. -/
theorem finest_steps_pos (notZero : value.isZero = false) :
    0 < (value.inSteps (value.leadingExponent + 1 - largestDigitCount)).1 /
      (value.inSteps (value.leadingExponent + 1 - largestDigitCount)).2 := by
  have leading := leading_le_units notZero
  have positive : 0 < digitCount (value.units * 10 ^ countingPlaces / 2 ^ unitExponent) :=
    Nat.length_toDigits_pos
  rw [leadingExponent, Nat.pow_eq, Nat.shiftRight_eq_div_pow]
  generalize digitCount (value.units * 10 ^ countingPlaces / 2 ^ unitExponent) = count at *
  generalize isFinest : (count : Int) - 1 - countingPlaces + 1 - largestDigitCount = finest
  have counting : countingPlaces = 340 := rfl
  have largest : largestDigitCount = 17 := rfl
  -- Steps of one or more scale the denominator and smaller ones the numerator.  In either case
  -- both sides are brought to the places in which the leading exponent was counted.
  cases finest with
  | ofNat power =>
      have places : count - 1 = power + 16 + countingPlaces := by
        simp only [Int.ofNat_eq_natCast] at isFinest
        omega
      rw [inSteps, Nat.pow_eq, Nat.shiftLeft_eq, Nat.mul_comm (10 ^ power)]
      apply Nat.div_pos _ (Nat.mul_pos (Nat.two_pow_pos _) (Nat.pow_pos (by decide)))
      apply Nat.le_of_mul_le_mul_right _ (Nat.pow_pos (n := countingPlaces) (a := 10) (by decide))
      calc 2 ^ unitExponent * 10 ^ power * 10 ^ countingPlaces
            ≤ 2 ^ unitExponent * 10 ^ (power + 16) * 10 ^ countingPlaces :=
          Nat.mul_le_mul_right _
            (Nat.mul_le_mul_left _ (Nat.pow_le_pow_right (by decide) (Nat.le_add_right _ _)))
        _ = 10 ^ (count - 1) * 2 ^ unitExponent := by
          rw [places, pow_add 10 (power + 16) countingPlaces, Nat.mul_assoc, Nat.mul_comm]
        _ ≤ value.units * 10 ^ countingPlaces := leading
  | negSucc power =>
      have places : countingPlaces + 16 = power + 1 + (count - 1) := by omega
      rw [inSteps, Nat.pow_eq, Nat.shiftLeft_eq, Nat.one_mul]
      apply Nat.div_pos _ (Nat.two_pow_pos _)
      apply Nat.le_of_mul_le_mul_right _ (Nat.pow_pos (n := count - 1) (a := 10) (by decide))
      calc 2 ^ unitExponent * 10 ^ (count - 1) = 10 ^ (count - 1) * 2 ^ unitExponent :=
          Nat.mul_comm _ _
        _ ≤ value.units * 10 ^ countingPlaces := leading
        _ ≤ value.units * 10 ^ (countingPlaces + 16) :=
          Nat.mul_le_mul_left _ (Nat.pow_le_pow_right (by decide) (Nat.le_add_right _ _))
        _ = value.units * 10 ^ (power + 1) * 10 ^ (count - 1) := by
          rw [places, pow_add 10 (power + 1), Nat.mul_assoc]

/-- The shortest decimal of a double that is not zero is found on one of the grids of seventeen
digits, or it is the double cut off behind the last of them. -/
theorem shortest_cases (notZero : value.isZero = false) :
    (∃ fewer < largestDigitCount,
        value.onGrid? (value.leadingExponent - (fewer : Int)) = some value.shortest) ∨
      value.shortest =
        ⟨(value.inSteps (value.leadingExponent + 1 - largestDigitCount)).1 /
            (value.inSteps (value.leadingExponent + 1 - largestDigitCount)).2,
          value.leadingExponent + 1 - largestDigitCount⟩ := by
  unfold shortest
  dsimp only
  rw [if_neg (by simp [notZero])]
  cases found : (List.range largestDigitCount).findSome? fun (fewer : Nat) =>
      value.onGrid? (value.leadingExponent - (fewer : Int)) with
  | none => exact .inr rfl
  | some decimal =>
      rcases List.exists_of_findSome?_eq_some found with ⟨fewer, isFew, onGrid⟩
      exact .inl ⟨fewer, List.mem_range.mp isFew, onGrid⟩

/-- The shortest decimal of a double that is not zero is not zero. -/
theorem shortest_digits_pos (notZero : value.isZero = false) : 0 < value.shortest.digits := by
  rcases shortest_cases notZero with ⟨fewer, _, onGrid⟩ | isCutOff
  · exact digits_pos_of_onGrid? notZero onGrid
  · rw [isCutOff]
    exact finest_steps_pos notZero

end Double

end TwinSwarm
