import TwinSwarm.Grammar.Expression
import TwinSwarm.Proofs.Json.Rereading
import TwinSwarm.Proofs.Tree.Restoring

/-!
# Decimal literals are nearly read back

A number with a point is read from a source text as the nearest double.  From a document it is read
by another reader, which rounds several times, so it may come back as a neighbour.
-/

namespace TwinSwarm

open Json (WholesFit)

/-! ## Numbers with a point -/

namespace Numeral

variable {whole fraction : List Char}

theorem splitDigits_append {digits : List Char} (rest : List Char)
    (areDigits : ∀ digit ∈ digits, digit.isDigit = true) :
    splitDigits (digits ++ rest) = (digits ++ (splitDigits rest).1, (splitDigits rest).2) := by
  rw [splitDigits, List.takeWhile_append_of_pos areDigits, List.dropWhile_append_of_pos areDigits]
  rfl

/-- A number with a point is read as the double nearest to its digits. -/
theorem double?_of_point (wholeDigits : Json.Numeral.IsDigits whole)
    (fractionDigits : Json.Numeral.IsDigits fraction) :
    double? (whole ++ '.' :: fraction) =
      Double.ofDecimal? false (ofDigits (whole ++ fraction)) (-fraction.length) := by
  have noSign : splitSign (whole ++ '.' :: fraction) = (false, whole ++ '.' :: fraction) := by
    rcases wholeDigits with ⟨notEmpty, areDigits⟩
    cases whole with
    | nil => exact absurd rfl notEmpty
    | cons first rest =>
        have isDigit := areDigits first List.mem_cons_self
        -- A number begins with a digit, which is no sign.
        have notSign {sign : Char} (isSign : sign.isDigit = false) : first ≠ sign := by
          rintro rfl
          rw [isSign] at isDigit
          cases isDigit
        unfold splitSign
        split
        next same => exact absurd (List.head_eq_of_cons_eq same) (notSign rfl)
        next same => exact absurd (List.head_eq_of_cons_eq same) (notSign rfl)
        next => rfl
  have isWhole : splitDigits (whole ++ '.' :: fraction) = (whole, '.' :: fraction) := by
    rw [splitDigits_append _ wholeDigits.2]
    exact congrArg (·, _) (List.append_nil whole)
  have isFraction : splitFraction ('.' :: fraction) = (fraction, []) := by
    have split := splitDigits_append [] fractionDigits.2
    rw [List.append_nil] at split
    exact split.trans (congrArg (·, _) (List.append_nil fraction))
  simp only [double?, noSign, isWhole, isFraction]
  rw [if_neg (fun isEmpty => wholeDigits.1 isEmpty.1)]
  show Double.ofDecimal? false _ (0 - (fraction.length : Int)) = _
  rw [Int.zero_sub]

end Numeral

namespace Program

variable {program : Program}

/-- A program of limited nesting is read back from its text, but for its doubles. -/
theorem exists_reread (shallow : program.toJson.nesting ≤ Json.Reading.levelLimit)
    (locationsFit : ∀ location ∈ program.locations, location.Fits) :
    ∃ read, ofJsonText program.jsonText = .ok read ∧
      read.toJson = program.toJson.mapDoubles Double.reread := by
  have fit := wholesFit locationsFit
  rcases Json.exists_map_eq_mapDoubles Double.reread
    (Declaration.exists_toJson_eq_mapDoubles Double.reread) program.declarations with
    ⟨declarations, changed⟩
  have isChanged : (⟨declarations⟩ : Program).toJson = program.toJson.mapDoubles Double.reread := by
    simp [toJson, Json.mapDoubles, Json.mapDoublesOfMembers, changed]
  have changedFit : WholesFit (⟨declarations⟩ : Program).toJson.leaves :=
    isChanged ▸ fit.mapDoubles Double.reread
  rcases exists_read_of_edited changedFit (.refl _) with ⟨read, sameJson, isRead⟩
  refine ⟨read, isRead _ ?_, sameJson.trans isChanged⟩
  rw [isChanged]
  exact wholeText_kept shallow fit

/-- A number with a point that is accepted is the decimal literal of the nearest double.  Where it
stands in a program, another decimal is read back from the document of the program: the digits and
the power of ten of its shortest decimal are rounded, and so is their product or quotient.  This
decimal has the same sign and is at most four units in the last place away.  It is the same one if
the literal is nearest to any number with at most fifteen digits and twenty-two places. -/
theorem decimal_is_nearly_read {whole fraction : List Char} {literal : Literal}
    (wholeDigits : Json.Numeral.IsDigits whole) (fractionDigits : Json.Numeral.IsDigits fraction)
    (accepted : Grammar.numberLiteral (String.ofList (whole ++ '.' :: fraction)) = .ok literal) :
    ∃ value : Double, literal = .decimal value ∧
      (∀ other : Double,
        |value.magnitude - Numeral.ofDigits (whole ++ fraction) / 10 ^ fraction.length| ≤
          |other.magnitude - Numeral.ofDigits (whole ++ fraction) / 10 ^ fraction.length|) ∧
      (∀ program : Program, program.toJson.nesting ≤ Json.Reading.levelLimit →
        (∀ location ∈ program.locations, location.Fits) →
          ∃ read, ofJsonText program.jsonText = .ok read ∧
            read.toJson = program.toJson.mapDoubles Double.reread) ∧
      (∃ (digits : Nat) (exponent : Int),
        (digits : ℚ) * 10 ^ exponent = value.shortest.digits * 10 ^ value.shortest.exponent ∧
          Json.Numeral.scaled? digits exponent = some value.reread) ∧
      value.reread.negative = value.negative ∧
      |(value.reread.units : ℤ) - value.units| ≤ 4 * 2 ^ value.scale ∧
      ∀ digits places : Nat, digits < 10 ^ 15 → places ≤ 22 →
        Double.ofDecimal? false digits (-places) = some value → value.reread = value := by
  have isPoint : '.' ∈ (String.ofList (whole ++ '.' :: fraction)).toList := by simp
  rw [Grammar.numberLiteral, if_pos isPoint, String.toList_ofList,
    Numeral.double?_of_point wholeDigits fractionDigits] at accepted
  split at accepted
  next value isDecimal =>
    cases accepted
    have notNegative : value.negative = false :=
      Double.ofDecimal?_negative isDecimal
    refine ⟨value, rfl, Double.magnitude_nearest isDecimal, fun _ => exists_reread,
      Double.exists_scaled_reread notNegative, value.reread_near.1, value.reread_near.2, ?_⟩
    intro digits places few short isRead
    exact Double.reread_eq_self few short (notNegative ▸ isRead)
  next => cases accepted

/-- The double nearest to a number with sixteen digits, which are more than 53 bits. -/
def sixteenDigits : Double := ⟨false, 8734737800311528, 1021, by decide⟩

/-- The digits behind the point. -/
def sixteenDigitsText : List Char := "9697507019969551".toList

theorem sixteenDigitsText_isDigits : Json.Numeral.IsDigits sixteenDigitsText :=
  ⟨by decide, List.all_eq_true.mp (by decide)⟩

theorem reread_sixteenDigits :
    sixteenDigits.reread.significand = sixteenDigits.significand + 1 := by
  have isWritten : (⟨false, ['0'], some sixteenDigitsText, none⟩ : Json.Numeral).IsWritten := by
    constructor
    · exact .zero
    · intro digits isFraction
      cases isFraction
      exact sixteenDigitsText_isDigits
    · intro _ digits isExponent
      cases isExponent
  have isText : (⟨false, ['0'], some sixteenDigitsText, none⟩ : Json.Numeral).text =
      sixteenDigits.text := by
    decide +kernel
  rw [Double.reread, Json.Reading.reread?_eq_doubleValue isWritten (.inl rfl) isText]
  decide +kernel

/-- A rule with the literal for its condition. -/
def ofSixteenDigits : Program :=
  ⟨[.rule ⟨"R", some (.literal (.decimal sixteenDigits)), [], ⟨1, 1⟩⟩]⟩

theorem sixteenDigits_are_moved :
    Grammar.numberLiteral (String.ofList ('0' :: '.' :: sixteenDigitsText)) =
        .ok (.decimal sixteenDigits) ∧
      sixteenDigits.reread ≠ sixteenDigits ∧
      |(sixteenDigits.reread.units : ℤ) - sixteenDigits.units| ≤ 4 * 2 ^ sixteenDigits.scale ∧
      ∃ read, ofJsonText ofSixteenDigits.jsonText = .ok read ∧ read ≠ ofSixteenDigits := by
  have accepted : Grammar.numberLiteral (String.ofList (['0'] ++ '.' :: sixteenDigitsText)) =
      .ok (.decimal sixteenDigits) := by
    decide +kernel
  have moved : sixteenDigits.reread ≠ sixteenDigits := by
    intro same
    have isNext := reread_sixteenDigits
    rw [same] at isNext
    exact absurd isNext (Nat.ne_of_lt (Nat.lt_succ_self _))
  rcases decimal_is_nearly_read (.of_digit rfl) sixteenDigitsText_isDigits accepted with
    ⟨value, isValue, _, isRead, _, _, near, _⟩
  cases isValue
  have locationsFit : ∀ location ∈ ofSixteenDigits.locations, location.Fits := by
    simpa [ofSixteenDigits, locations, Declaration.locations, Statement.locationsOfAll]
      using (by decide : (⟨1, 1⟩ : Location).Fits)
  rcases isRead ofSixteenDigits (by decide) locationsFit with ⟨read, isOther, changed⟩
  refine ⟨accepted, moved, near, read, isOther, ?_⟩
  rintro rfl
  have isLeaf : .float sixteenDigits ∈ ofSixteenDigits.toJson.leaves := by
    simp [ofSixteenDigits, toJson, Declaration.toJson, Declaration.members, Location.member,
      Location.toJson, Expression.optionalToJson, Expression.toJson, Literal.toJson,
      Json.leavesOfMembers, Json.leavesOfAll, Json.leaves]
  exact moved ((Json.mapDoubles_eq_self_iff _).mp changed.symm _ isLeaf)

end Program

end TwinSwarm
