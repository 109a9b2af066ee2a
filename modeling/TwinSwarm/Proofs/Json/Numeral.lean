import TwinSwarm.Proofs.Json.Reading

/-!
# Numbers are read as they are written

The text of a number is put together from its parts, and the reader of numbers takes
it apart again into the same parts, as long as the text that follows does not continue
the number.  So what becomes of a number depends on its parts alone.  A whole number of
64 bits is read back as itself.
-/

namespace TwinSwarm.Json

variable {levels : Nat} {after : List Char}

/-- What comes after a value inside a text that was written: nothing, a comma or a line
feed. -/
def Delimits (after : List Char) : Prop :=
  ∀ next ∈ after.head?, next = ',' ∨ next = '\n'

namespace Delimits

theorem nil : Delimits [] := by
  intro next isNext
  cases isNext

theorem comma (rest : List Char) : Delimits (',' :: rest) := by
  intro next isNext
  cases isNext
  exact .inl rfl

theorem line (depth : Nat) (rest : List Char) : Delimits (lineText depth rest) := by
  intro next isNext
  cases isNext
  exact .inr rfl

/-- A delimiter fails every test that a comma and a line feed fail. -/
theorem any_eq_false (delimits : Delimits after) {test : Char → Bool}
    (comma : test ',' = false) (lineFeed : test '\n' = false) :
    after.head?.any test = false := by
  cases after with
  | nil => rfl
  | cons next rest =>
      rcases delimits next rfl with rfl | rfl
      · exact comma
      · exact lineFeed

theorem head?_ne (delimits : Delimits after) {character : Char} (notComma : ',' ≠ character)
    (notLineFeed : '\n' ≠ character) : after.head? ≠ some character := by
  intro found
  rcases delimits character found with rfl | rfl
  · exact notComma rfl
  · exact notLineFeed rfl

end Delimits

/-! ## Written numbers -/

namespace Numeral

/-- One digit or more. -/
def IsDigits (digits : List Char) : Prop :=
  digits ≠ [] ∧ ∀ digit ∈ digits, digit.isDigit = true

theorem IsDigits.of_digit {digit : Char} (isDigit : digit.isDigit = true) : IsDigits [digit] :=
  ⟨List.cons_ne_nil digit [], List.forall_mem_singleton.mpr isDigit⟩

/-- The digits before the point: a zero alone, or digits that do not begin with one. -/
inductive IsWhole : List Char → Prop where
  | zero : IsWhole ['0']
  | digits {first : Char} {rest : List Char} :
      first ≠ '0' → (∀ digit ∈ first :: rest, digit.isDigit = true) → IsWhole (first :: rest)

/-- The parts of a number that can be written. -/
structure IsWritten (numeral : Numeral) : Prop where
  whole : IsWhole numeral.whole
  fraction : ∀ digits, numeral.fraction = some digits → IsDigits digits
  exponent : ∀ negative digits, numeral.exponent = some (negative, digits) → IsDigits digits

/-- The point and the digits behind it. -/
def fractionText : Option (List Char) → List Char
  | none => []
  | some digits => '.' :: digits

/-- The mark of an exponent, its sign and its digits. -/
def exponentText : Option (Bool × List Char) → List Char
  | none => []
  | some (downward, digits) => 'e' :: (if downward then '-' else '+') :: digits

/-- A number without its sign. -/
def magnitudeText (numeral : Numeral) : List Char :=
  numeral.whole ++ (fractionText numeral.fraction ++ exponentText numeral.exponent)

/-- The text of a number. -/
def text (numeral : Numeral) : List Char :=
  if numeral.negative then '-' :: numeral.magnitudeText else numeral.magnitudeText

end Numeral

/-! ## Reading the parts -/

namespace Reading

theorem digits_answers {found : List Char} (areDigits : ∀ digit ∈ found, digit.isDigit = true)
    (ends : after.head?.any Char.isDigit = false) :
    digits.Answers levels (found ++ after) after (some found) := by
  have noneTaken : after.takeWhile Char.isDigit = [] := by
    cases after with
    | nil => rfl
    | cons next rest => exact List.takeWhile_cons_of_neg (by simpa using ends)
  have noneDropped : after.dropWhile Char.isDigit = after := by
    cases after with
    | nil => rfl
    | cons next rest => exact List.dropWhile_cons_of_neg (by simpa using ends)
  intro passage isText
  refine ⟨passage.dropAscii Char.isDigit, ?_, ?_⟩
  · rw [digits, isText, List.takeWhile_append_of_pos areDigits, noneTaken, List.append_nil]
  · show passage.rest.dropWhile Char.isDigit = after
    rw [isText, List.dropWhile_append_of_pos areDigits, noneDropped]

theorem wholeDigits_answers (manner : Manner) {found : List Char}
    (isWhole : Numeral.IsWhole found) (ends : after.head?.any Char.isDigit = false) :
    (wholeDigits manner).Answers levels (found ++ after) after (some found) := by
  apply Answers.of_next
  cases isWhole with
  | zero =>
      show Answers (if '0' = '0' then _ else _) levels _ after _
      rw [if_pos rfl]
      apply Answers.of_passed
      apply Answers.of_next
      rw [if_neg (by simp [ends])]
      exact Answers.of_pure ['0'] levels after
  | @digits first rest notZero areDigits =>
      show Answers (if first = '0' then _ else if first.isDigit then _ else _) levels _ after _
      rw [if_neg notZero, if_pos (areDigits first List.mem_cons_self)]
      exact digits_answers areDigits ends

theorem fractionDigits_answers (manner : Manner) {found : Option (List Char)}
    (areDigits : ∀ digits, found = some digits → Numeral.IsDigits digits)
    (ends : after.head?.any Char.isDigit = false) (noPoint : after.head? ≠ some '.') :
    (fractionDigits manner).Answers levels (Numeral.fractionText found ++ after) after
      (some found) := by
  apply Answers.of_next
  cases found with
  | none =>
      show Answers (if after.head? = some '.' then _ else _) levels after after _
      rw [if_neg noPoint]
      exact Answers.of_pure none levels after
  | some found =>
      have isDigits := areDigits found rfl
      show Answers (if some '.' = some '.' then _ else _) levels _ after _
      rw [if_pos rfl]
      apply Answers.of_passed
      apply Answers.of_taken (digits_answers isDigits.2 ends)
      show Answers (if found = [] then _ else _) levels after after _
      rw [if_neg isDigits.1]
      exact Answers.of_pure (some found) levels after

/-- An exponent is always written with its sign. -/
theorem exponentSign_answers (downward : Bool) :
    exponentSign.Answers levels ((if downward then '-' else '+') :: after) after
      (some downward) := by
  apply Answers.of_next
  cases downward with
  | false => exact Answers.of_passed (Answers.of_pure false levels after)
  | true => exact Answers.of_passed (Answers.of_pure true levels after)

theorem exponentDigits_answers (manner : Manner) {found : Option (Bool × List Char)}
    (areDigits : ∀ negative digits, found = some (negative, digits) → Numeral.IsDigits digits)
    (delimits : Delimits after) :
    (exponentDigits manner).Answers levels (Numeral.exponentText found ++ after) after
      (some found) := by
  apply Answers.of_next
  cases found with
  | none =>
      have noMark : after.head? ≠ some 'e' := delimits.head?_ne (by decide) (by decide)
      have noLargeMark : after.head? ≠ some 'E' := delimits.head?_ne (by decide) (by decide)
      simp only [Numeral.exponentText, List.nil_append]
      exact Answers.of_pure none levels after
  | some parts =>
      rcases parts with ⟨downward, found⟩
      rcases areDigits downward found rfl with ⟨notEmpty, areDigits⟩
      apply Answers.of_passed
      apply Answers.of_taken (exponentSign_answers downward)
      apply Answers.of_next
      cases found with
      | nil => exact absurd rfl notEmpty
      | cons first rest =>
          show Answers (if first.isDigit then _ else _) levels _ after _
          rw [if_pos (areDigits first List.mem_cons_self)]
          apply Answers.of_taken
            (digits_answers areDigits (delimits.any_eq_false (by decide) (by decide)))
          exact Answers.of_pure _ levels after

/-! ## Whole numbers and doubles -/

theorem valueOf_answers (numeral : Numeral) :
    (valueOf numeral).Answers levels after after numeral.value.toOption := by
  intro passage isText
  unfold valueOf
  cases numeral.value with
  | ok value => exact ⟨passage, rfl, isText⟩
  | error unread => exact ⟨_, rfl⟩

theorem number_answers {numeral : Numeral} (isWritten : numeral.IsWritten)
    (delimits : Delimits after) :
    (number .keep numeral.negative).Answers levels (numeral.magnitudeText ++ after) after
      numeral.value.toOption := by
  have noDigit : after.head?.any Char.isDigit = false :=
    delimits.any_eq_false (by decide) (by decide)
  have exponentEnds :
      (Numeral.exponentText numeral.exponent ++ after).head?.any Char.isDigit = false ∧
        (Numeral.exponentText numeral.exponent ++ after).head? ≠ some '.' := by
    cases numeral.exponent with
    | none => exact ⟨noDigit, delimits.head?_ne (by decide) (by decide)⟩
    | some parts => exact ⟨rfl, by simp [Numeral.exponentText]⟩
  have fractionEnds :
      (Numeral.fractionText numeral.fraction ++
        (Numeral.exponentText numeral.exponent ++ after)).head?.any Char.isDigit = false := by
    cases numeral.fraction with
    | none => exact exponentEnds.1
    | some found => rfl
  rw [Numeral.magnitudeText, List.append_assoc, List.append_assoc]
  apply Answers.of_taken (wholeDigits_answers .keep isWritten.whole fractionEnds)
  apply Answers.of_taken
    (fractionDigits_answers .keep isWritten.fraction exponentEnds.1 exponentEnds.2)
  apply Answers.of_taken (exponentDigits_answers .keep isWritten.exponent delimits)
  exact valueOf_answers numeral

/-- What begins like a value without parts is read in the same way at every level. -/
theorem kept_answers {text : List Char} {outcome : Option Json}
    (answers : ∀ inner, (valueAround .keep inner).Answers levels text after outcome) :
    kept.Answers levels text after outcome := by
  cases levels with
  | zero => exact answers _
  | succ levels => exact answers fun _ => value .keep levels

theorem isSpace_of_isDigit {digit : Char} (isDigit : digit.isDigit = true) :
    Passage.isSpace digit = false := by
  rw [← Bool.not_eq_true]
  intro isSpace
  simp only [Passage.isSpace, Bool.or_eq_true, decide_eq_true_eq] at isSpace
  rcases isSpace with ((rfl | rfl) | rfl) | rfl <;> exact absurd isDigit (by decide)

/-- What begins with a digit is a number. -/
theorem valueAround_digit_answers {manner : Manner} {inner : Reading Json} {first : Char}
    {rest : List Char} {outcome : Option Json} (isDigit : first.isDigit = true)
    (answers : (number manner false).Answers levels (first :: rest) after outcome) :
    (valueAround manner inner).Answers levels (first :: rest) after outcome := by
  have noSpace : (first :: rest).dropWhile Passage.isSpace = first :: rest :=
    List.dropWhile_cons_of_neg (by rw [isSpace_of_isDigit isDigit]; exact Bool.false_ne_true)
  apply Answers.of_behindSpace noSpace
  rw [List.head?_cons]
  split
  case h_1 isEnd => cases isEnd
  case h_9 character isCharacter =>
      cases isCharacter
      rw [if_pos isDigit]
      exact answers
  all_goals
    rename_i isCharacter
    cases isCharacter
    exact absurd isDigit (by decide)

/-- A number is read as what its parts stand for, unless they are out of range. -/
theorem kept_numeral_answers {numeral : Numeral} (isWritten : numeral.IsWritten)
    (delimits : Delimits after) :
    kept.Answers levels (numeral.text ++ after) after numeral.value.toOption := by
  have isNumber : (number .keep numeral.negative).Answers levels _ after _ :=
    number_answers isWritten delimits
  apply kept_answers
  intro inner
  unfold Numeral.text
  cases isNegative : numeral.negative with
  | true =>
      rw [isNegative] at isNumber
      apply Answers.of_behindSpace rfl
      apply Answers.of_passed
      exact isNumber
  | false =>
      rw [isNegative, Numeral.magnitudeText] at isNumber
      rw [if_neg Bool.false_ne_true, Numeral.magnitudeText]
      have isWhole := isWritten.whole
      generalize numeral.whole = whole at isWhole isNumber ⊢
      cases isWhole with
      | zero => exact Answers.of_behindSpace rfl isNumber
      | @digits first rest notZero areDigits =>
          exact valueAround_digit_answers (areDigits first List.mem_cons_self) isNumber

end Reading

end TwinSwarm.Json
