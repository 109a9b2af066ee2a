import Mathlib.Data.List.Chain
import TwinSwarm.Proofs.Json.Number
import TwinSwarm.Tree.OfJson

/-!
# What faults say

A report of a document that cannot be read is searched for the words by which it shows that a node
names an unknown kind.  Most faults never say them, because the letters `k` and `n` do not stand
next to each other in anything that they say.
-/

namespace TwinSwarm

/-! ## Searching for words -/

namespace Program

theorem holds_iff {words text : List Char} : holds words text = true ↔ words <:+: text := by
  induction text with
  | nil => simp [holds]
  | cons character rest fromRest =>
      rw [holds, Bool.or_eq_true, fromRest, List.isPrefixOf_iff_prefix, List.infix_cons_iff]

/-- Words without a character that stands between two texts are in one of the texts. -/
theorem holds_append_cons {words before after : List Char} {character : Char}
    (isForeign : character ∉ words) :
    holds words (before ++ character :: after) = (holds words before || holds words after) := by
  rw [Bool.eq_iff_iff, Bool.or_eq_true, holds_iff, holds_iff, holds_iff]
  constructor
  · rintro ⟨front, back, isWhole⟩
    rw [List.append_assoc, List.append_eq_append_iff] at isWhole
    rcases isWhole with ⟨skipped, isBefore, isBack⟩ | ⟨skipped, isFront, isRest⟩
    · rcases List.append_eq_append_iff.mp isBack with ⟨others, rfl, _⟩ | ⟨others, isWords, isTail⟩
      · exact .inl ⟨front, others, by rw [isBefore, List.append_assoc]⟩
      · cases others with
        | nil => exact .inl ⟨front, [], by rw [isBefore, isWords]; simp⟩
        | cons first others =>
            cases isTail
            exact absurd (by simp [isWords]) isForeign
    · cases skipped with
      | nil =>
          cases words with
          | nil => exact .inl (List.nil_infix)
          | cons first words =>
              cases isRest
              exact absurd List.mem_cons_self isForeign
      | cons first skipped =>
          rw [List.cons_append, List.cons.injEq] at isRest
          exact .inr ⟨skipped, back, by rw [List.append_assoc, isRest.2]⟩
  · rintro (inBefore | inAfter)
    · exact inBefore.trans (List.prefix_append before _).isInfix
    · exact inAfter.trans ((List.suffix_cons character after).trans
        (List.suffix_append before _)).isInfix

end Program

namespace Json

/-! ## Quiet texts -/

/-- No `n` follows a `k`. -/
def Quiet (text : List Char) : Prop :=
  text.IsChain fun first second => ¬(first = 'k' ∧ second = 'n')

instance (text : List Char) : Decidable (Quiet text) := by
  unfold Quiet
  infer_instance

namespace Quiet

variable {left right text : List Char}

theorem append (ofLeft : Quiet left) (ofRight : Quiet right)
    (apart : 'k' ∉ left.getLast? ∨ 'n' ∉ right.head?) : Quiet (left ++ right) := by
  refine List.isChain_append.mpr ⟨ofLeft, ofRight, ?_⟩
  rintro last isLast first isFirst ⟨rfl, rfl⟩
  exact apart.elim (absurd isLast) (absurd isFirst)

/-- A quiet text that can be put between any other quiet ones. -/
def Separates (text : List Char) : Prop :=
  text ≠ [] ∧ Quiet text ∧ 'n' ∉ text.head? ∧ 'k' ∉ text.getLast?

instance (text : List Char) : Decidable (Separates text) := by
  unfold Separates
  infer_instance

theorem behind {mark : List Char} (separates : Separates mark) (ofRight : Quiet right) :
    Quiet (mark ++ right) :=
  separates.2.1.append ofRight (.inl separates.2.2.2)

theorem before {mark : List Char} (ofLeft : Quiet left) (separates : Separates mark) :
    Quiet (left ++ mark) :=
  ofLeft.append separates.2.1 (.inr separates.2.2.1)

theorem around {mark : List Char} (ofLeft : Quiet left) (separates : Separates mark)
    (ofRight : Quiet right) : Quiet (left ++ mark ++ right) := by
  refine (ofLeft.before separates).append ofRight (.inl ?_)
  rw [List.getLast?_append_of_ne_nil left separates.1]
  exact separates.2.2.2

/-- A text without the letter is quiet. -/
theorem of_notMem (unused : 'k' ∉ text) : Quiet text := by
  induction text with
  | nil => exact .nil
  | cons first rest fromRest =>
      rw [List.mem_cons, not_or] at unused
      refine List.isChain_cons.mpr ⟨?_, fromRest unused.2⟩
      rintro second _ ⟨isLetter, _⟩
      exact unused.1 isLetter.symm

/-- A quiet text does not have the words. -/
theorem holds_eq_false (quiet : Quiet text) :
    Program.holds Program.unknownKindWords.toList text = false := by
  rw [Bool.eq_false_iff, Ne, Program.holds_iff]
  intro isInside
  have inWords : Quiet Program.unknownKindWords.toList := List.IsChain.infix quiet isInside
  exact absurd inWords (by decide)

end Quiet

end Json

/-! ## Words in quoted texts -/

namespace Program

open Json (Quiet)

theorem holds_cons {words rest : List Char} {character : Char}
    (notFirst : character ∉ words.head?) (nonempty : words ≠ []) :
    holds words (character :: rest) = holds words rest := by
  cases words with
  | nil => exact absurd rfl nonempty
  | cons first words =>
      have differ : (first == character) = false := by simpa using notFirst
      rw [holds, List.isPrefixOf, differ, Bool.false_and, Bool.false_or]

/-- A number in hexadecimal digits is written without the letter. -/
theorem notMem_hexadecimal (number : Nat) : 'k' ∉ Nat.toDigits 16 number := by
  induction number using Nat.strongRecOn with
  | ind number fromSmaller =>
      have noDigit : ∀ digit < 16, 'k' ≠ Nat.digitChar digit := by decide
      rw [Nat.toDigits_eq_if (by decide)]
      split
      next isSmall => exact fun isDigit => noDigit number isSmall (List.mem_singleton.mp isDigit)
      next isLarge =>
        rw [List.mem_append, List.mem_singleton, not_or]
        exact ⟨fromSmaller (number / 16) (by omega), noDigit _ (Nat.mod_lt _ (by decide))⟩

/-- The words are not found among the marks that stand for a character in a quoted text. -/
theorem quotedCharacter_cases (character : Char) : Text.quotedCharacter character = [character] ∨
    ∃ marks, Text.quotedCharacter character = '\\' :: marks ∧ ∀ rest,
      holds unknownKindWords.toList (marks ++ rest) = holds unknownKindWords.toList rest := by
  have letter (mark : Char) (notFirst : mark ≠ 'u') (rest : List Char) :
      holds unknownKindWords.toList ([mark] ++ rest) = holds unknownKindWords.toList rest := by
    apply holds_cons
    · rintro ⟨⟩
      exact notFirst rfl
    · decide
  unfold Text.quotedCharacter
  split
  · exact .inr ⟨['0'], rfl, letter '0' (by decide)⟩
  split
  · exact .inr ⟨['t'], rfl, letter 't' (by decide)⟩
  split
  · exact .inr ⟨['n'], rfl, letter 'n' (by decide)⟩
  split
  · exact .inr ⟨['r'], rfl, letter 'r' (by decide)⟩
  split
  next isEither =>
    refine .inr ⟨[character], rfl, letter character ?_⟩
    rintro rfl
    exact absurd isEither (by decide)
  split
  · refine .inr ⟨_, rfl, ?_⟩
    intro rest
    have isSplit : 'u' :: '\x7b' :: Nat.toDigits 16 character.toNat ++ ['\x7d'] ++ rest =
        ['u'] ++ '\x7b' :: (Nat.toDigits 16 character.toNat ++ '\x7d' :: rest) := by simp
    have quiet := Quiet.of_notMem (notMem_hexadecimal character.toNat)
    -- The braces occur in none of the words, so the words are not found across them.
    have isForeign : '\x7b' ∉ unknownKindWords.toList ∧ '\x7d' ∉ unknownKindWords.toList := by
      decide
    calc holds unknownKindWords.toList ('u' :: '\x7b' :: Nat.toDigits 16 character.toNat ++
          ['\x7d'] ++ rest)
        = (holds unknownKindWords.toList ['u'] || holds unknownKindWords.toList
            (Nat.toDigits 16 character.toNat ++ '\x7d' :: rest)) := by
          rw [isSplit]
          exact holds_append_cons isForeign.1
      _ = holds unknownKindWords.toList rest := by
          rw [holds_append_cons isForeign.2, quiet.holds_eq_false]
          rfl
  · exact .inl rfl

/-- Words without a backslash are no prefix of marks that stand for a character. -/
theorem prefix_of_prefix_quoted {words text : List Char} (noMark : '\\' ∉ words)
    (isPrefix : words <+: text.flatMap Text.quotedCharacter) : words <+: text := by
  induction text generalizing words with
  | nil => exact isPrefix
  | cons character text fromRest =>
      cases words with
      | nil => exact List.nil_prefix
      | cons first words =>
          rw [List.mem_cons, not_or] at noMark
          rw [List.flatMap_cons] at isPrefix
          rcases quotedCharacter_cases character with isPlain | ⟨marks, isMarked, _⟩
          · rw [isPlain, List.singleton_append, List.cons_prefix_cons] at isPrefix
            exact List.cons_prefix_cons.mpr ⟨isPrefix.1, fromRest noMark.2 isPrefix.2⟩
          · rw [isMarked, List.cons_append, List.cons_prefix_cons] at isPrefix
            exact absurd isPrefix.1.symm noMark.1

/-- The words themselves are quoted as they are. -/
theorem words_quoted :
    unknownKindWords.toList.flatMap Text.quotedCharacter = unknownKindWords.toList := by
  decide +kernel

theorem prefix_quoted_iff (text : List Char) :
    unknownKindWords.toList <+: text.flatMap Text.quotedCharacter ↔
      unknownKindWords.toList <+: text := by
  constructor
  · exact prefix_of_prefix_quoted (by decide)
  · rintro ⟨rest, rfl⟩
    rw [List.flatMap_append, words_quoted]
    exact List.prefix_append _ _

theorem holds_flatMap_quotedCharacter (text : List Char) :
    holds unknownKindWords.toList (text.flatMap Text.quotedCharacter) =
      holds unknownKindWords.toList text := by
  induction text with
  | nil => rfl
  | cons character text fromRest =>
      rcases quotedCharacter_cases character with isPlain | ⟨marks, isMarked, skips⟩
      · have sameStart : unknownKindWords.toList.isPrefixOf
            (character :: text.flatMap Text.quotedCharacter) =
              unknownKindWords.toList.isPrefixOf (character :: text) := by
          rw [Bool.eq_iff_iff, List.isPrefixOf_iff_prefix, List.isPrefixOf_iff_prefix,
            ← prefix_quoted_iff (character :: text), List.flatMap_cons, isPlain,
            List.singleton_append]
        rw [List.flatMap_cons, isPlain, List.singleton_append, holds, holds, sameStart, fromRest]
      · have notFirst : character ∉ unknownKindWords.toList.head? := by
          rintro ⟨⟩
          have isInside : '\\' ∈ Text.quotedCharacter 'u' := isMarked ▸ List.mem_cons_self
          have isQuoted : '\\' ∈ unknownKindWords.toList.flatMap Text.quotedCharacter :=
            List.mem_flatMap.mpr ⟨'u', by decide, isInside⟩
          rw [words_quoted] at isQuoted
          exact absurd isQuoted (by decide)
        rw [List.flatMap_cons, isMarked, List.cons_append, holds_cons (by decide) (by decide),
          skips, fromRest, holds_cons notFirst (by decide)]

/-- Words are found in a text with a string in quotes if they are in the string, or around it. -/
theorem holds_around_quoted (before after : List Char) (text : String) :
    holds unknownKindWords.toList (before ++ (Text.quoted text).toList ++ after) =
      (holds unknownKindWords.toList before || (holds unknownKindWords.toList text.toList ||
        holds unknownKindWords.toList after)) := by
  have isForeign : '"' ∉ unknownKindWords.toList := by decide
  have isInside : (Text.quoted text).toList =
      '"' :: (text.toList.flatMap Text.quotedCharacter ++ ['"']) := String.toList_ofList
  have isWhole : before ++ (Text.quoted text).toList ++ after =
      before ++ '"' :: (text.toList.flatMap Text.quotedCharacter ++ '"' :: after) := by
    simp [isInside]
  rw [isWhole, holds_append_cons isForeign, holds_append_cons isForeign,
    holds_flatMap_quotedCharacter]

end Program

namespace Json

/-! ## Numbers -/

theorem Numeral.notMem_digits {letter : Char} {digits : List Char}
    (notDigit : letter.isDigit = false) (areDigits : ∀ digit ∈ digits, digit.isDigit = true) :
    letter ∉ digits := by
  intro isMember
  rw [areDigits letter isMember] at notDigit
  cases notDigit

/-- A number is written without the letter. -/
theorem Numeral.IsWritten.quiet_text {numeral : Numeral} (isWritten : numeral.IsWritten) :
    Quiet numeral.text := by
  have notDigit : 'k'.isDigit = false := rfl
  have whole : 'k' ∉ numeral.whole := by
    have isWhole := isWritten.whole
    generalize numeral.whole = whole at isWhole ⊢
    cases isWhole with
    | zero => decide
    | digits _ areDigits => exact notMem_digits notDigit areDigits
  have fraction : 'k' ∉ fractionText numeral.fraction := by
    cases isFraction : numeral.fraction with
    | none => exact List.not_mem_nil
    | some digits =>
        have areDigits := (isWritten.fraction digits isFraction).2
        simp [fractionText, notMem_digits notDigit areDigits]
  have exponent : 'k' ∉ exponentText numeral.exponent := by
    cases isExponent : numeral.exponent with
    | none => exact List.not_mem_nil
    | some exponent =>
        have areDigits := (isWritten.exponent exponent.1 exponent.2 isExponent).2
        cases sign : exponent.1 <;> simp [exponentText, sign, notMem_digits notDigit areDigits]
  apply Quiet.of_notMem
  cases sign : numeral.negative <;> simp [text, magnitudeText, sign, whole, fraction, exponent]

theorem Quiet.toString_int (number : Int) : Quiet (toString number).toList := by
  rw [← Numeral.text_ofInteger]
  exact (Numeral.ofInteger_isWritten number).quiet_text

theorem Quiet.toString_nat (number : Nat) : Quiet (toString number).toList :=
  toString_int number

theorem Double.quiet_text (value : Double) : Quiet value.text := by
  rcases value.exists_numeral with ⟨numeral, isWritten, _, isText⟩
  exact isText ▸ isWritten.quiet_text

/-! ## What causes say -/

open Quiet

theorem Found.quiet_describe {found : Found} (noString : ∀ text, found ≠ .string text) :
    Quiet found.describe.toList := by
  cases found with
  | null | array | object => decide
  | boolean value => cases value <;> decide
  | integer value =>
      show Quiet ("integer `" ++ toString value ++ "`").toList
      simp only [String.toList_append]
      exact (behind (by decide) (toString_int value)).before (by decide)
  | float value =>
      show Quiet ("floating point `" ++ String.ofList value.text ++ "`").toList
      simp only [String.toList_append, String.toList_ofList]
      exact (behind (by decide) (Double.quiet_text value)).before (by decide)
  | string text => exact absurd rfl (noString text)

namespace Cause

theorem quiet_of_category {cause : Cause} (notData : cause.category ≠ .data) :
    Quiet cause.message.toList := by
  cases cause with
  | wrongType | wrongValue | wrongLength | missingField | duplicateField | unknownVariant
  | noLiteral => exact absurd rfl notData
  | _ => set_option maxRecDepth 1000 in decide

theorem quiet_noLiteral : Quiet noLiteral.message.toList := by
  decide

variable {found : Found} {wanted name : String}

theorem quiet_wrongType (noString : ∀ text, found ≠ .string text) (quiet : Quiet wanted.toList) :
    Quiet (wrongType found wanted).message.toList := by
  show Quiet ("invalid type: " ++ found.describe ++ ", expected " ++ wanted).toList
  simp only [String.toList_append]
  exact (behind (by decide) (Found.quiet_describe noString)).around (by decide) quiet

theorem quiet_wrongValue (noString : ∀ text, found ≠ .string text) (quiet : Quiet wanted.toList) :
    Quiet (wrongValue found wanted).message.toList := by
  show Quiet ("invalid value: " ++ found.describe ++ ", expected " ++ wanted).toList
  simp only [String.toList_append]
  exact (behind (by decide) (Found.quiet_describe noString)).around (by decide) quiet

theorem quiet_wrongLength (length : Nat) (quiet : Quiet wanted.toList) :
    Quiet (wrongLength length wanted).message.toList := by
  show Quiet ("invalid length " ++ toString length ++ ", expected " ++ wanted).toList
  simp only [String.toList_append]
  exact (behind (by decide) (toString_nat length)).around (by decide) quiet

theorem quiet_missingField (quiet : Quiet name.toList) :
    Quiet (missingField name).message.toList := by
  show Quiet ("missing field `" ++ name ++ "`").toList
  simp only [String.toList_append]
  exact (behind (by decide) quiet).before (by decide)

theorem quiet_duplicateField (quiet : Quiet name.toList) :
    Quiet (duplicateField name).message.toList := by
  show Quiet ("duplicate field `" ++ name ++ "`").toList
  simp only [String.toList_append]
  exact (behind (by decide) quiet).before (by decide)

end Cause

theorem quiet_elementCount (count : Nat) : Quiet (elementCount count).toList := by
  unfold elementCount
  split
  · decide
  · rw [String.toList_append]
    exact (toString_nat count).before (by decide)

theorem quiet_elementsWanted {description : String} (quiet : Quiet description.toList)
    (count : Nat) : Quiet (elementsWanted description count).toList := by
  simp only [elementsWanted, String.toList_append]
  exact quiet.around (by decide) (quiet_elementCount count)

/-- The place behind the message of a report. -/
def Report.placeText (report : Report) : String :=
  match report.location with
  | none => ""
  | some location =>
      " at line " ++ toString location.line ++ " column " ++ toString location.column

theorem Report.display_eq (report : Report) :
    report.display = report.message ++ report.placeText := by
  unfold display placeText
  cases report.location with
  | none => rw [String.append_empty]
  | some location => simp only [String.append_assoc]

theorem Report.quiet_placeText (report : Report) (left : List Char) (quiet : Quiet left) :
    Quiet (left ++ report.placeText.toList) := by
  unfold placeText
  cases report.location with
  | none => simpa using quiet
  | some location =>
      simp only [String.toList_append, ← List.append_assoc]
      exact (quiet.around (by decide) (toString_nat location.line)).around (by decide)
        (toString_nat location.column)

end Json

end TwinSwarm
