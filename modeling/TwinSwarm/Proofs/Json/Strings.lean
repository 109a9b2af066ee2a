import TwinSwarm.Proofs.Json.Reading

/-!
# Strings are read back

Every character that a string is written with is read back as the same character,
whether it stands for itself or is escaped, and both by a reader that keeps the string
and by one that passes over it.
-/

namespace TwinSwarm.Json

variable {levels : Nat} {after : List Char}

/-- The digits of a numbered escape spell the number. -/
theorem hexNumber?_control :
    ∀ number < 32, Reading.hexNumber? ['0', '0', hexDigit (number / 16), hexDigit (number % 16)] =
      some number := by
  decide

namespace Reading

/-! ## Characters -/

/-- A character that is written with a backslash and a letter. -/
theorem letterEscape_answers {letter character : Char} (manner : Manner)
    (notNumbered : letter ≠ 'u') (stands : escapedLetter? letter = some character) :
    (stringCharacter manner).Answers levels ('\\' :: letter :: after) after (some character) := by
  apply Answers.of_next
  apply Answers.of_passed
  apply Answers.of_next
  show Answers (if letter = 'u' then _ else _) levels _ after _
  rw [if_neg notNumbered, stands]
  apply Answers.of_passed
  exact Answers.of_pure character levels after

theorem hexUnit_answers {number : Nat} (first second third fourth : Char)
    (spells : hexNumber? [first, second, third, fourth] = some number) :
    hexUnit.Answers levels (first :: second :: third :: fourth :: after) after (some number) := by
  intro passage isText
  refine ⟨passage.dropUnit, ?_, ?_⟩
  · simp [hexUnit, isText, spells]
  · simp [Passage.dropUnit, isText]

/-- A control character that is written by its number. -/
theorem numberedEscape_answers {character : Char} (manner : Manner)
    (isControl : character.toNat < 32) :
    (numberedEscape manner).Answers levels
      ('0' :: '0' :: hexDigit (character.toNat / 16) :: hexDigit (character.toNat % 16) :: after)
      after (some character) := by
  have notLow : isLowSurrogate character.toNat = false := by
    simp [isLowSurrogate]
    omega
  have notHigh : isHighSurrogate character.toNat = false := by
    simp [isHighSurrogate]
    omega
  have isCharacter := Answers.of_pure character levels after
  rw [← Char.ofNat_toNat character] at isCharacter
  apply Answers.of_taken
    (hexUnit_answers '0' '0' _ _ (hexNumber?_control character.toNat isControl))
  cases manner with
  | skip => simpa using isCharacter
  | keep => simpa [notLow, notHigh] using isCharacter

theorem stringCharacter_answers (manner : Manner) (character : Char) :
    (stringCharacter manner).Answers levels (escapedCharacter character ++ after) after
      (some character) := by
  unfold escapedCharacter
  split
  case isTrue isMark =>
      rcases isMark with rfl | rfl
      · exact letterEscape_answers manner (by decide) rfl
      · exact letterEscape_answers manner (by decide) rfl
  split
  case isTrue isBackspace =>
      subst isBackspace
      exact letterEscape_answers manner (by decide) rfl
  split
  case isTrue isTab =>
      subst isTab
      exact letterEscape_answers manner (by decide) rfl
  split
  case isTrue isLineFeed =>
      subst isLineFeed
      exact letterEscape_answers manner (by decide) rfl
  split
  case isTrue isFormFeed =>
      subst isFormFeed
      exact letterEscape_answers manner (by decide) rfl
  split
  case isTrue isReturn =>
      subst isReturn
      exact letterEscape_answers manner (by decide) rfl
  -- The other characters that no string may hold as they are have no letter, so they are written by
  -- number.
  split
  case isTrue isControl =>
      apply Answers.of_next
      apply Answers.of_passed
      apply Answers.of_next
      apply Answers.of_passed
      exact numberedEscape_answers manner isControl
  case isFalse notMark _ _ _ _ _ notControl =>
      apply Answers.of_next
      show Answers (if character = '\\' then _ else if character.toNat < 32 then _ else _) levels
        _ after _
      rw [if_neg fun isBackslash => notMark (.inr isBackslash), if_neg notControl]
      apply Answers.of_passed
      exact Answers.of_pure character levels after

end Reading

/-! ## Whole strings -/

/-- What a character is written with is no quote that ends the string. -/
theorem escapedCharacter_open (character : Char) :
    ∃ first rest, escapedCharacter character = first :: rest ∧ first ≠ '"' := by
  unfold escapedCharacter
  split
  · exact ⟨_, _, rfl, by decide⟩
  · case isFalse notMark =>
      repeat' split
      all_goals refine ⟨_, _, rfl, ?_⟩
      all_goals first | decide | exact fun isQuote => notMark (.inl isQuote)

namespace Reading

theorem characters_answers (manner : Manner) (text : List Char) :
    (characters manner).Answers levels (text.flatMap escapedCharacter ++ '"' :: after) after
      (some text) := by
  induction text with
  | nil =>
      intro passage isText
      have closes : passage.rest.head? = some '"' := by rw [isText]; rfl
      refine ⟨passage.advance, ?_, ?_⟩
      · rw [characters, if_pos closes]
      · rcases passage with ⟨rest, offset, size, sizeEq⟩
        subst isText
        rfl
  | cons character others othersAnswer =>
      intro passage isText
      rw [List.flatMap_cons, List.append_assoc] at isText
      rcases escapedCharacter_open character with ⟨first, rest, written, notQuote⟩
      have continues : passage.rest.head? ≠ some '"' := by
        rw [isText, written]
        exact fun isQuote => notQuote (Option.some.inj isQuote)
      rcases stringCharacter_answers manner character passage isText with
        ⟨next, characterTaken, isOthers⟩
      rcases othersAnswer next isOthers with ⟨last, othersTaken, isAfter⟩
      have shorter : next.size < passage.size := by
        rw [next.size_eq, passage.size_eq, isOthers, isText, written]
        simp only [List.cons_append, List.length_cons, List.length_append]
        omega
      refine ⟨last, ?_, isAfter⟩
      rw [characters, if_neg continues, characterTaken]
      simp only [dif_pos shorter, othersTaken]

/-- A string behind its opening quote. -/
theorem stringBody_answers (manner : Manner) (text : String) :
    (stringBody manner).Answers levels (text.toList.flatMap escapedCharacter ++ '"' :: after)
      after (some text) := by
  have isText : (characters manner).Answers levels _ after _ :=
    characters_answers manner text.toList
  have taken := Answers.of_map String.ofList isText
  rw [Option.map_some, String.ofList_toList] at taken
  exact taken

theorem key_answers (manner : Manner) (name : String) :
    (key manner).Answers levels (stringText name after) after (some name) := by
  apply Answers.of_next
  show Answers (if some '"' = some '"' then _ else _) levels _ after _
  rw [if_pos rfl]
  apply Answers.of_passed
  exact stringBody_answers manner name

end Reading

end TwinSwarm.Json
