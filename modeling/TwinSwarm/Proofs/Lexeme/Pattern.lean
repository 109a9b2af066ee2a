import TwinSwarm.Lexeme

/-!
# What patterns take

A pattern that matches takes at least one character and no more than there are.  What
stands behind a line feed has no influence on a match in front of it, unless the match
reaches the line feed: blanks go on behind it, and so do comments and quoted texts that
have not been closed.
-/

namespace TwinSwarm

/-! ## Characters -/

/-- A letter or an underscore is not blank. -/
theorem isBlank_of_startsWord {character : Char} (starts : startsWord character = true) :
    Text.isBlank character = false := by
  have code : character.toNat = 95 ∨ 65 ≤ character.toNat ∧ character.toNat ≤ 90 ∨
      97 ≤ character.toNat ∧ character.toNat ≤ 122 := by
    rw [startsWord, Bool.or_eq_true, decide_eq_true_eq] at starts
    rcases starts with isLetter | rfl
    · rcases Bool.or_eq_true_iff.mp isLetter with isUpper | isLower
      · rcases of_decide_eq_true isUpper with ⟨least, most⟩
        exact .inr (.inl ⟨UInt32.le_iff_toNat_le.mp least, UInt32.le_iff_toNat_le.mp most⟩)
      · rcases Bool.and_eq_true_iff.mp isLower with ⟨least, most⟩
        exact .inr (.inr ⟨UInt32.le_iff_toNat_le.mp (of_decide_eq_true least),
          UInt32.le_iff_toNat_le.mp (of_decide_eq_true most)⟩)
    · exact .inl rfl
  simp only [Text.isBlank, Text.inRanges, Text.blankRanges, List.any_cons, List.any_nil,
    Bool.or_false, Bool.or_eq_false_iff, Bool.and_eq_false_iff, decide_eq_false_iff_not]
  omega

/-- A digit is not blank. -/
theorem isBlank_of_isDigit {character : Char} (isDigit : character.isDigit = true) :
    Text.isBlank character = false := by
  have code : 48 ≤ character.toNat ∧ character.toNat ≤ 57 := by
    rcases Bool.and_eq_true_iff.mp isDigit with ⟨least, most⟩
    exact ⟨UInt32.le_iff_toNat_le.mp (of_decide_eq_true least),
      UInt32.le_iff_toNat_le.mp (of_decide_eq_true most)⟩
  simp only [Text.isBlank, Text.inRanges, Text.blankRanges, List.any_cons, List.any_nil,
    Bool.or_false, Bool.or_eq_false_iff, Bool.and_eq_false_iff, decide_eq_false_iff_not]
  omega

namespace Pattern

/-! ## Bounds -/

theorem positive?_eq_some {length taken : Nat} :
    positive? length = some taken ↔ length = taken ∧ 0 < taken := by
  rw [positive?]
  split <;> simp <;> omega

theorem runLength_le (accept : Char → Bool) (text : List Char) :
    runLength accept text ≤ text.length :=
  (List.takeWhile_sublist _).length_le

theorem closedCommentLength?_bounds {text : List Char} {length : Nat}
    (closes : closedCommentLength? text = some length) : 0 < length ∧ length ≤ text.length := by
  fun_induction closedCommentLength? text generalizing length with
  | case1 => cases closes
  | case2 rest =>
      cases closes
      simp
  | case3 character rest _ ih =>
      rcases Option.map_eq_some_iff.mp closes with ⟨inside, closesInside, rfl⟩
      have bounds := ih closesInside
      rw [List.length_cons]
      omega

theorem closedQuoteLength?_bounds {quote : Char} {text : List Char} {length : Nat}
    (closes : closedQuoteLength? quote text = some length) :
    0 < length ∧ length ≤ text.length := by
  fun_induction closedQuoteLength? quote text generalizing length with
  | case1 => cases closes
  | case2 => cases closes
  | case3 character rest ih =>
      rcases Option.map_eq_some_iff.mp closes with ⟨inside, closesInside, rfl⟩
      have bounds := ih closesInside
      simp only [List.length_cons]
      omega
  | case4 rest =>
      cases closes
      simp
  | case5 character rest _ _ _ ih =>
      rcases Option.map_eq_some_iff.mp closes with ⟨inside, closesInside, rfl⟩
      have bounds := ih closesInside
      rw [List.length_cons]
      omega

theorem quotedLength?_bounds {quote : Char} {text : List Char} {length : Nat}
    (isQuoted : quotedLength? quote text = some length) :
    0 < length ∧ length ≤ text.length := by
  cases text with
  | nil => cases isQuoted
  | cons character rest =>
      rw [quotedLength?, Option.ite_none_right_eq_some] at isQuoted
      rcases Option.map_eq_some_iff.mp isQuoted.2 with ⟨inside, closes, rfl⟩
      have bounds := closedQuoteLength?_bounds closes
      rw [List.length_cons]
      omega

theorem decimalLength?_bounds {text : List Char} {length : Nat}
    (isDecimal : decimalLength? text = some length) : 0 < length ∧ length ≤ text.length := by
  simp only [decimalLength?] at isDecimal
  split at isDecimal
  next rest behindDigits =>
    rcases Option.ite_none_left_eq_some.mp isDecimal with ⟨_, lengthEq⟩
    have fraction := runLength_le Char.isDigit rest
    have whole := congrArg List.length behindDigits
    rw [List.length_drop, List.length_cons] at whole
    cases lengthEq
    omega
  next => cases isDecimal

theorem operatorLength?_bounds {text : List Char} {length : Nat}
    (isOperator : Pattern.operator.length? text = some length) :
    0 < length ∧ length ≤ text.length := by
  rcases List.exists_of_findSome?_eq_some isOperator with ⟨operator, isMember, found⟩
  rcases Option.ite_none_right_eq_some.mp found with ⟨isPrefix, lengthEq⟩
  cases lengthEq
  have nonempty : ∀ operator ∈ operators, 0 < operator.length := by decide
  exact ⟨nonempty operator isMember, (List.isPrefixOf_iff_prefix.mp isPrefix).length_le⟩

/-- A pattern that matches takes at least one character and no more than there are. -/
theorem length?_bounds {pattern : Pattern} {text : List Char} {length : Nat}
    (found : pattern.length? text = some length) : 0 < length ∧ length ≤ text.length := by
  fun_cases Pattern.length? pattern text with
  | case1 | case10 =>
      rcases positive?_eq_some.mp found with ⟨rfl, positive⟩
      exact ⟨positive, runLength_le _ text⟩
  | case2 rest =>
      cases found
      have run := runLength_le (· ≠ '\n') rest
      simp only [List.length_cons]
      omega
  | case4 rest =>
      rcases Option.map_eq_some_iff.mp found with ⟨inside, closes, rfl⟩
      have bounds := closedCommentLength?_bounds closes
      simp only [List.length_cons]
      omega
  | case6 character rest starts =>
      rw [length?, if_pos starts] at found
      cases found
      have run := runLength_le continuesWord rest
      rw [List.length_cons]
      omega
  | case9 => exact decimalLength?_bounds found
  | case11 | case12 => exact quotedLength?_bounds found
  | case13 => exact operatorLength?_bounds found
  | case14 character rest isMark =>
      rw [length?, if_pos isMark] at found
      cases found
      simp
  | case3 | case5 | case7 | case8 | case15 | case16 => simp_all [length?]

theorem first?_eq_some {text : List Char} {pattern : Pattern} {length : Nat}
    (found : first? text = some (pattern, length)) : pattern.length? text = some length := by
  rcases List.exists_of_findSome?_eq_some found with ⟨tried, _, isFound⟩
  rcases Option.map_eq_some_iff.mp isFound with ⟨taken, isTaken, pairEq⟩
  cases pairEq
  exact isTaken

/-! ## What follows a line feed -/

section Following

variable {text : List Char} (behind : List Char)

theorem runLength_append (accept : Char → Bool) (text : List Char)
    (stops : accept '\n' = false) :
    runLength accept (text ++ '\n' :: behind) = runLength accept text := by
  rw [runLength, List.takeWhile_append, List.takeWhile_cons_of_neg (by simp [stops]),
    List.append_nil]
  split
  next whole => rw [runLength, whole]
  next => rfl

/-- A run that ends in a text does not depend on what follows the text. -/
theorem runLength_append_of_stop {accept : Char → Bool} {character : Char}
    (isInside : character ∈ text) (stops : accept character = false) :
    runLength accept (text ++ behind) = runLength accept text := by
  have shorter : (text.takeWhile accept).length ≠ text.length := by
    intro whole
    have isRun := (List.takeWhile_sublist accept).eq_of_length whole
    have allAccepted := List.all_takeWhile (p := accept) (l := text)
    rw [isRun, List.all_eq_true] at allAccepted
    exact absurd (allAccepted character isInside) (by simp [stops])
  rw [runLength, List.takeWhile_append, if_neg shorter, runLength]

theorem closedCommentLength?_append {length : Nat}
    (closes : closedCommentLength? text = some length) :
    closedCommentLength? (text ++ behind) = some length := by
  fun_induction closedCommentLength? text generalizing length with
  | case1 => cases closes
  | case2 rest => exact closes
  | case3 character rest other ih =>
      rcases Option.map_eq_some_iff.mp closes with ⟨inside, closesInside, rfl⟩
      cases rest with
      | nil => cases closesInside
      | cons second rest =>
          rw [List.cons_append, closedCommentLength?.eq_3, ih closesInside]
          · rfl
          · intro others isStar begins
            rw [List.cons_append, List.cons.injEq] at begins
            exact other rest isStar (begins.1 ▸ rfl)

theorem ne_backslash {character : Char} {rest : List Char}
    (notLast : character = '\\' → rest = [] → False)
    (notEscape : ∀ next others, character = '\\' → rest = next :: others → False) :
    character ≠ '\\' := by
  intro isBackslash
  cases rest with
  | nil => exact notLast isBackslash rfl
  | cons next others => exact notEscape next others isBackslash rfl

theorem closedQuoteLength?_append {quote : Char} {length : Nat}
    (closes : closedQuoteLength? quote text = some length) :
    closedQuoteLength? quote (text ++ behind) = some length := by
  fun_induction closedQuoteLength? quote text generalizing length with
  | case1 => cases closes
  | case2 => cases closes
  | case3 character rest ih =>
      rcases Option.map_eq_some_iff.mp closes with ⟨inside, closesInside, rfl⟩
      rw [List.cons_append, List.cons_append, closedQuoteLength?.eq_3, ih closesInside]
      rfl
  | case4 rest notLast notEscape =>
      have plain := ne_backslash notLast notEscape
      cases closes
      rw [List.cons_append, closedQuoteLength?.eq_4, if_pos rfl]
      all_goals simp [plain]
  | case5 character rest notLast notEscape other ih =>
      have plain := ne_backslash notLast notEscape
      rcases Option.map_eq_some_iff.mp closes with ⟨inside, closesInside, rfl⟩
      rw [List.cons_append, closedQuoteLength?.eq_4, if_neg other, ih closesInside]
      · rfl
      all_goals simp [plain]

theorem decimalLength?_append :
    decimalLength? (text ++ '\n' :: behind) = decimalLength? text := by
  have whole := runLength_append behind Char.isDigit text rfl
  have fits := runLength_le Char.isDigit text
  rw [decimalLength?, decimalLength?, whole, List.drop_append_of_le_length fits]
  cases text.drop (runLength Char.isDigit text) with
  | nil => rfl
  | cons point rest =>
      by_cases isPoint : point = '.'
      · subst isPoint
        have fraction := runLength_append behind Char.isDigit rest rfl
        simp only [List.cons_append, fraction]
      · simp [isPoint]

theorem isPrefixOf_append {word : List Char} (oneLine : '\n' ∉ word) :
    word.isPrefixOf (text ++ '\n' :: behind) = word.isPrefixOf text := by
  induction word generalizing text with
  | nil => simp
  | cons first rest ih =>
      rw [List.mem_cons, not_or] at oneLine
      cases text with
      | nil => simp [List.isPrefixOf, Ne.symm oneLine.1]
      | cons character others =>
          rw [List.cons_append, List.isPrefixOf, List.isPrefixOf, ih oneLine.2]

theorem operatorLength?_append :
    Pattern.operator.length? (text ++ '\n' :: behind) = Pattern.operator.length? text := by
  simp (disch := decide) only [length?, operators, List.findSome?, isPrefixOf_append]

theorem lineCommentLength?_append :
    Pattern.lineComment.length? (text ++ '\n' :: behind) = Pattern.lineComment.length? text := by
  have stops := runLength_append behind (· ≠ '\n') (text.drop 2) rfl
  match text with
  | [] => rfl
  | [first] => simp [length?]
  | first :: second :: rest =>
      by_cases opens : first = '/' ∧ second = '/'
      · rcases opens with ⟨rfl, rfl⟩
        simp only [List.cons_append, length?]
        exact congrArg (fun run => some (2 + run)) stops
      · simp_all [length?]

theorem blockCommentLength?_append
    (closes : ∀ rest, text = '/' :: '*' :: rest → closedCommentLength? rest ≠ none) :
    Pattern.blockComment.length? (text ++ '\n' :: behind) = Pattern.blockComment.length? text := by
  match text with
  | [] => rfl
  | [first] => simp [length?]
  | first :: second :: rest =>
      by_cases opens : first = '/' ∧ second = '*'
      · rcases opens with ⟨rfl, rfl⟩
        rcases Option.ne_none_iff_exists'.mp (closes rest rfl) with ⟨length, isClosed⟩
        simp only [List.cons_append, length?, isClosed, closedCommentLength?_append _ isClosed]
      · simp_all [length?]

end Following

/-- What stands behind a line feed has no influence on a match at the start of the text: the
text is not blank throughout, and a comment or a quoted text at its start is closed. -/
structure Settled (text : List Char) : Prop where
  notBlank : ∃ character ∈ text, Text.isBlank character = false
  comment : ∀ rest, text = '/' :: '*' :: rest → closedCommentLength? rest ≠ none
  quotation : ∀ quote rest, quote = '"' ∨ quote = '\'' → text = quote :: rest →
    closedQuoteLength? quote rest ≠ none

namespace Settled

variable {text : List Char} (settled : Settled text) (behind : List Char)

include settled

theorem quotedLength?_append {quote : Char} (isQuote : quote = '"' ∨ quote = '\'') :
    quotedLength? quote (text ++ '\n' :: behind) = quotedLength? quote text := by
  cases text with
  | nil => rcases isQuote with rfl | rfl <;> rfl
  | cons character rest =>
      rw [List.cons_append, quotedLength?, quotedLength?]
      by_cases opens : character = quote
      · rcases Option.ne_none_iff_exists'.mp
          (settled.quotation quote rest isQuote (opens ▸ rfl)) with
          ⟨length, closes⟩
        rw [closes, closedQuoteLength?_append _ closes]
      · rw [if_neg opens, if_neg opens]

theorem length?_append (pattern : Pattern) :
    pattern.length? (text ++ '\n' :: behind) = pattern.length? text := by
  rcases settled.notBlank with ⟨character, isInside, stops⟩
  cases pattern with
  | blanks => simp only [length?, runLength_append_of_stop _ isInside stops]
  | lineComment => exact lineCommentLength?_append behind
  | blockComment => exact blockCommentLength?_append behind settled.comment
  | word =>
      cases text with
      | nil => cases isInside
      | cons first rest =>
          simp only [List.cons_append, length?, runLength_append _ continuesWord rest rfl]
  | decimal => exact decimalLength?_append behind
  | integer => simp only [length?, runLength_append _ Char.isDigit text rfl]
  | doubleQuoted => exact settled.quotedLength?_append behind (.inl rfl)
  | singleQuoted => exact settled.quotedLength?_append behind (.inr rfl)
  | operator => exact operatorLength?_append behind
  | punctuation =>
      cases text with
      | nil => cases isInside
      | cons first rest => rfl

theorem first?_append : first? (text ++ '\n' :: behind) = first? text := by
  simp only [first?, settled.length?_append]

end Settled

/-! ## Texts that are not closed -/

/-- A quote that opens nothing begins no lexeme. -/
theorem first?_of_openQuote {quote : Char} {rest : List Char}
    (isQuote : quote = '"' ∨ quote = '\'') (opens : closedQuoteLength? quote rest = none) :
    first? (quote :: rest) = none := by
  have notQuoted : quotedLength? quote (quote :: rest) = none := by
    rw [quotedLength?, if_pos rfl, opens]
    rfl
  rw [first?, List.findSome?_eq_none_iff]
  intro pattern _
  rw [Option.map_eq_none_iff]
  rcases isQuote with rfl | rfl
  · cases pattern with
    | doubleQuoted => exact notQuoted
    | _ => rfl
  · cases pattern with
    | singleQuoted => exact notQuoted
    | _ => rfl

/-- The slash of a comment that is not closed is an operator. -/
theorem first?_of_openComment {rest : List Char} (opens : closedCommentLength? rest = none) :
    first? ('/' :: '*' :: rest) = some (.operator, 1) := by
  have notComment : Pattern.blockComment.length? ('/' :: '*' :: rest) = none := by
    rw [length?, opens]
    rfl
  rw [first?, table, List.findSome?_cons, List.findSome?_cons, List.findSome?_cons, notComment]
  rfl

theorem first?_star (rest : List Char) : first? ('*' :: rest) = some (.operator, 1) := rfl

end Pattern

end TwinSwarm
