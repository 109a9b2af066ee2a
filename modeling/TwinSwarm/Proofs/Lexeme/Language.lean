import Mathlib.Data.List.Forall2
import TwinSwarm.Proofs.Lexeme.Fidelity

/-!
# The languages of patterns

What a pattern takes can be said without saying how it is found: a run that goes no further, a
comment up to its first closing mark, a quoted text, the longest operator.  The scanning functions
take exactly that, so the table and these languages alone fix the pieces into which a source
text is cut, and what each piece is.
-/

namespace TwinSwarm

/-! ## Classes of characters -/

/-- A letter from `A` to `Z` or from `a` to `z`, or the underscore. -/
def IsWordStart (character : Char) : Prop :=
  'A' ≤ character ∧ character ≤ 'Z' ∨ 'a' ≤ character ∧ character ≤ 'z' ∨ character = '_'

/-- A digit from `0` to `9`. -/
def IsDecimalDigit (character : Char) : Prop :=
  '0' ≤ character ∧ character ≤ '9'

theorem isDigit_iff {character : Char} : character.isDigit = true ↔ IsDecimalDigit character := by
  simp [Char.isDigit, IsDecimalDigit, Char.le_def]

theorem isUpper_iff {character : Char} :
    character.isUpper = true ↔ 'A' ≤ character ∧ character ≤ 'Z' :=
  decide_eq_true_iff

theorem isLower_iff {character : Char} :
    character.isLower = true ↔ 'a' ≤ character ∧ character ≤ 'z' :=
  Bool.and_eq_true_iff.trans (and_congr decide_eq_true_iff decide_eq_true_iff)

theorem startsWord_iff {character : Char} :
    startsWord character = true ↔ IsWordStart character := by
  have isAlpha_iff : character.isAlpha = true ↔ _ :=
    Bool.or_eq_true_iff.trans (or_congr isUpper_iff isLower_iff)
  rw [startsWord, Bool.or_eq_true_iff, isAlpha_iff, decide_eq_true_iff, IsWordStart, or_assoc]

theorem continuesWord_iff {character : Char} :
    continuesWord character = true ↔ IsWordStart character ∨ IsDecimalDigit character := by
  rw [← startsWord_iff, ← isDigit_iff, continuesWord, startsWord, Char.isAlphanum]
  simp only [Bool.or_eq_true]
  exact or_right_comm

namespace Pattern

/-! ## What patterns take -/

/-- No character of a class stands at the front of a text. -/
def StopsBefore (belongs : Char → Prop) (behind : List Char) : Prop :=
  ∀ character ∈ behind.head?, ¬ belongs character

theorem StopsBefore.imp {first second : Char → Prop} {behind : List Char}
    (stops : StopsBefore first behind) (smaller : ∀ character, second character → first character) :
    StopsBefore second behind :=
  fun character isNext isSecond => stops character isNext (smaller character isSecond)

/-- What may stand between two quotes: any character but the quote and the backslash, and any
character behind a backslash. -/
inductive Quotable (quote : Char) : List Char → Prop where
  | nil : Quotable quote []
  | plain {character : Char} {rest : List Char} (notQuote : character ≠ quote)
      (notBackslash : character ≠ '\\') (quotable : Quotable quote rest) :
      Quotable quote (character :: rest)
  | escaped {character : Char} {rest : List Char} (quotable : Quotable quote rest) :
      Quotable quote ('\\' :: character :: rest)

/-- What a pattern takes in front of a text. -/
inductive Takes : Pattern → List Char → List Char → Prop where
  | blanks {taken behind : List Char} (nonempty : taken ≠ [])
      (inside : ∀ character ∈ taken, Text.isBlank character = true)
      (stops : StopsBefore (Text.isBlank · = true) behind) : Takes .blanks taken behind
  | lineComment {body behind : List Char} (inside : '\n' ∉ body)
      (stops : StopsBefore (· ≠ '\n') behind) : Takes .lineComment ('/' :: '/' :: body) behind
  | blockComment {body behind : List Char}
      (isFirst : ∀ earlier later, body ++ '*' :: '/' :: behind = earlier ++ '*' :: '/' :: later →
        body.length ≤ earlier.length) :
      Takes .blockComment ('/' :: '*' :: (body ++ ['*', '/'])) behind
  | word {first : Char} {others behind : List Char} (starts : IsWordStart first)
      (inside : ∀ character ∈ others, IsWordStart character ∨ IsDecimalDigit character)
      (stops : StopsBefore (fun next => IsWordStart next ∨ IsDecimalDigit next) behind) :
      Takes .word (first :: others) behind
  | decimal {whole fraction behind : List Char} (wholeNonempty : whole ≠ [])
      (fractionNonempty : fraction ≠ [])
      (wholeDigits : ∀ digit ∈ whole, IsDecimalDigit digit)
      (fractionDigits : ∀ digit ∈ fraction, IsDecimalDigit digit)
      (stops : StopsBefore IsDecimalDigit behind) :
      Takes .decimal (whole ++ '.' :: fraction) behind
  | integer {digits behind : List Char} (nonempty : digits ≠ [])
      (inside : ∀ digit ∈ digits, IsDecimalDigit digit)
      (stops : StopsBefore IsDecimalDigit behind) : Takes .integer digits behind
  | doubleQuoted {body behind : List Char} (quotable : Quotable '"' body) :
      Takes .doubleQuoted ('"' :: (body ++ ['"'])) behind
  | singleQuoted {body behind : List Char} (quotable : Quotable '\'' body) :
      Takes .singleQuoted ('\'' :: (body ++ ['\''])) behind
  | operator {taken behind : List Char} (isOperator : taken ∈ operators)
      (isLongest : ∀ other ∈ operators, other <+: taken ++ behind →
        other.length ≤ taken.length) : Takes .operator taken behind
  | punctuation {mark : Char} {behind : List Char} (isMark : mark ∈ punctuationMarks) :
      Takes .punctuation [mark] behind

/-- A pattern takes something in front of a text. -/
def Matches (pattern : Pattern) (text : List Char) : Prop :=
  ∃ taken behind, text = taken ++ behind ∧ pattern.Takes taken behind

/-! ## Runs -/

/-- A run takes all characters of a class, and goes no further. -/
theorem runLength_eq_length_iff {accept : Char → Bool} {taken behind : List Char} :
    runLength accept (taken ++ behind) = taken.length ↔
      (∀ character ∈ taken, accept character = true) ∧
        StopsBefore (accept · = true) behind := by
  constructor
  · intro lengthEq
    have runEq : (taken ++ behind).takeWhile accept = taken :=
      (List.prefix_of_prefix_length_le (List.takeWhile_prefix accept)
        (List.prefix_append taken behind) (Nat.le_of_eq lengthEq)).eq_of_length lengthEq
    have inside : ∀ character ∈ taken, accept character = true := by
      have all := List.all_takeWhile (p := accept) (l := taken ++ behind)
      rw [runEq] at all
      exact List.all_eq_true.mp all
    refine ⟨inside, ?_⟩
    rw [List.takeWhile_append_of_pos inside, List.append_right_eq_self] at runEq
    cases behind with
    | nil => exact fun _ isNext => nomatch isNext
    | cons next rest =>
        intro character isNext accepted
        cases isNext
        rw [List.takeWhile_cons_of_pos accepted] at runEq
        exact List.cons_ne_nil _ _ runEq
  · rintro ⟨inside, stops⟩
    rw [runLength, List.takeWhile_append_of_pos inside]
    cases behind with
    | nil => rw [List.takeWhile_nil, List.append_nil]
    | cons next rest =>
        rw [List.takeWhile_cons_of_neg (stops next rfl), List.append_nil]

/-- A text begins with a run. -/
theorem exists_run (accept : Char → Bool) (text : List Char) :
    ∃ taken behind, text = taken ++ behind ∧ runLength accept text = taken.length :=
  ⟨_, _, List.takeWhile_append_dropWhile.symm, rfl⟩

/-! ## Comments -/

theorem exists_closing {text : List Char} {length : Nat}
    (closes : closedCommentLength? text = some length) :
    ∃ body behind, text = body ++ '*' :: '/' :: behind ∧ length = body.length + 2 := by
  fun_induction closedCommentLength? text generalizing length with
  | case1 => cases closes
  | case2 rest =>
      cases closes
      exact ⟨[], rest, rfl, rfl⟩
  | case3 character rest _ ih =>
      rcases Option.map_eq_some_iff.mp closes with ⟨inside, closesInside, rfl⟩
      rcases ih closesInside with ⟨body, behind, rfl, rfl⟩
      exact ⟨character :: body, behind, rfl, rfl⟩

/-- The closing mark that is found stands no later than any other. -/
theorem exists_closedCommentLength? (earlier later : List Char) :
    ∃ length, closedCommentLength? (earlier ++ '*' :: '/' :: later) = some length ∧
      length ≤ earlier.length + 2 := by
  induction earlier with
  | nil => exact ⟨2, rfl, Nat.le_refl 2⟩
  | cons character rest ih =>
      rcases ih with ⟨length, closes, atMost⟩
      rw [List.cons_append, closedCommentLength?.eq_def]
      split
      next isEmpty => cases isEmpty
      next => exact ⟨2, rfl, Nat.le_add_left _ _⟩
      next first others textEq =>
          cases textEq
          exact ⟨length + 1, by rw [closes]; rfl, by rw [List.length_cons]; omega⟩

/-! ## Quoted texts -/

section Quoted

variable {quote : Char} {text : List Char}

theorem exists_quotable {length : Nat} (closes : closedQuoteLength? quote text = some length) :
    ∃ body behind, text = body ++ quote :: behind ∧ length = body.length + 1 ∧
      Quotable quote body := by
  fun_induction closedQuoteLength? quote text generalizing length with
  | case1 => cases closes
  | case2 => cases closes
  | case3 character rest ih =>
      rcases Option.map_eq_some_iff.mp closes with ⟨inside, closesInside, rfl⟩
      rcases ih closesInside with ⟨body, behind, rfl, rfl, quotable⟩
      exact ⟨'\\' :: character :: body, behind, rfl, rfl, .escaped quotable⟩
  | case4 rest =>
      cases closes
      exact ⟨[], rest, rfl, rfl, .nil⟩
  | case5 character rest notLast notEscape notQuote ih =>
      have notBackslash := ne_backslash notLast notEscape
      rcases Option.map_eq_some_iff.mp closes with ⟨inside, closesInside, rfl⟩
      rcases ih closesInside with ⟨body, behind, rfl, rfl, quotable⟩
      exact ⟨character :: body, behind, rfl, rfl, .plain notQuote notBackslash quotable⟩

theorem Quotable.closedQuoteLength? {body : List Char} (quotable : Quotable quote body)
    (notBackslash : quote ≠ '\\') (behind : List Char) :
    closedQuoteLength? quote (body ++ quote :: behind) = some (body.length + 1) := by
  induction quotable with
  | nil =>
      rw [List.nil_append, Pattern.closedQuoteLength?.eq_4, if_pos rfl]
      · rfl
      all_goals simp [notBackslash]
  | @plain character rest notQuote plain _ ih =>
      rw [List.cons_append, Pattern.closedQuoteLength?.eq_4, if_neg notQuote, ih]
      · rfl
      all_goals simp [plain]
  | escaped _ ih =>
      rw [List.cons_append, List.cons_append, Pattern.closedQuoteLength?.eq_3, ih]
      rfl

theorem exists_quoted {length : Nat} (isQuoted : quotedLength? quote text = some length) :
    ∃ body behind, text = quote :: (body ++ [quote]) ++ behind ∧ length = body.length + 2 ∧
      Quotable quote body := by
  cases text with
  | nil => cases isQuoted
  | cons character rest =>
      rw [quotedLength?, Option.ite_none_right_eq_some] at isQuoted
      rcases Option.map_eq_some_iff.mp isQuoted.2 with ⟨inside, closes, rfl⟩
      rcases exists_quotable closes with ⟨body, behind, rfl, rfl, quotable⟩
      exact ⟨body, behind, by simp [isQuoted.1], rfl, quotable⟩

theorem Quotable.quotedLength? {body : List Char} (quotable : Quotable quote body)
    (notBackslash : quote ≠ '\\') (behind : List Char) :
    quotedLength? quote (quote :: (body ++ [quote]) ++ behind) =
      some (quote :: (body ++ [quote])).length := by
  rw [List.cons_append, List.append_assoc, Pattern.quotedLength?, if_pos rfl,
    List.singleton_append, quotable.closedQuoteLength? notBackslash, List.length_cons,
    List.length_append]
  rfl

end Quoted

/-! ## Digits -/

theorem digitRun_eq_length_iff {digits behind : List Char} :
    runLength Char.isDigit (digits ++ behind) = digits.length ↔
      (∀ digit ∈ digits, IsDecimalDigit digit) ∧ StopsBefore IsDecimalDigit behind := by
  rw [runLength_eq_length_iff]
  simp only [isDigit_iff]

/-- A point is no digit. -/
theorem stopsBefore_point (rest : List Char) : StopsBefore IsDecimalDigit ('.' :: rest) := by
  intro point isNext isDigit
  cases isNext
  exact absurd (isDigit_iff.mpr isDigit) (by decide)

theorem exists_decimal {text : List Char} {length : Nat}
    (isDecimal : decimalLength? text = some length) :
    ∃ taken behind, text = taken ++ behind ∧ length = taken.length ∧
      Takes .decimal taken behind := by
  rcases exists_run Char.isDigit text with ⟨whole, rest, rfl, wholeRun⟩
  simp only [decimalLength?, wholeRun, List.drop_left] at isDecimal
  split at isDecimal
  next rest =>
    rcases exists_run Char.isDigit rest with ⟨fraction, behind, rfl, fractionRun⟩
    rcases Option.ite_none_left_eq_some.mp isDecimal with ⟨nonempty, lengthEq⟩
    rw [fractionRun, List.length_eq_zero_iff, List.length_eq_zero_iff, not_or] at nonempty
    rcases digitRun_eq_length_iff.mp wholeRun with ⟨wholeDigits, _⟩
    rcases digitRun_eq_length_iff.mp fractionRun with ⟨fractionDigits, stops⟩
    refine ⟨whole ++ '.' :: fraction, behind, by simp, ?_,
      .decimal nonempty.1 nonempty.2 wholeDigits fractionDigits stops⟩
    cases lengthEq
    rw [fractionRun, List.length_append, List.length_cons]
    omega
  next => cases isDecimal

theorem decimalLength?_of_digits {whole fraction behind : List Char} (wholeNonempty : whole ≠ [])
    (fractionNonempty : fraction ≠ []) (wholeDigits : ∀ digit ∈ whole, IsDecimalDigit digit)
    (fractionDigits : ∀ digit ∈ fraction, IsDecimalDigit digit)
    (stops : StopsBefore IsDecimalDigit behind) :
    decimalLength? (whole ++ '.' :: fraction ++ behind) =
      some (whole ++ '.' :: fraction).length := by
  rw [List.append_assoc, List.cons_append, decimalLength?]
  simp only [digitRun_eq_length_iff.mpr ⟨wholeDigits, stopsBefore_point _⟩, List.drop_left,
    digitRun_eq_length_iff.mpr ⟨fractionDigits, stops⟩, List.length_eq_zero_iff, wholeNonempty,
    fractionNonempty, or_self, if_false, List.length_append, List.length_cons]
  rw [Nat.add_assoc, Nat.add_comm 1]

/-! ## Operators -/

/-- No operator stands in the table behind one that begins it. -/
theorem operators_pairwise :
    operators.Pairwise fun first second => ¬ (first <+: second ∧ first.length < second.length) := by
  decide

theorem exists_operator {text : List Char} {length : Nat}
    (found : Pattern.operator.length? text = some length) :
    ∃ taken behind, text = taken ++ behind ∧ length = taken.length ∧
      Takes .operator taken behind := by
  rcases List.findSome?_eq_some_iff.mp found with ⟨before, taken, after, tableEq, isHere, missed⟩
  rcases Option.ite_none_right_eq_some.mp isHere with ⟨begins, lengthEq⟩
  rcases List.isPrefixOf_iff_prefix.mp begins with ⟨behind, rfl⟩
  cases lengthEq
  refine ⟨taken, behind, rfl, rfl, .operator (tableEq ▸ by simp) ?_⟩
  intro other isOperator otherBegins
  refine Nat.le_of_not_lt fun longer => ?_
  have ordered := operators_pairwise
  rw [tableEq, List.mem_append, List.mem_cons] at isOperator
  rw [tableEq, List.pairwise_append, List.pairwise_cons] at ordered
  rcases isOperator with isBefore | rfl | isAfter
  · have missedOther := missed other isBefore
    rw [if_pos (List.isPrefixOf_iff_prefix.mpr otherBegins)] at missedOther
    cases missedOther
  · exact Nat.lt_irrefl _ longer
  · have beginsOther := List.prefix_of_prefix_length_le (List.prefix_append taken behind)
      otherBegins (Nat.le_of_lt longer)
    exact ordered.2.1.1 other isAfter ⟨beginsOther, longer⟩

theorem operatorLength?_of_longest {taken behind : List Char} (isOperator : taken ∈ operators)
    (isLongest : ∀ other ∈ operators, other <+: taken ++ behind →
      other.length ≤ taken.length) :
    Pattern.operator.length? (taken ++ behind) = some taken.length := by
  cases found : Pattern.operator.length? (taken ++ behind) with
  | none =>
      have missed := List.findSome?_eq_none_iff.mp found taken isOperator
      rw [if_pos (List.isPrefixOf_iff_prefix.mpr (List.prefix_append taken behind))] at missed
      cases missed
  | some length =>
      rcases exists_operator found with ⟨other, rest, textEq, rfl, takes⟩
      cases takes with
      | operator isOther otherLongest =>
          have atLeast := otherLongest taken isOperator (textEq ▸ List.prefix_append taken behind)
          have atMost := isLongest other isOther (textEq ▸ List.prefix_append other rest)
          rw [Nat.le_antisymm atMost atLeast]

/-! ## The scanning functions -/

/-- What a pattern is found to take is a text of its language. -/
theorem exists_takes {pattern : Pattern} {text : List Char} {length : Nat}
    (found : pattern.length? text = some length) :
    ∃ taken behind, text = taken ++ behind ∧ length = taken.length ∧
      pattern.Takes taken behind := by
  fun_cases Pattern.length? pattern text with
  | case1 =>
      rcases exists_run Text.isBlank text with ⟨taken, behind, rfl, run⟩
      rcases positive?_eq_some.mp found with ⟨lengthEq, positive⟩
      rcases runLength_eq_length_iff.mp run with ⟨inside, stops⟩
      rw [← lengthEq, run] at positive
      exact ⟨taken, behind, rfl, lengthEq.symm.trans run,
        .blanks (List.ne_nil_of_length_pos positive) inside stops⟩
  | case2 rest =>
      rcases exists_run (· ≠ '\n') rest with ⟨body, behind, rfl, run⟩
      rcases runLength_eq_length_iff.mp run with ⟨inside, stops⟩
      simp only [decide_eq_true_eq] at inside stops
      cases found
      refine ⟨'/' :: '/' :: body, behind, rfl, ?_,
        .lineComment (fun isInside => inside _ isInside rfl) stops⟩
      rw [run, Nat.add_comm]
      rfl
  | case4 rest =>
      rcases Option.map_eq_some_iff.mp found with ⟨inside, closes, rfl⟩
      rcases exists_closing closes with ⟨body, behind, rfl, rfl⟩
      refine ⟨'/' :: '*' :: (body ++ ['*', '/']), behind, by simp, by simp; omega,
        .blockComment ?_⟩
      -- An earlier end mark would have been found first, with a smaller length.
      intro earlier later textEq
      rcases exists_closedCommentLength? earlier later with ⟨length, closesEarlier, atMost⟩
      rw [textEq, closesEarlier] at closes
      cases closes
      omega
  | case6 first rest starts =>
      rw [length?, if_pos starts] at found
      rcases exists_run continuesWord rest with ⟨others, behind, rfl, run⟩
      rcases runLength_eq_length_iff.mp run with ⟨inside, stops⟩
      simp only [continuesWord_iff] at inside stops
      cases found
      refine ⟨first :: others, behind, rfl, ?_, .word (startsWord_iff.mp starts) inside stops⟩
      rw [run, Nat.add_comm]
      rfl
  | case9 => exact exists_decimal found
  | case10 =>
      rcases exists_run Char.isDigit text with ⟨digits, behind, rfl, run⟩
      rcases positive?_eq_some.mp found with ⟨lengthEq, positive⟩
      rcases digitRun_eq_length_iff.mp run with ⟨inside, stops⟩
      rw [← lengthEq, run] at positive
      exact ⟨digits, behind, rfl, lengthEq.symm.trans run,
        .integer (List.ne_nil_of_length_pos positive) inside stops⟩
  | case11 =>
      rcases exists_quoted found with ⟨body, behind, rfl, rfl, quotable⟩
      exact ⟨_, behind, rfl, by simp, .doubleQuoted quotable⟩
  | case12 =>
      rcases exists_quoted found with ⟨body, behind, rfl, rfl, quotable⟩
      exact ⟨_, behind, rfl, by simp, .singleQuoted quotable⟩
  | case13 => exact exists_operator found
  | case14 mark behind isMark =>
      rw [length?, if_pos isMark] at found
      cases found
      exact ⟨[mark], behind, rfl, rfl, .punctuation isMark⟩
  | case3 | case5 | case7 | case8 | case15 | case16 => simp_all [length?]

/-- A text of the language of a pattern is found. -/
theorem Takes.length?_eq {pattern : Pattern} {taken behind : List Char}
    (takes : pattern.Takes taken behind) :
    pattern.length? (taken ++ behind) = some taken.length := by
  cases takes with
  | blanks nonempty inside stops =>
      exact positive?_eq_some.mpr ⟨runLength_eq_length_iff.mpr ⟨inside, stops⟩,
        List.length_pos_iff.mpr nonempty⟩
  | @lineComment body _ inside stops =>
      have run : runLength (· ≠ '\n') (body ++ behind) = body.length := by
        refine runLength_eq_length_iff.mpr ⟨?_, ?_⟩
        · exact fun character isInside => decide_eq_true (ne_of_mem_of_not_mem isInside inside)
        · exact fun next isNext accepted => stops next isNext (of_decide_eq_true accepted)
      rw [List.cons_append, List.cons_append, length?, run, Nat.add_comm]
      rfl
  | @blockComment body _ isFirst =>
      rcases exists_closedCommentLength? body behind with ⟨length, closes, atMost⟩
      rcases exists_closing closes with ⟨earlier, later, textEq, rfl⟩
      -- The end mark that is found is not behind the one in the language, and not before it either.
      have atLeast := isFirst earlier later textEq
      have lengthEq : earlier.length = body.length := by omega
      simp only [List.cons_append, List.append_assoc, List.nil_append, length?, closes, lengthEq]
      simp
      omega
  | @word first others _ starts inside stops =>
      simp only [← continuesWord_iff] at inside stops
      rw [List.cons_append, length?, if_pos (startsWord_iff.mpr starts),
        runLength_eq_length_iff.mpr ⟨inside, stops⟩, Nat.add_comm]
      rfl
  | decimal wholeNonempty fractionNonempty wholeDigits fractionDigits stops =>
      exact decimalLength?_of_digits wholeNonempty fractionNonempty wholeDigits fractionDigits stops
  | integer nonempty inside stops =>
      exact positive?_eq_some.mpr ⟨digitRun_eq_length_iff.mpr ⟨inside, stops⟩,
        List.length_pos_iff.mpr nonempty⟩
  | doubleQuoted quotable => exact quotable.quotedLength? (by decide) behind
  | singleQuoted quotable => exact quotable.quotedLength? (by decide) behind
  | operator isOperator isLongest => exact operatorLength?_of_longest isOperator isLongest
  | punctuation isMark => exact if_pos isMark

/-- The scanning function of a pattern takes what the pattern stands for. -/
theorem length?_eq_length_iff {pattern : Pattern} {taken behind : List Char} :
    pattern.length? (taken ++ behind) = some taken.length ↔ pattern.Takes taken behind := by
  constructor
  · intro found
    rcases exists_takes found with ⟨other, rest, textEq, lengthEq, takes⟩
    rcases List.append_inj textEq lengthEq with ⟨rfl, rfl⟩
    exact takes
  · exact Takes.length?_eq

theorem length?_eq_none_iff {pattern : Pattern} {text : List Char} :
    pattern.length? text = none ↔ ¬ pattern.Matches text := by
  constructor
  · rintro nothing ⟨taken, behind, rfl, takes⟩
    rw [takes.length?_eq] at nothing
    cases nothing
  · intro noMatch
    cases found : pattern.length? text with
    | none => rfl
    | some length =>
        rcases exists_takes found with ⟨taken, behind, textEq, _, takes⟩
        exact absurd ⟨taken, behind, textEq, takes⟩ noMatch

/-! ## The table -/

/-- The first pattern of the table that takes something in front of a text, and what it takes. -/
def TakesFirst (pattern : Pattern) (taken behind : List Char) : Prop :=
  pattern.Takes taken behind ∧
    ∃ before after, table = before ++ pattern :: after ∧
      ∀ earlier ∈ before, ¬ earlier.Matches (taken ++ behind)

theorem mem_table (pattern : Pattern) : pattern ∈ table := by
  cases pattern <;> decide

theorem first?_eq_length_iff {pattern : Pattern} {taken behind : List Char} :
    first? (taken ++ behind) = some (pattern, taken.length) ↔
      pattern.TakesFirst taken behind := by
  rw [first?, List.findSome?_eq_some_iff]
  constructor
  · rintro ⟨before, tried, after, tableEq, found, missed⟩
    rcases Option.map_eq_some_iff.mp found with ⟨length, isFound, pairEq⟩
    cases pairEq
    refine ⟨length?_eq_length_iff.mp isFound, before, after, tableEq, ?_⟩
    intro earlier isBefore
    exact length?_eq_none_iff.mp (Option.map_eq_none_iff.mp (missed earlier isBefore))
  · rintro ⟨takes, before, after, tableEq, missed⟩
    refine ⟨before, pattern, after, tableEq, ?_, ?_⟩
    · rw [takes.length?_eq]
      rfl
    · intro earlier isBefore
      exact Option.map_eq_none_iff.mpr (length?_eq_none_iff.mpr (missed earlier isBefore))

theorem first?_eq_none_iff {text : List Char} :
    first? text = none ↔ ∀ pattern : Pattern, ¬ pattern.Matches text := by
  rw [first?, List.findSome?_eq_none_iff]
  constructor
  · intro missed pattern
    exact length?_eq_none_iff.mp (Option.map_eq_none_iff.mp (missed pattern (mem_table pattern)))
  · intro noMatch pattern _
    exact Option.map_eq_none_iff.mpr (length?_eq_none_iff.mpr (noMatch pattern))

/-- A text and the pieces into which it is cut: at each place the first pattern of the table that
takes something takes it, and where none does, a single character is left over. -/
inductive IsCutInto : List Char → List (Option Pattern × List Char) → Prop where
  | nil : IsCutInto [] []
  | matched {pattern : Pattern} {taken behind : List Char}
      {others : List (Option Pattern × List Char)} (takes : pattern.TakesFirst taken behind)
      (isCut : IsCutInto behind others) :
      IsCutInto (taken ++ behind) ((some pattern, taken) :: others)
  | unexpected {character : Char} {behind : List Char}
      {others : List (Option Pattern × List Char)}
      (noMatch : ∀ pattern : Pattern, ¬ pattern.Matches (character :: behind))
      (isCut : IsCutInto behind others) :
      IsCutInto (character :: behind) ((none, [character]) :: others)

/-! ## The kinds of words -/

/-- A word consists of the given small letters, each of which may also be a capital. -/
def SameLetters (word letters : String) : Prop :=
  List.Forall₂ (fun written letter => written = letter ∨ written = letter.toUpper)
    word.toList letters.toList

theorem toLower_eq_iff {written letter : Char} (isSmall : letter.isLower = true) :
    written.toLower = letter ↔ written = letter ∨ written = letter.toUpper := by
  unfold Char.toLower Char.toUpper
  rw [isLower_iff, Char.le_def, Char.le_def] at isSmall
  split <;> simp_all [Char.ext_iff] <;> grind

theorem map_toLower_eq_iff {letters : List Char}
    (small : letters.all Char.isLower = true) (word : List Char) :
    word.map Char.toLower = letters ↔
      List.Forall₂ (fun written letter => written = letter ∨ written = letter.toUpper)
        word letters := by
  induction letters generalizing word with
  | nil => rw [List.map_eq_nil_iff, List.forall₂_nil_right_iff]
  | cons letter rest ih =>
      rw [List.all_cons, Bool.and_eq_true] at small
      cases word with
      | nil => simp
      | cons written others =>
          rw [List.map_cons, List.cons.injEq, List.forall₂_cons, toLower_eq_iff small.1,
            ih small.2]

theorem spellsTrue_iff {word : String} :
    Token.spellsTrue word = true ↔ SameLetters word "true" :=
  decide_eq_true_iff.trans (map_toLower_eq_iff (by decide) _)

theorem spellsFalse_iff {word : String} :
    Token.spellsFalse word = true ↔ SameLetters word "false" :=
  decide_eq_true_iff.trans (map_toLower_eq_iff (by decide) _)

/-- What kind of token a pattern gives.  A word is told apart by its letters; blanks and comments
give no token. -/
inductive Gives : Pattern → String → Token.Kind → Prop where
  | boolean {word : String} (isBoolean : SameLetters word "true" ∨ SameLetters word "false") :
      Gives .word word .boolean
  | keyword {word : String} (notBoolean : ¬ (SameLetters word "true" ∨ SameLetters word "false"))
      (isKeyword : word ∈ Token.keywords) : Gives .word word .keyword
  | identifier {word : String}
      (notBoolean : ¬ (SameLetters word "true" ∨ SameLetters word "false"))
      (notKeyword : word ∉ Token.keywords) : Gives .word word .identifier
  | decimal (text : String) : Gives .decimal text .number
  | integer (text : String) : Gives .integer text .number
  | doubleQuoted (text : String) : Gives .doubleQuoted text .string
  | singleQuoted (text : String) : Gives .singleQuoted text .string
  | operator (text : String) : Gives .operator text .operator
  | punctuation (text : String) : Gives .punctuation text .punctuation

theorem gives_kindOfWord (word : String) : Gives .word word (Token.kindOfWord word) := by
  have isBoolean : (Token.spellsTrue word || Token.spellsFalse word) = true ↔
      SameLetters word "true" ∨ SameLetters word "false" := by
    rw [Bool.or_eq_true, spellsTrue_iff, spellsFalse_iff]
  rw [Token.kindOfWord]
  split
  next spelled => exact .boolean (isBoolean.mp spelled)
  next notSpelled =>
    have notBoolean := mt isBoolean.mpr notSpelled
    split
    next isKeyword => exact .keyword notBoolean isKeyword
    next notKeyword => exact .identifier notBoolean notKeyword

end Pattern

namespace Lexeme

open Pattern

/-- What is neither blank nor a comment nor unexpected is a token of the kind that its pattern
gives. -/
theorem exists_token {lexeme : Lexeme}
    (visible : lexeme.pattern ∉ [none, some .blanks, some .lineComment, some .blockComment]) :
    ∃ token, lexeme.token? = some token ∧ ∃ pattern, lexeme.pattern = some pattern ∧
      pattern.Gives (String.ofList lexeme.text) token.kind ∧
      token.text = String.ofList lexeme.text := by
  rcases lexeme with ⟨pattern, text, offset, location⟩
  cases pattern with
  | none => simp at visible
  | some pattern =>
      cases pattern with
      | blanks | lineComment | blockComment => simp at visible
      | word => exact ⟨_, rfl, _, rfl, gives_kindOfWord _, rfl⟩
      | decimal | integer | doubleQuoted | singleQuoted | operator | punctuation =>
          exact ⟨_, rfl, _, rfl, by constructor, rfl⟩

/-- What a lexeme is, without its place. -/
def piece (lexeme : Lexeme) : Option Pattern × List Char :=
  (lexeme.pattern, lexeme.text)

/-- A lexeme that no pattern matches is a single character. -/
theorem exists_character {text : List Char} {lexeme : Lexeme} (isLexeme : lexeme ∈ ofText text)
    (noMatch : lexeme.pattern = none) : ∃ character, lexeme.text = [character] := by
  rcases List.append_of_mem isLexeme with ⟨before, behind, splitEq⟩
  have cuts := ((ofTextFrom_tiles 0 .start text).split splitEq).2.2
  rw [noMatch] at cuts
  generalize lexeme.text = taken at cuts ⊢
  cases cuts with
  | unmatched => exact ⟨_, rfl⟩

/-- The lexemes of a text are the pieces into which it is cut. -/
theorem isCutInto_iff {text : List Char} {pieces : List (Option Pattern × List Char)}
    (offset : Nat) (location : Location) :
    IsCutInto text pieces ↔ pieces = (ofTextFrom offset location text).map piece := by
  constructor
  · intro isCut
    induction isCut generalizing offset location with
    | nil =>
        rw [ofTextFrom]
        rfl
    | matched takes _ ih =>
        rw [ofTextFrom_of_cuts (.matched (first?_eq_length_iff.mpr takes)), List.map_cons, ← ih]
        rfl
    | unexpected noMatch _ ih =>
        have lexemesEq := ofTextFrom_of_cuts (.unmatched (first?_eq_none_iff.mpr noMatch))
          offset location
        rw [List.singleton_append] at lexemesEq
        rw [lexemesEq, List.map_cons, ← ih]
        rfl
  · rintro rfl
    induction text using cutsInduction generalizing offset location with
    | nil =>
        rw [ofTextFrom]
        exact .nil
    | cut pattern taken behind cuts ih =>
        rw [ofTextFrom_of_cuts cuts]
        cases cuts with
        | matched found => exact .matched (first?_eq_length_iff.mp found) (ih _ _)
        | unmatched lost => exact .unexpected (first?_eq_none_iff.mp lost) (ih _ _)

end Lexeme

namespace Lexing

/-- The table and the languages of its patterns fix what is found in a source text. -/
structure FollowsTable (source : String) (pieces : List (Option Pattern × List Char))
    (lexing : Lexing) : Prop where
  /-- The source can be cut into these pieces and into no others. -/
  unique : ∀ others, Pattern.IsCutInto source.toList others ↔ others = pieces
  /-- Each piece that is neither blank nor a comment nor unexpected is a token of the kind that
  its pattern gives.  One more token marks the end. -/
  tokens : ∃ inside last, lexing.tokens = inside ++ [last] ∧ last.kind = .endOfFile ∧
    List.Forall₂
      (fun piece token => ∃ pattern, piece.1 = some pattern ∧
        pattern.Gives (String.ofList piece.2) token.kind ∧ token.text = String.ofList piece.2)
      (pieces.filter fun piece =>
        piece.1 ∉ [none, some .blanks, some .lineComment, some .blockComment])
      inside
  /-- Each character in front of which nothing matches is reported. -/
  faults : List.Forall₂
    (fun piece fault => ∃ character, piece.2 = [character] ∧ fault.kind = .lexical ∧
      fault.message = "Unexpected character: '" ++ String.ofList [character] ++ "'")
    (pieces.filter fun piece => piece.1 = none) lexing.diagnostics

/-- The values that a partial function gives are related to the elements that it gives them
for. -/
theorem forall₂_filterMap {α β γ : Type} {view : α → γ} {keep : γ → Bool} {value? : α → Option β}
    {related : γ → β → Prop} {elements : List α}
    (given : ∀ element ∈ elements, keep (view element) = true →
      ∃ value, value? element = some value ∧ related (view element) value)
    (dropped : ∀ element ∈ elements, keep (view element) = false → value? element = none) :
    List.Forall₂ related ((elements.map view).filter keep) (elements.filterMap value?) := by
  induction elements with
  | nil => exact .nil
  | cons first others ih =>
      rw [List.forall_mem_cons] at given dropped
      have rest := ih given.2 dropped.2
      rw [List.map_cons, List.filter_cons, List.filterMap_cons]
      cases isKept : keep (view first) with
      | true =>
          rcases given.1 isKept with ⟨value, valueEq, isRelated⟩
          rw [valueEq]
          exact .cons isRelated rest
      | false =>
          rw [dropped.1 isKept]
          exact rest

/-- Reading a source text implements the ordered table of patterns. -/
theorem ofText_follows_table (source : String) (radius : Nat) :
    FollowsTable source ((Lexeme.ofText source.toList).map Lexeme.piece)
      (ofText source.toList radius) := by
  constructor
  case unique => exact fun others => Lexeme.isCutInto_iff 0 .start
  case tokens =>
    refine ⟨_, _, rfl, rfl, forall₂_filterMap ?_ ?_⟩
    · exact fun lexeme _ isKept => Lexeme.exists_token (of_decide_eq_true isKept)
    · intro lexeme _ isDropped
      exact lexeme.token?_eq_none_iff.mpr (Decidable.not_not.mp (of_decide_eq_false isDropped))
  case faults =>
    refine forall₂_filterMap ?_ ?_
    · intro lexeme isLexeme isKept
      have noMatch : lexeme.pattern = none := of_decide_eq_true isKept
      rcases Lexeme.exists_character isLexeme noMatch with ⟨character, textEq⟩
      refine ⟨_, by rw [Lexeme.diagnostic?, noMatch], character, textEq, rfl, ?_⟩
      rw [textEq]
    · intro lexeme _ isDropped
      rcases Option.ne_none_iff_exists'.mp (of_decide_eq_false isDropped) with ⟨pattern, isMatch⟩
      rw [Lexeme.diagnostic?, show lexeme.pattern = some pattern from isMatch]

end Lexing

end TwinSwarm
