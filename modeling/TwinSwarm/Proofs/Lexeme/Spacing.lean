import Mathlib.Data.List.Forall2
import TwinSwarm.Proofs.Lexeme.Concatenation
import TwinSwarm.Proofs.Lexeme.Language

/-!
# What stands between tokens

Where a token ends depends on the text behind it only through what that text could add: a further
character of a run, the second character of an operator, the digits of a fraction, the rest of a
comment.  A text that adds nothing of this may take its place.  So tokens can be written with
single spaces between them, and unexpected characters and comments can be blanked out, without
any change to the tokens.
-/

namespace TwinSwarm

namespace Pattern

/-! ## First characters -/

/-- A character at which a pattern may begin. -/
def Opens : Pattern → Char → Prop
  | .blanks, character => Text.isBlank character = true
  | .lineComment, character | .blockComment, character => character = '/'
  | .word, character => startsWord character = true
  | .decimal, character | .integer, character => character.isDigit = true
  | .doubleQuoted, character => character = '"'
  | .singleQuoted, character => character = '\''
  | .operator, character => some character ∈ operators.map List.head?
  | .punctuation, character => character ∈ punctuationMarks

theorem Takes.ne_nil {pattern : Pattern} {taken behind : List Char}
    (takes : pattern.Takes taken behind) : taken ≠ [] :=
  List.ne_nil_of_length_pos (length?_bounds takes.length?_eq).1

theorem Takes.opens {pattern : Pattern} {first : Char} {others behind : List Char}
    (takes : pattern.Takes (first :: others) behind) : pattern.Opens first := by
  generalize takenEq : first :: others = taken at takes
  cases takes with
  | blanks _ inside _ => exact inside first (takenEq ▸ List.mem_cons_self)
  | lineComment | blockComment | doubleQuoted | singleQuoted =>
      cases takenEq
      rfl
  | word starts =>
      cases takenEq
      exact startsWord_iff.mpr starts
  | @decimal whole _ _ wholeNonempty _ wholeDigits =>
      rcases List.exists_cons_of_ne_nil wholeNonempty with ⟨digit, digits, rfl⟩
      cases takenEq
      exact isDigit_iff.mpr (wholeDigits _ List.mem_cons_self)
  | integer _ inside => exact isDigit_iff.mpr (inside first (takenEq ▸ List.mem_cons_self))
  | operator isOperator => exact List.mem_map.mpr ⟨taken, isOperator, takenEq ▸ rfl⟩
  | punctuation isMark =>
      cases takenEq
      exact isMark

theorem Matches.opens {pattern : Pattern} {first : Char} {others : List Char}
    (isMatch : pattern.Matches (first :: others)) : pattern.Opens first := by
  rcases isMatch with ⟨taken, behind, textEq, takes⟩
  rcases List.exists_cons_of_ne_nil takes.ne_nil with ⟨character, rest, rfl⟩
  cases textEq
  exact takes.opens

/-- The last pattern of the table that begins at the same characters. -/
def group : Pattern → Pattern
  | .lineComment | .blockComment => .operator
  | .decimal => .integer
  | pattern => pattern

/-- The group of the patterns that may begin at a character. -/
def groupAt (character : Char) : Pattern :=
  if Text.isBlank character then .blanks
  else if startsWord character then .word
  else if character.isDigit then .integer
  else if character = '"' then .doubleQuoted
  else if character = '\'' then .singleQuoted
  else if character ∈ punctuationMarks then .punctuation
  else .operator

theorem startsWord_of_isDigit {character : Char} (isDigit : character.isDigit = true) :
    startsWord character = false := by
  rw [← Bool.not_eq_true, startsWord_iff]
  rcases isDigit_iff.mp isDigit with ⟨least, most⟩
  simp only [IsWordStart, Char.le_def] at least most ⊢
  rintro (⟨atLeast, _⟩ | ⟨atLeast, _⟩ | rfl)
  · exact absurd (UInt32.le_trans atLeast most) (by decide)
  · exact absurd (UInt32.le_trans atLeast most) (by decide)
  · exact absurd most (by decide)

/-- At a character only the patterns of one group may begin. -/
theorem Opens.group_eq {pattern : Pattern} {character : Char}
    (opens : pattern.Opens character) : pattern.group = groupAt character := by
  cases pattern with
  | blanks => exact (if_pos opens).symm
  | lineComment | blockComment | doubleQuoted | singleQuoted =>
      cases opens
      rfl
  | word =>
      have starts : startsWord character = true := opens
      simp [group, groupAt, isBlank_of_startsWord starts, starts]
  | decimal | integer =>
      have isDigit : character.isDigit = true := opens
      simp [group, groupAt, isBlank_of_isDigit isDigit, startsWord_of_isDigit isDigit, isDigit]
  | operator =>
      have ofEach : operators.all (·.head?.all (groupAt · = .operator)) = true := by decide
      rcases List.mem_map.mp opens with ⟨operator, isOperator, headEq⟩
      have ofFirst := List.all_eq_true.mp ofEach operator isOperator
      rw [headEq] at ofFirst
      exact (of_decide_eq_true ofFirst).symm
  | punctuation =>
      have ofEach : punctuationMarks.all (groupAt · = .punctuation) = true := by decide
      exact (of_decide_eq_true (List.all_eq_true.mp ofEach character opens)).symm

/-! ## Texts that add nothing -/

/-- Behind a token a text adds nothing that another one does not: it begins with a blank or with
the same character, and it completes no decimal and no comment that the other one does not
complete. -/
structure Tamer (behind calm : List Char) : Prop where
  next : ∀ character ∈ calm.head?, Text.isBlank character = true ∨ character ∈ behind.head?
  fraction : ∀ digit rest, IsDecimalDigit digit → calm = '.' :: digit :: rest →
    ∃ others, behind = '.' :: digit :: others
  comment : ∀ body later, calm = '*' :: (body ++ '*' :: '/' :: later) →
    ∃ body later, behind = '*' :: (body ++ '*' :: '/' :: later)

theorem Matches.of_length? {pattern : Pattern} {text : List Char} {length : Nat}
    (found : pattern.length? text = some length) : pattern.Matches text := by
  rcases exists_takes found with ⟨taken, behind, textEq, _, takes⟩
  exact ⟨taken, behind, textEq, takes⟩

/-- A comment begins where it is opened, if it is closed anywhere behind that. -/
theorem blockComment_matches_iff {text : List Char} :
    blockComment.Matches ('/' :: text) ↔
      ∃ body later, text = '*' :: (body ++ '*' :: '/' :: later) := by
  constructor
  · rintro ⟨taken, behind, textEq, takes⟩
    cases takes with
    | @blockComment body _ _ =>
        cases textEq
        exact ⟨body, behind, by simp⟩
  · rintro ⟨body, later, rfl⟩
    rcases exists_closedCommentLength? body later with ⟨length, closes, _⟩
    exact .of_length? (by rw [length?, closes]; rfl)

/-- A line comment begins where it is opened. -/
theorem lineComment_matches_iff {text : List Char} :
    lineComment.Matches ('/' :: text) ↔ ∃ rest, text = '/' :: rest := by
  constructor
  · rintro ⟨taken, behind, textEq, takes⟩
    cases takes with
    | lineComment =>
        cases textEq
        exact ⟨_, rfl⟩
  · rintro ⟨rest, rfl⟩
    exact .of_length? rfl

/-- Digits begin a decimal if a point and a digit follow. -/
theorem decimal_matches_iff {digits text : List Char} (nonempty : digits ≠ [])
    (inside : ∀ digit ∈ digits, IsDecimalDigit digit) (stops : StopsBefore IsDecimalDigit text) :
    decimal.Matches (digits ++ text) ↔
      ∃ digit rest, IsDecimalDigit digit ∧ text = '.' :: digit :: rest := by
  constructor
  · rintro ⟨taken, behind, textEq, takes⟩
    cases takes with
    | @decimal whole fraction _ _ fractionNonempty wholeDigits fractionDigits _ =>
        rw [List.append_assoc, List.cons_append] at textEq
        have wholeRun := digitRun_eq_length_iff.mpr
          ⟨wholeDigits, stopsBefore_point (fraction ++ behind)⟩
        have digitsRun := digitRun_eq_length_iff.mpr ⟨inside, stops⟩
        -- The digits in front of the point are a run in either way of writing the text.
        rw [textEq, wholeRun] at digitsRun
        rcases List.append_inj textEq digitsRun.symm with ⟨_, rfl⟩
        rcases List.exists_cons_of_ne_nil fractionNonempty with ⟨digit, others, rfl⟩
        exact ⟨digit, others ++ behind, fractionDigits digit List.mem_cons_self, rfl⟩
  · rintro ⟨digit, rest, isDigit, rfl⟩
    rcases exists_run Char.isDigit (digit :: rest) with ⟨fraction, behind, restEq, run⟩
    have fractionNonempty : fraction ≠ [] := by
      rintro rfl
      rw [runLength, List.takeWhile_cons_of_pos (isDigit_iff.mpr isDigit)] at run
      cases run
    rw [restEq] at run ⊢
    rcases digitRun_eq_length_iff.mp run with ⟨fractionDigits, fractionStops⟩
    exact ⟨digits ++ '.' :: fraction, behind, by simp,
      .decimal nonempty fractionNonempty inside fractionDigits fractionStops⟩

/-- Operators are short and hold no blanks. -/
theorem operators_plain : ∀ operator ∈ operators,
    0 < operator.length ∧ operator.length ≤ 2 ∧ operator.any Text.isBlank = false := by
  decide

/-- Patterns of one group, the first of which gives tokens. -/
theorem group_cases : ∀ pattern ∈ table, ∀ earlier ∈ table, earlier.group = pattern.group →
    pattern ∉ [.blanks, .lineComment, .blockComment] →
    earlier = pattern ∨ pattern = .decimal ∧ earlier = .integer ∨
      pattern = .integer ∧ earlier = .decimal ∨
      pattern = .operator ∧ (earlier = .lineComment ∨ earlier = .blockComment) := by
  decide

/-- The operator that opens comments is a single character. -/
theorem eq_slash {taken : List Char} (isOperator : taken ∈ operators)
    (opens : taken.head? = some '/') : taken = ['/'] := by
  have ofEach : ∀ operator ∈ operators, operator.head? = some '/' → operator = ['/'] := by decide
  exact ofEach taken isOperator opens

namespace Tamer

variable {behind calm : List Char} (tamer : Tamer behind calm)

include tamer

theorem stopsBefore {belongs : Char → Prop} (stops : StopsBefore belongs behind)
    (notBlank : ∀ character, belongs character → Text.isBlank character = false) :
    StopsBefore belongs calm := by
  intro character isNext isInside
  rcases tamer.next character isNext with blank | same
  · rw [notBlank character isInside] at blank
    cases blank
  · exact stops character same isInside

/-- What is a token in front of a text is a token in front of one that adds nothing. -/
theorem takes {pattern : Pattern} {taken : List Char} (takes : pattern.Takes taken behind)
    (visible : pattern ∉ [.blanks, .lineComment, .blockComment]) : pattern.Takes taken calm := by
  cases takes with
  | blanks | lineComment | blockComment => simp at visible
  | word starts inside stops =>
      refine .word starts inside (tamer.stopsBefore stops ?_)
      rintro character (isLetter | isDigit)
      · exact isBlank_of_startsWord (startsWord_iff.mpr isLetter)
      · exact isBlank_of_isDigit (isDigit_iff.mpr isDigit)
  | decimal wholeNonempty fractionNonempty wholeDigits fractionDigits stops =>
      exact .decimal wholeNonempty fractionNonempty wholeDigits fractionDigits
        (tamer.stopsBefore stops fun _ isDigit => isBlank_of_isDigit (isDigit_iff.mpr isDigit))
  | integer nonempty inside stops =>
      exact .integer nonempty inside
        (tamer.stopsBefore stops fun _ isDigit => isBlank_of_isDigit (isDigit_iff.mpr isDigit))
  | doubleQuoted quotable => exact .doubleQuoted quotable
  | singleQuoted quotable => exact .singleQuoted quotable
  | operator isOperator isLongest =>
      refine .operator isOperator ?_
      intro other isOther begins
      refine Nat.le_of_not_lt fun longer => ?_
      rcases List.prefix_of_prefix_length_le (List.prefix_append taken calm) begins
        (Nat.le_of_lt longer) with ⟨more, rfl⟩
      rcases operators_plain _ isOther with ⟨_, short, plain⟩
      have positive := (operators_plain taken isOperator).1
      rw [List.prefix_append_right_inj] at begins
      rw [List.length_append] at longer short
      -- The longer operator has one character more, and the other text goes on with it as well.
      match more, begins with
      | [], _ => simp at longer
      | _ :: _ :: _, _ => simp at short; omega
      | [character], ⟨rest, calmEq⟩ =>
          rcases tamer.next character (calmEq ▸ rfl) with blank | same
          · exact absurd blank (List.any_eq_false.mp plain character (by simp))
          · rcases List.head?_eq_some_iff.mp same with ⟨others, rfl⟩
            have atMost := isLongest _ isOther ⟨others, by simp⟩
            exact absurd atMost (by simp)
  | punctuation isMark => exact .punctuation isMark

theorem decimal_matches {digits : List Char} (takes : Takes .integer digits behind)
    (isMatch : decimal.Matches (digits ++ calm)) : decimal.Matches (digits ++ behind) := by
  have calmStops := tamer.takes takes (by decide)
  cases takes with
  | integer nonempty inside stops =>
      cases calmStops with
      | integer _ _ calmStops =>
          rcases (decimal_matches_iff nonempty inside calmStops).mp isMatch with
            ⟨digit, rest, isDigit, calmEq⟩
          rcases tamer.fraction digit rest isDigit calmEq with ⟨others, behindEq⟩
          exact (decimal_matches_iff nonempty inside stops).mpr ⟨digit, others, isDigit, behindEq⟩

theorem comment_matches {taken : List Char} {earlier : Pattern} (isOperator : taken ∈ operators)
    (isComment : earlier = .lineComment ∨ earlier = .blockComment)
    (isMatch : earlier.Matches (taken ++ calm)) : earlier.Matches (taken ++ behind) := by
  have takenEq : taken = ['/'] := by
    rcases List.exists_cons_of_ne_nil
      (List.ne_nil_of_length_pos (operators_plain taken isOperator).1) with ⟨first, others, rfl⟩
    have opens : earlier.Opens first := isMatch.opens
    refine eq_slash isOperator ?_
    rcases isComment with rfl | rfl <;> exact congrArg some opens
  rw [takenEq, List.singleton_append] at isMatch ⊢
  rcases isComment with rfl | rfl
  · rcases lineComment_matches_iff.mp isMatch with ⟨rest, calmEq⟩
    refine lineComment_matches_iff.mpr ?_
    rcases tamer.next '/' (calmEq ▸ rfl) with blank | same
    · exact absurd blank (by decide)
    · exact List.head?_eq_some_iff.mp same
  · rcases blockComment_matches_iff.mp isMatch with ⟨body, later, calmEq⟩
    exact blockComment_matches_iff.mpr (tamer.comment body later calmEq)

/-- No pattern of the same group matches where none did, if a text behind a token is exchanged for
one that adds nothing. -/
theorem matches_of_group {pattern earlier : Pattern} {taken : List Char}
    (takes : pattern.Takes taken behind)
    (visible : pattern ∉ [.blanks, .lineComment, .blockComment])
    (isMatch : earlier.Matches (taken ++ calm)) (sameGroup : earlier.group = pattern.group) :
    earlier.Matches (taken ++ behind) := by
  rcases group_cases pattern (mem_table pattern) earlier (mem_table earlier) sameGroup visible with
    rfl | ⟨rfl, rfl⟩ | ⟨rfl, rfl⟩ | ⟨rfl, isComment⟩
  · exact ⟨taken, behind, rfl, takes⟩
  · cases takes with
    | @decimal whole fraction _ wholeNonempty _ wholeDigits _ _ =>
        exact ⟨whole, '.' :: (fraction ++ behind), by simp,
          .integer wholeNonempty wholeDigits (stopsBefore_point _)⟩
  · exact tamer.decimal_matches takes isMatch
  · cases takes with
    | operator isOperator _ => exact tamer.comment_matches isOperator isComment isMatch

/-- The token that is taken first in front of a text is taken first in front of one that adds
nothing. -/
theorem cuts {pattern : Pattern} {taken : List Char} (cuts : Cuts (some pattern) taken behind)
    (visible : pattern ∉ [.blanks, .lineComment, .blockComment]) :
    Cuts (some pattern) taken calm := by
  cases cuts with
  | matched found =>
      rcases first?_eq_length_iff.mp found with ⟨takes, before, after, tableEq, missed⟩
      refine .matched (first?_eq_length_iff.mpr
        ⟨tamer.takes takes visible, before, after, tableEq, ?_⟩)
      intro earlier isBefore isMatch
      refine missed earlier isBefore (tamer.matches_of_group takes visible isMatch ?_)
      rcases List.exists_cons_of_ne_nil takes.ne_nil with ⟨first, others, rfl⟩
      rw [takes.opens.group_eq, isMatch.opens.group_eq]

end Tamer

/-- Nothing at all and a blank add nothing. -/
theorem Tamer.of_blank {behind calm : List Char}
    (blank : ∀ character ∈ calm.head?, Text.isBlank character = true) : Tamer behind calm := by
  constructor
  case next => exact fun character isNext => .inl (blank character isNext)
  case fraction =>
    rintro digit rest _ rfl
    exact absurd (blank '.' rfl) (by decide)
  case comment =>
    rintro body later rfl
    exact absurd (blank '*' rfl) (by decide)

end Pattern

namespace Lexeme

open Pattern

/-! ## Single spaces -/

/-- The lexeme gives a token, and it can be cut off in front of some text. -/
def Stands (lexeme : Lexeme) : Prop :=
  lexeme.token?.isSome = true ∧ ∃ behind, Cuts lexeme.pattern lexeme.text behind

theorem all_stand (text : List Char) :
    ∀ lexeme ∈ (ofText text).filter fun lexeme => lexeme.token?.isSome, lexeme.Stands := by
  intro lexeme isToken
  rcases List.mem_filter.mp isToken with ⟨isLexeme, isSome⟩
  rcases List.append_of_mem isLexeme with ⟨before, behind, splitEq⟩
  exact ⟨isSome, _, ((ofTextFrom_tiles 0 .start text).split splitEq).2.2⟩

/-- What gives a token is cut off in the same way in front of any text that adds nothing. -/
theorem shown_of_token {lexeme : Lexeme} {behind calm : List Char}
    (cuts : Cuts lexeme.pattern lexeme.text behind) (isToken : lexeme.token?.isSome = true)
    (tamer : Tamer behind calm) (location : Location) :
    shown location (lexeme.text ++ calm) =
      { lexeme with offset := 0, location } :: shown (location.afterText lexeme.text) calm := by
  rcases lexeme with ⟨pattern, text, offset, place⟩
  cases pattern with
  | none => cases isToken
  | some pattern =>
      cases pattern with
      | blanks | lineComment | blockComment => cases isToken
      | word | decimal | integer | doubleQuoted | singleQuoted | operator | punctuation =>
          rw [shown_of_cuts (tamer.cuts cuts (by decide))]
          rfl

/-- Lexemes that give tokens are found again in their texts with single spaces between them, also
if a space stands at the end. -/
theorem pieces_of_spaced {lexemes : List Lexeme} (stand : ∀ lexeme ∈ lexemes, lexeme.Stands)
    {last : List (List Char)} (isLast : last = [] ∨ last = [[]]) (location : Location) :
    (shown location ([' '].intercalate (lexemes.map text ++ last))).map piece =
      lexemes.map piece := by
  induction lexemes generalizing location with
  | nil => rcases isLast with rfl | rfl <;> simp
  | cons first others ih =>
      rw [List.forall_mem_cons] at stand
      rcases stand.1 with ⟨isToken, behind, cuts⟩
      rw [List.map_cons, List.cons_append]
      cases restEq : others.map text ++ last with
      | nil =>
          have noOthers := List.map_eq_nil_iff.mp (List.append_eq_nil_iff.mp restEq).1
          have nothing : Tamer behind [] := .of_blank nofun
          have alone := shown_of_token cuts isToken nothing location
          rw [List.append_nil, shown_nil] at alone
          rw [List.intercalate_singleton, alone, noOthers]
          rfl
      | cons next more =>
          -- A space ends every token that could go on, so the first lexeme is found as it was.
          have space : Tamer behind ([' '] ++ [' '].intercalate (next :: more)) :=
            .of_blank fun _ isNext => by cases isNext; rfl
          have spaced := shown_of_token cuts isToken space location
          rw [shown_of_blanks (List.forall_mem_singleton.mpr rfl), ← restEq] at spaced
          rw [List.intercalate_cons_cons, List.append_assoc, ← restEq, spaced, List.map_cons,
            ih stand.2]
          rfl

/-- Lexemes that agree but for their places give tokens that do. -/
theorem tokens_of_pieces {first second : List Lexeme}
    (same : first.map piece = second.map piece) :
    (first.filterMap token?).map (fun token => (token.kind, token.text)) =
      (second.filterMap token?).map fun token => (token.kind, token.text) := by
  have ofPiece (lexeme : Lexeme) :
      lexeme.token?.map (fun token => (token.kind, token.text)) =
        (Lexeme.token? ⟨lexeme.piece.1, lexeme.piece.2, 0, .nowhere⟩).map
          fun token => (token.kind, token.text) := by
    rcases lexeme with ⟨pattern, text, offset, location⟩
    cases pattern with
    | none => rfl
    | some pattern => cases pattern <;> rfl
  have sameViews := congrArg (List.filterMap fun piece =>
    (Lexeme.token? ⟨piece.1, piece.2, 0, .nowhere⟩).map fun token => (token.kind, token.text)) same
  rw [List.filterMap_map, List.filterMap_map] at sameViews
  rw [List.map_filterMap, List.map_filterMap, funext ofPiece]
  exact sameViews

theorem texts_of_tokens (lexemes : List Lexeme) :
    (lexemes.filterMap token?).map (fun token => token.text.toList) =
      (lexemes.filter fun lexeme => lexeme.token?.isSome).map text := by
  induction lexemes with
  | nil => rfl
  | cons first others ih =>
      rw [List.filterMap_cons, List.filter_cons]
      cases isToken : first.token? with
      | none => exact ih
      | some token =>
          rw [Option.isSome_some, if_pos rfl, List.map_cons, List.map_cons, ih,
            text_of_token? isToken, String.toList_ofList]

theorem filterMap_filter_token? (lexemes : List Lexeme) :
    (lexemes.filter fun lexeme => lexeme.token?.isSome).filterMap token? =
      lexemes.filterMap token? := by
  rw [List.filterMap_filter]
  refine congrArg (List.filterMap · lexemes) (funext fun lexeme => ?_)
  cases lexeme.token? <;> rfl

end Lexeme

namespace Lexing

/-- A text is read without faults, and as tokens of these kinds and texts. -/
def ReadsAs (text : String) (tokens : List Token) : Prop :=
  ∀ radius, (ofText text.toList radius).diagnostics = [] ∧
    (ofText text.toList radius).tokens.map (fun token => (token.kind, token.text)) =
      tokens.map fun token => (token.kind, token.text)

/-- A text has no faults if each lexeme in it matches a pattern. -/
theorem diagnostics_eq_nil {text : List Char}
    (matched : ∀ lexeme ∈ Lexeme.shown .start text, lexeme.pattern ≠ none) (radius : Nat) :
    (ofText text radius).diagnostics = [] := by
  have faultless : (Lexeme.shown .start text).filterMap Lexeme.fault? = [] := by
    refine List.filterMap_eq_nil_iff.mpr fun lexeme isShown => ?_
    rcases Option.ne_none_iff_exists'.mp (matched lexeme isShown) with ⟨pattern, isMatch⟩
    rw [Lexeme.fault?, Lexeme.diagnostic?, isMatch]
    rfl
  rw [← Lexeme.map_bare_filterMap text radius] at faultless
  exact List.map_eq_nil_iff.mp faultless

/-- The texts of tokens with single spaces between them. -/
def spaced (tokens : List Token) : String :=
  " ".intercalate (tokens.map Token.text)

theorem toList_spaced (tokens : List Token) :
    (spaced tokens).toList = [' '].intercalate (tokens.map fun token => token.text.toList) := by
  rw [spaced, String.toList_intercalate, List.map_map]
  rfl

/-- The lexemes that give tokens are read again from their texts with single spaces between
them. -/
theorem spaced_readsAs (source : List Char) (sourceRadius : Nat) {written : List Token}
    {last : List (List Char)} (isLast : last = [] ∨ last = [[]])
    (writtenEq : written.map (fun token => token.text.toList) =
      ((Lexeme.ofText source).filter fun lexeme => lexeme.token?.isSome).map Lexeme.text ++ last) :
    ReadsAs (spaced written) (ofText source sourceRadius).tokens := by
  have stand := Lexeme.all_stand source
  have pieces := Lexeme.pieces_of_spaced stand isLast .start
  rw [← writtenEq, ← toList_spaced] at pieces
  refine fun radius => ⟨diagnostics_eq_nil ?_ radius, ?_⟩
  · intro lexeme isShown noMatch
    have isPiece : lexeme.piece ∈ (Lexeme.shown .start (spaced written).toList).map Lexeme.piece :=
      List.mem_map_of_mem isShown
    rw [pieces] at isPiece
    rcases List.mem_map.mp isPiece with ⟨original, isToken, pieceEq⟩
    have isSome := (stand original isToken).1
    have samePattern : original.pattern = lexeme.pattern := congrArg Prod.fst pieceEq
    rw [Lexeme.token?, samePattern, noMatch] at isSome
    cases isSome
  · have sameTokens := Lexeme.tokens_of_pieces pieces
    rw [Lexeme.filterMap_filter_token?, ← Lexeme.filterMap_token?] at sameTokens
    rw [ofText, ofText, List.map_append, List.map_append]
    exact congrArg (· ++ [(.endOfFile, "")]) sameTokens

/-- If the tokens of a text are written with single spaces between them, they are read again.  It
makes no difference whether the end, which is a token without a text, is written as well. -/
theorem spacing_keeps_tokens (source : String) (radius : Nat) :
    let tokens := (ofText source.toList radius).tokens
    ReadsAs (spaced tokens) tokens ∧ ReadsAs (spaced (Grammar.beforeEnd tokens)) tokens := by
  intro tokens
  have texts := Lexeme.texts_of_tokens (Lexeme.ofText source.toList)
  constructor
  · refine spaced_readsAs source.toList radius (.inr rfl) ?_
    rw [← texts]
    exact List.map_append
  · refine spaced_readsAs source.toList radius (.inl rfl) ?_
    rw [List.append_nil, beforeEnd_tokens, texts]

end Lexing

end TwinSwarm
