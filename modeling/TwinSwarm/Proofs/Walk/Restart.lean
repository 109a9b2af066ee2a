import TwinSwarm.Proofs.Walk.Program

/-!
# Starting anew

A turn of the loop that reads declarations remembers nothing of the turns before it: whatever was
read and whatever failed before, the turns from a position on find what a new reading of the
tokens from there on finds.  After a failure the loop goes on at the first place that is fit for
it: behind a semicolon, at a keyword that begins a declaration, or at the end.
-/

namespace TwinSwarm.Walk

open Grammar

variable {α : Type}

/-! ## Turns one after the other -/

/-- With enough fuel there is one outcome only. -/
theorem Settles.unique {walk : Nat → Walk α} {input : Input} {cursor : Cursor}
    {outcome other : Outcome α} (settles : Settles walk input cursor outcome)
    (settlesOther : Settles walk input cursor other) : outcome = other := by
  rcases settles with ⟨enough, outcomeEq⟩
  rcases settlesOther with ⟨enoughToo, otherEq⟩
  rw [← outcomeEq (max enough enoughToo) (Nat.le_max_left _ _),
    otherEq (max enough enoughToo) (Nat.le_max_right _ _)]

/-- The loop comes from one cursor to another by turns with these outcomes.  It makes a turn
unless it has come to an end mark. -/
inductive Turned (input : Input) :
    Cursor → List (Except Diagnostic Declaration) → Cursor → Prop where
  | here (cursor : Cursor) : Turned input cursor [] cursor
  | next {cursor middle after : Cursor} {outcome : Except Diagnostic Declaration}
      {outcomes : List (Except Diagnostic Declaration)}
      (goesOn : isAtEnd input cursor = .found false cursor)
      (turned : Settles turn input cursor (.found outcome middle))
      (others : Turned input middle outcomes after) :
      Turned input cursor (outcome :: outcomes) after

theorem ne_nil_of_goesOn {input : Input} {tokens : List Token} {depth : Nat}
    (goesOn : isAtEnd input (input.cursorAt tokens depth) =
      .found false (input.cursorAt tokens depth)) : tokens ≠ [] := by
  rintro rfl
  rw [Input.isAtEnd_nil] at goesOn
  cases goesOn

/-- Turns are attempts to read declarations. -/
theorem Turned.exists_reaches {input : Input} {tokens : List Token} {cursor : Cursor}
    {outcomes : List (Except Diagnostic Declaration)} (suffix : tokens <:+ input.inside)
    (turned : Turned input (input.cursorAt tokens 0) outcomes cursor) :
    ∃ before start, Reaches input.limit tokens before start ∧ start <:+ input.inside ∧
      cursor = input.cursorAt start 0 ∧ outcomes = before.map input.told := by
  generalize startEq : input.cursorAt tokens 0 = start at turned
  induction turned generalizing tokens with
  | here => exact ⟨[], tokens, .here tokens, suffix, startEq.symm, rfl⟩
  | next goesOn turned _ ih =>
      subst startEq
      have nonempty := ne_nil_of_goesOn goesOn
      have behind : (attempt input.limit tokens).2 <:+ input.inside :=
        ((attempt_suffix _ _).trans (List.tail_suffix tokens)).trans suffix
      cases turned.unique (turn_settles suffix 0)
      rcases ih behind rfl with ⟨before, start, reaches, startSuffix, cursorEq, outcomesEq⟩
      refine ⟨_, start, .next nonempty reaches, startSuffix, cursorEq, ?_⟩
      rw [List.map_cons, outcomesEq]

/-! ## Where reading goes on -/

/-- A place at which reading may go on after a failure. -/
def ResumesAt (tokens : List Token) (place : Nat) : Prop :=
  (∃ token, tokens[place - 1]? = some token ∧ token.is .punctuation ";" = true) ∨
    ∃ token, tokens[place]? = some token ∧
      (beginsDeclaration token = true ∨ token.kind = .endOfFile)

/-- Reading goes on at the first place behind a failure that is fit for it. -/
structure ResumesFirst (tokens : List Token) (failed next : Nat) : Prop where
  behind : failed < next
  resumes : ResumesAt tokens next
  first : ∀ place, failed < place → place < next → ¬ ResumesAt tokens place

section Passed

variable {input : Input} {passed : Token} {rest : List Token}
  (suffix : passed :: rest <:+ input.inside)

include suffix

theorem position_behind : (input.cursorAt rest 0).position =
    (input.cursorAt (passed :: rest) 0).position + 1 :=
  congrArg Cursor.position (Input.cursorAt_cons suffix)

/-- Reading may go on behind a token that is a semicolon, and in front of one that begins a
declaration or of the end. -/
theorem resumesAt_iff :
    ResumesAt input.tokens (input.cursorAt rest 0).position ↔
      passed.is .punctuation ";" = true ∨ ∀ next ∈ rest.head?, beginsDeclaration next = true := by
  have behind := (List.suffix_cons passed rest).trans suffix
  have isPassed : input.tokens[(input.cursorAt rest 0).position - 1]? = some passed := by
    rw [position_behind suffix, Nat.add_sub_cancel]
    exact Input.getElem?_cursorAt suffix 0 0 (Nat.zero_le _)
  have isNext : input.tokens[(input.cursorAt rest 0).position]? =
      some (rest[0]?.getD input.last) :=
    Input.getElem?_cursorAt behind 0 0 (Nat.zero_le _)
  simp only [ResumesAt, isPassed, isNext, Option.some.injEq, exists_eq_left']
  cases rest with
  | nil => simp [input.last_kind]
  | cons next others =>
      have notEnd := input.kind_of_inside (behind.mem List.mem_cons_self)
      simp [notEnd]

theorem ResumesFirst.at_once (fit : passed.is .punctuation ";" = true ∨
      ∀ next ∈ rest.head?, beginsDeclaration next = true) :
    ResumesFirst input.tokens (input.cursorAt (passed :: rest) 0).position
      (input.cursorAt rest 0).position := by
  have moved := position_behind suffix
  exact ⟨by omega, (resumesAt_iff suffix).mpr fit, fun place _ _ => by omega⟩

theorem ResumesFirst.further (unfit : ¬ (passed.is .punctuation ";" = true ∨
      ∀ next ∈ rest.head?, beginsDeclaration next = true)) {next : Nat}
    (later : ResumesFirst input.tokens (input.cursorAt rest 0).position next) :
    ResumesFirst input.tokens (input.cursorAt (passed :: rest) 0).position next := by
  have moved := position_behind suffix
  have behind := later.behind
  refine ⟨by omega, later.resumes, fun place above below => ?_⟩
  rcases Nat.lt_or_eq_of_le (Nat.succ_le_of_lt above) with isFurther | isNext
  · exact later.first place (by omega) below
  · rw [← isNext, Nat.succ_eq_add_one, ← moved]
    exact mt (resumesAt_iff suffix).mp unfit

end Passed

/-- After a failure in front of the end, reading goes on at the first place that is fit for it. -/
theorem resume_first {input : Input} {tokens : List Token} (nonempty : tokens ≠ [])
    (suffix : tokens <:+ input.inside) :
    ResumesFirst input.tokens (input.cursorAt tokens 0).position
      (input.cursorAt (resume tokens).2 0).position := by
  fun_induction resume tokens with
  | case1 => exact absurd rfl nonempty
  | case2 passed => exact .at_once suffix (.inr (by simp))
  | case3 passed next rest ends => exact .at_once suffix (.inl ends)
  | case4 passed next rest goesOn begins =>
      exact .at_once suffix (.inr fun _ isNext => by cases isNext; exact begins)
  | case5 passed next rest goesOn notBegins ih =>
      have behind := (List.suffix_cons passed _).trans suffix
      refine .further suffix ?_ (ih (List.cons_ne_nil _ _) behind)
      simp [goesOn, notBegins]

/-- If a declaration is refused at a token in front of the end, the turn goes on at the first
place behind it that is fit for it. -/
theorem turn_of_refused {input : Input} {tokens : List Token} {diagnostic : Diagnostic}
    {failed : Cursor} {token : Token} (suffix : tokens <:+ input.inside)
    (refuses : Settles declaration input (input.cursorAt tokens 0) (.refused diagnostic failed))
    (isHere : input.tokens[failed.position]? = some token) (notEnd : token.kind ≠ .endOfFile) :
    ∃ next, Settles turn input (input.cursorAt tokens 0) (.found (.error diagnostic) next) ∧
      ResumesFirst input.tokens failed.position next.position := by
  have course := (declaration_follows input.limit).course suffix (Nat.zero_add _)
  have answer := refuses.unique course
  have turned := turn_settles suffix 0
  cases read : Grammar.declaration input.limit tokens with
  | ok result =>
      rw [read] at answer
      cases answer
  | error failure =>
      rw [read] at answer
      rw [attempt, read] at turned
      cases answer
      have behind := (failure_suffix read).trans suffix
      -- A failure with nothing left is reported at the end mark, which the token is not.
      have notNil : failure.rest ≠ [] := by
        intro atEnd
        have isLast := Input.getElem?_cursorAt behind 0 0 (Nat.zero_le _)
        rw [Nat.add_zero, isHere, atEnd] at isLast
        cases isLast
        exact notEnd input.last_kind
      exact ⟨_, turned, resume_first notNil behind⟩

/-! ## A new reading -/

/-- A turn of the loop depends on nothing that happened before it.  From any turn on, the loop
finds what a new reading of the tokens from there on finds, and this is what the whole reading
finds besides what the turns before have found.  If the turn fails at a token in front of the end,
the loop goes on at the first place behind that token that is fit for it. -/
theorem turns_start_anew (tokens : List Token) (source : SourceText) (limit radius : Nat)
    {before : List (Except Diagnostic Declaration)} {cursor : Cursor}
    (reached : Turned (Input.ofTokens tokens source limit radius) .start before cursor)
    (goesOn : isAtEnd (Input.ofTokens tokens source limit radius) cursor = .found false cursor) :
    let input := Input.ofTokens tokens source limit radius
    let whole := Parsing.ofTokens limit tokens
    let fresh := Parsing.ofTokens limit (tokens.drop cursor.position)
    Settles program input cursor
        (.found (fresh.program, fresh.diagnostics source radius)
          ⟨(beforeEnd tokens).length, 0⟩) ∧
      whole.program.declarations =
        before.filterMap declaration? ++ fresh.program.declarations ∧
      whole.diagnostics source radius =
        before.filterMap diagnostic? ++ fresh.diagnostics source radius ∧
      ∀ diagnostic failed token,
        Settles declaration input ⟨cursor.position, 0⟩ (.refused diagnostic failed) →
        input.tokens[failed.position]? = some token → token.kind ≠ .endOfFile →
        ∃ next, Settles turn input cursor (.found (.error diagnostic) next) ∧
          ResumesFirst input.tokens failed.position next.position := by
  intro input whole fresh
  have insideEq : input.inside = beforeEnd tokens := inside_ofTokens tokens source limit radius
  have reportEq := report_ofTokens tokens source limit radius
  rw [← cursorAt_inside] at reached
  rcases reached.exists_reaches (List.suffix_refl _) with
    ⟨outcomes, start, reaches, suffix, rfl, rfl⟩
  -- A cursor is a position in the tokens: what is left there is what a new reading is given.
  have startEq : start = (beforeEnd tokens).drop (input.cursorAt start 0).position := by
    rw [← insideEq]
    exact List.suffix_iff_eq_drop.mp suffix
  have inFront : (input.cursorAt start 0).position < (beforeEnd tokens).length := by
    have nonempty := ne_nil_of_goesOn goesOn
    rw [startEq] at nonempty
    simpa using nonempty
  have freshEq : fresh = ⟨attempts limit start, endLocation tokens, limit⟩ := by
    have dropped := ofTokens_drop limit inFront
    rw [← startEq] at dropped
    exact dropped
  -- The attempts before the turn are a part of the whole reading, and the rest are those of the new
  -- one.
  have wholeEq : whole.attempts = outcomes ++ fresh.attempts := by
    have attemptsEq : attempts limit input.inside = outcomes ++ attempts limit start :=
      reaches.attempts_eq
    rw [insideEq] at attemptsEq
    rw [freshEq]
    exact attemptsEq
  have views := told_views input outcomes
  refine ⟨?_, ?_, ?_, fun _ _ _ => turn_of_refused suffix⟩
  · have settles := program_settles_from suffix
    rw [cursorAt_nil, reportEq] at settles
    rw [freshEq]
    exact settles
  · rw [Parsing.program, wholeEq, List.filterMap_append, views.1]
    rfl
  · rw [Parsing.diagnostics, wholeEq, List.filterMap_append, List.map_append, views.2, reportEq,
      freshEq]
    rfl

/-- The tokens of `twin A ] x ; event B ;`. -/
def eventBehindBracket : List Token :=
  [.ofKeyword "twin" ⟨1, 1⟩, .ofName "A" ⟨1, 6⟩, .ofMark "]" ⟨1, 8⟩, .ofName "x" ⟨1, 10⟩,
    .ofMark ";" ⟨1, 12⟩, .ofKeyword "event" ⟨1, 14⟩, .ofName "B" ⟨1, 20⟩, .ofMark ";" ⟨1, 22⟩]

/-- The twin fails at the bracket.  The loop goes on behind the semicolon, where it finds what a
new reading of the event finds. -/
theorem turn_behind_bracket :
    let source := SourceText.ofString "twin A ] x ; event B ;"
    let input := Input.ofTokens eventBehindBracket source 32 0
    let fresh := Parsing.ofTokens 32 (eventBehindBracket.drop 5)
    (∃ diagnostic next,
      Settles turn input .start (.found (.error diagnostic) next) ∧
        ResumesFirst input.tokens 2 next.position) ∧
      Settles program input ⟨5, 0⟩
        (.found (fresh.program, fresh.diagnostics source 0) ⟨8, 0⟩) := by
  intro source input fresh
  have suffix : eventBehindBracket <:+ input.inside := List.suffix_refl _
  have refuses : Settles declaration input .start (.refused _ ⟨2, 0⟩) :=
    (declaration_follows 32).course suffix (Nat.zero_add _)
  have turned : Turned input .start _ ⟨5, 0⟩ := .next rfl (turn_settles suffix 0) (.here _)
  constructor
  · have anew := turns_start_anew eventBehindBracket source 32 0 (.here .start) rfl
    rcases anew.2.2.2 _ _ (.ofMark "]" ⟨1, 8⟩) refuses rfl nofun with ⟨next, settles, first⟩
    exact ⟨_, next, settles, first⟩
  · exact (turns_start_anew eventBehindBracket source 32 0 turned rfl).1

end TwinSwarm.Walk
