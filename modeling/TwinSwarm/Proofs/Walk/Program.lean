import TwinSwarm.Proofs.Grammar.Attempts
import TwinSwarm.Proofs.Walk.Course

/-!
# Programs on a cursor

Reading a program on a cursor comes to an end at the first end mark, whatever the tokens are.
It never breaks, and it finds what the attempts to read declarations find.  Each turn of the
loop moves the cursor on, and nothing behind the first end mark is looked at.
-/

namespace TwinSwarm.Walk

open Grammar Follows

/-! ## Going on after a failure -/

theorem synchronizeFrom_cursorAt {input : Input} {passed : Token} {rest : List Token}
    (suffix : passed :: rest <:+ input.inside) (depth : Nat) {turns : Nat}
    (enough : rest.length < turns) :
    synchronizeFrom turns input (input.cursorAt rest depth) =
      .found () (input.cursorAt (resume (passed :: rest)).2 depth) := by
  induction turns generalizing passed rest with
  | zero => cases enough
  | succ turns ih =>
      cases rest with
      | nil => exact bind_of_found (Input.isAtEnd_nil input depth)
      | cons next rest =>
          -- The loop looks back at the token it has passed and ahead at the next one, like
          -- `resume`.
          have behind := (List.suffix_cons passed _).trans suffix
          refine (bind_of_found (Input.isAtEnd_cons behind)).trans ?_
          refine (bind_of_found (Input.previous_cursorAt suffix depth)).trans ?_
          rw [resume]
          cases passed.is .punctuation ";" with
          | true => rfl
          | false =>
              refine (bind_of_found (Input.peek_cursorAt behind)).trans ?_
              show (if beginsDeclaration next = true then pure () else
                advance >>= fun _ => synchronizeFrom turns) input _ = _
              cases beginsDeclaration next with
              | true => rfl
              | false =>
                  refine (bind_of_found (Input.advance_cons behind depth)).trans ?_
                  exact ih behind (Nat.lt_of_succ_lt_succ enough)

/-- After a refusal the walk goes on where the attempts go on. -/
theorem synchronize_settles {input : Input} {tokens : List Token} (suffix : tokens <:+ input.inside)
    (depth : Nat) :
    Settles (fun fuel => synchronize fuel) input (input.cursorAt tokens depth)
      (.found () (input.cursorAt (resume tokens).2 depth)) := by
  cases tokens with
  | nil =>
      rcases input.exists_advance_nil depth with ⟨token, stays⟩
      refine Settles.bind_found (.of_eq fun _ => stays) (Settles.of_succ (.of_eq fun _ => ?_))
      exact bind_of_found (Input.isAtEnd_nil input depth)
  | cons passed rest =>
      refine Settles.bind_found (.of_eq fun _ => Input.advance_cons suffix depth) ?_
      exact ⟨rest.length + 1, fun fuel le => synchronizeFrom_cursorAt suffix depth le⟩

/-! ## Turns of the loop -/

section Attempted

variable {α : Type} {walk : Nat → Walk α} {input : Input} {cursor after : Cursor}

theorem attempted_found {value : α} (settles : Settles walk input cursor (.found value after)) :
    Settles (fun fuel => attempted (walk fuel)) input cursor (.found (.ok value) after) :=
  settles.imp fun _ isFound => by rw [attempted, isFound]

theorem attempted_refused {diagnostic : Diagnostic}
    (settles : Settles walk input cursor (.refused diagnostic after)) :
    Settles (fun fuel => attempted (walk fuel)) input cursor
      (.found (.error diagnostic) after) :=
  settles.imp fun _ isRefused => by rw [attempted, isRefused]

end Attempted

/-- What a turn makes of an attempt to read a declaration. -/
def Input.told (input : Input) : Attempt → Except Diagnostic Declaration
  | .read declared => .ok declared
  | .skipped failure _ => .error (input.report failure)

/-- A turn makes one attempt, whatever the counter was. -/
theorem turn_settles {input : Input} {tokens : List Token} (suffix : tokens <:+ input.inside)
    (depth : Nat) :
    Settles (fun fuel => turn fuel) input (input.cursorAt tokens depth)
      (.found (input.told (attempt input.limit tokens).1)
        (input.cursorAt (attempt input.limit tokens).2 0)) := by
  have course := (declaration_follows input.limit).course suffix (Nat.zero_add _)
  refine Settles.bind_found (.of_eq fun _ => Input.setDepth_cursorAt (Nat.zero_le _)) ?_
  rw [attempt]
  cases read : Grammar.declaration input.limit tokens with
  | ok result =>
      rw [read] at course
      exact Settles.bind_found (attempted_found course) (.of_eq fun _ => rfl)
  | error failure =>
      rw [read] at course
      have behind := (failure_suffix read).trans suffix
      refine Settles.bind_found (attempted_refused course) ?_
      exact Settles.bind_found (synchronize_settles behind 0) (.of_eq fun _ => rfl)

/-- The turns make all attempts and end at the end mark. -/
theorem turns_settle {input : Input} {tokens : List Token} (suffix : tokens <:+ input.inside) :
    Settles turns input (input.cursorAt tokens 0)
      (.found ((attempts input.limit tokens).map input.told) (input.cursorAt [] 0)) := by
  induction size : tokens.length using Nat.strongRecOn generalizing tokens with
  | ind size ih =>
      refine Settles.of_succ ?_
      cases tokens with
      | nil =>
          rw [attempts_nil]
          exact Settles.bind_found (.of_eq fun _ => Input.isAtEnd_nil input 0) (.of_eq fun _ => rfl)
      | cons token rest =>
          have nonempty : token :: rest ≠ [] := List.cons_ne_nil token rest
          have fewer : (attempt input.limit (token :: rest)).2 <:+ input.inside :=
            (attempt_suffix _ _).trans ((List.suffix_cons token rest).trans suffix)
          rw [attempts_of_ne_nil nonempty]
          refine Settles.bind_found (.of_eq fun _ => Input.isAtEnd_cons suffix) ?_
          refine Settles.bind_found (turn_settles suffix 0) ?_
          refine Settles.bind_found (ih _ (size ▸ attempt_shorter nonempty) fewer rfl) ?_
          exact .of_eq fun _ => rfl

/-! ## Any list of tokens -/

section Tokens

variable (tokens : List Token) (source : SourceText) (limit radius : Nat)

theorem beforeEnd_closed : beforeEnd (closed tokens) = beforeEnd tokens := by
  unfold closed
  split
  · rfl
  · rw [beforeEnd, beforeEnd, List.takeWhile_append]
    split
    next isWhole => simpa using (List.takeWhile_prefix _).eq_of_length isWhole |>.symm
    next => rfl

theorem endLocation_closed : endLocation (closed tokens) = endLocation tokens := by
  unfold closed
  split
  · rfl
  · rw [endLocation, endLocation, List.find?_append]
    cases tokens.find? fun token => token.kind = .endOfFile with
    | some token => rfl
    | none => rfl

theorem inside_ofTokens : (Input.ofTokens tokens source limit radius).inside = beforeEnd tokens :=
  beforeEnd_closed tokens

theorem last_location_ofTokens :
    (Input.ofTokens tokens source limit radius).last.location = endLocation tokens := by
  rw [← Input.endLocation_tokens]
  exact endLocation_closed tokens

theorem told_views (input : Input) (outcomes : List Attempt) :
    (outcomes.map input.told).filterMap declaration? =
        outcomes.filterMap Attempt.declaration? ∧
      (outcomes.map input.told).filterMap diagnostic? =
        (outcomes.filterMap Attempt.failure?).map input.report := by
  rw [List.filterMap_map, List.filterMap_map, List.map_filterMap]
  constructor
  · apply congrArg (List.filterMap · outcomes)
    funext outcome
    cases outcome <;> rfl
  · apply congrArg (List.filterMap · outcomes)
    funext outcome
    cases outcome <;> rfl

/-- From any place in front of the end on, the loop finds what the attempts find there. -/
theorem program_settles_from {input : Input} {start : List Token}
    (suffix : start <:+ input.inside) :
    Settles program input (input.cursorAt start 0)
      (.found
        (⟨(attempts input.limit start).filterMap Attempt.declaration?⟩,
          ((attempts input.limit start).filterMap Attempt.failure?).map input.report)
        (input.cursorAt [] 0)) := by
  refine Settles.bind_found (turns_settle suffix) (.of_eq fun _ => ?_)
  have views := told_views input (attempts input.limit start)
  rw [views.1, views.2]
  rfl

theorem report_ofTokens : (Input.ofTokens tokens source limit radius).report =
    fun failure => failure.diagnostic source (endLocation tokens) limit radius := by
  funext failure
  rw [Input.report, last_location_ofTokens]
  rfl

theorem cursorAt_nil : (Input.ofTokens tokens source limit radius).cursorAt [] 0 =
    ⟨(beforeEnd tokens).length, 0⟩ := by
  simp [Input.cursorAt, inside_ofTokens]

theorem cursorAt_inside (input : Input) : input.cursorAt input.inside 0 = .start := by
  simp [Input.cursorAt, Cursor.start]

/-- Reading on a cursor comes to an end at the first end mark, and finds what the attempts to
read declarations find. -/
theorem program_settles :
    let parsing := Parsing.ofTokens limit tokens
    Settles program (Input.ofTokens tokens source limit radius) .start
      (.found (parsing.program, parsing.diagnostics source radius)
        ⟨(beforeEnd tokens).length, 0⟩) := by
  intro parsing
  let input := Input.ofTokens tokens source limit radius
  have settles := program_settles_from (List.suffix_refl input.inside)
  rw [cursorAt_inside, cursorAt_nil, report_ofTokens] at settles
  have insideEq : input.inside = beforeEnd tokens := inside_ofTokens ..
  rw [insideEq] at settles
  exact settles

/-- The tokens through the first end mark, or all of them. -/
def throughEnd : List Token :=
  beforeEnd tokens ++ (tokens.find? fun token => token.kind = .endOfFile).toList

theorem ofTokens_throughEnd :
    Parsing.ofTokens limit (throughEnd tokens) = Parsing.ofTokens limit tokens := by
  cases found : tokens.find? fun token => token.kind = .endOfFile with
  | none =>
      have noEnd : ∀ token ∈ tokens, token.kind ≠ .endOfFile := by
        simpa using List.find?_eq_none.mp found
      have whole : beforeEnd (tokens ++ []) = tokens ++ beforeEnd [] := beforeEnd_append noEnd
      rw [List.append_nil, show beforeEnd [] = [] from rfl, List.append_nil] at whole
      rw [throughEnd, found, Option.toList_none, List.append_nil, whole]
  | some token =>
      have isEnd : token.kind = .endOfFile := by simpa using List.find?_some found
      have noEnd : ∀ token ∈ beforeEnd tokens, token.kind ≠ .endOfFile :=
        fun _ => kind_of_beforeEnd
      have sameInside : beforeEnd (throughEnd tokens) = beforeEnd tokens := by
        rw [throughEnd, found, Option.toList_some, beforeEnd_append noEnd,
          beforeEnd_cons_end isEnd, List.append_nil]
      have sameEnd : endLocation (throughEnd tokens) = endLocation tokens := by
        rw [endLocation, endLocation, throughEnd, found, find?_end_append noEnd]
        simp [isEnd]
      rw [Parsing.ofTokens, Parsing.ofTokens, sameInside, sameEnd]

end Tokens

/-- An attempt gives a declaration or a failure, and not both. -/
theorem length_views (outcomes : List Attempt) :
    (outcomes.filterMap Attempt.declaration?).length +
      (outcomes.filterMap Attempt.failure?).length = outcomes.length := by
  induction outcomes with
  | nil => rfl
  | cons outcome others ih =>
      rw [List.length_cons, ← ih]
      cases outcome with
      | read declared => exact Nat.succ_add _ _
      | skipped failure resumption => rfl

/-- Each attempt uses up a token. -/
theorem length_attempts_le (limit : Nat) (tokens : List Token) :
    (attempts limit tokens).length ≤ tokens.length := by
  induction size : tokens.length using Nat.strongRecOn generalizing tokens with
  | ind size ih =>
      by_cases nonempty : tokens = []
      · simp [nonempty]
      have shorter : (attempt limit tokens).2.length < tokens.length := attempt_shorter nonempty
      have others := ih _ (size ▸ shorter) (attempt limit tokens).2 rfl
      rw [attempts_of_ne_nil nonempty, List.length_cons]
      omega

/-- A turn in front of the end moves the cursor on, but not beyond the first end mark. -/
theorem turn_moves_on (input : Input) (cursor : Cursor)
    (before : cursor.position < input.inside.length) :
    ∃ outcome after, Settles turn input cursor (.found outcome after) ∧
      cursor.position < after.position ∧ after.position ≤ input.inside.length := by
  rcases cursor with ⟨position, depth⟩
  have left : (input.inside.drop position).length = input.inside.length - position :=
    List.length_drop
  have isHere : input.cursorAt (input.inside.drop position) depth = ⟨position, depth⟩ := by
    rw [Input.cursorAt, left, Nat.sub_sub_self (Nat.le_of_lt before)]
  have nonempty : input.inside.drop position ≠ [] := by simpa using before
  have shorter : (attempt input.limit (input.inside.drop position)).2.length <
      (input.inside.drop position).length := attempt_shorter nonempty
  have settles := turn_settles (List.drop_suffix position input.inside) depth
  rw [isHere] at settles
  refine ⟨_, _, settles, ?_, Nat.sub_le _ _⟩
  show position < input.inside.length - _
  dsimp only at before
  omega

/-- Whatever the tokens are, reading them on a cursor comes to an end at the first end mark.  It
never looks outside of the tokens and keeps the counter of levels between zero and the limit.
Each turn of the loop moves the cursor on, and not beyond the first end mark.  What stands
behind that does not matter, and there are no more declarations and diagnostics than tokens
before it. -/
theorem reading_ends_at_end_mark (tokens : List Token) (source : SourceText)
    (limit radius : Nat) :
    let input := Input.ofTokens tokens source limit radius
    let parsing := Parsing.ofTokens limit tokens
    Settles program input .start
        (.found (parsing.program, parsing.diagnostics source radius)
          ⟨(beforeEnd tokens).length, 0⟩) ∧
      (∀ cursor : Cursor, cursor.position < (beforeEnd tokens).length →
        ∃ outcome after, Settles turn input cursor (.found outcome after) ∧
          cursor.position < after.position ∧ after.position ≤ (beforeEnd tokens).length) ∧
      Parsing.ofTokens limit (throughEnd tokens) = parsing ∧
      parsing.program.declarations.length + (parsing.diagnostics source radius).length ≤
        (beforeEnd tokens).length := by
  intro input parsing
  have insideEq : input.inside = beforeEnd tokens := inside_ofTokens tokens source limit radius
  refine ⟨program_settles tokens source limit radius, ?_, ofTokens_throughEnd tokens limit, ?_⟩
  · rw [← insideEq]
    exact turn_moves_on input
  · rw [Parsing.diagnostics, List.length_map]
    exact Nat.le_trans (Nat.le_of_eq (length_views _)) (length_attempts_le limit _)

/-- The tokens of `event ;` with a `twin` behind the end mark. -/
def eventBeforeStray : List Token :=
  [.ofKeyword "event" ⟨1, 1⟩, .ofMark ";" ⟨1, 7⟩, ⟨.endOfFile, "", ⟨1, 8⟩⟩,
    .ofKeyword "twin" ⟨1, 9⟩]

/-- A turn at the event moves the cursor on, but not to the stray token. -/
theorem turn_at_eventBeforeStray :
    0 < (beforeEnd eventBeforeStray).length ∧
      ∃ outcome after,
        Settles turn (Input.ofTokens eventBeforeStray (.ofString "event;") 0 0) .start
          (.found outcome after) ∧
          0 < after.position ∧ after.position ≤ 2 := by
  have inFront : 0 < (beforeEnd eventBeforeStray).length := by decide
  have ends := reading_ends_at_end_mark eventBeforeStray (.ofString "event;") 0 0
  exact ⟨inFront, ends.2.1 .start inFront⟩

end TwinSwarm.Walk
