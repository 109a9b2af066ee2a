import TwinSwarm.Proofs.Grammar.EndMark
import TwinSwarm.Proofs.Grammar.Progress
import TwinSwarm.Proofs.Walk.Basic

/-!
# Walks that follow a recogniser

A walk follows a recogniser if, from every position before the first end mark, it finds what the
recogniser finds or is refused where the recogniser fails, provided that the levels that are left
are the budget.  The counter is then what it was.  How much fuel that takes is not said, only
that there is an amount from which on the outcome does not change.
-/

namespace TwinSwarm.Walk

open Grammar Recogniser

variable {α β : Type}

/-! ## Positions before the first end mark -/

namespace Input

variable (input : Input)

/-- The tokens before the first end mark. -/
def inside : List Token := beforeEnd input.tokens

/-- The first end mark. -/
def last : Token :=
  (input.tokens.find? fun token => token.kind = .endOfFile).get <| by
    rcases input.ends with ⟨token, isToken, isEnd⟩
    exact List.find?_isSome.mpr ⟨token, isToken, decide_eq_true isEnd⟩

theorem find?_last :
    (input.tokens.find? fun token => token.kind = .endOfFile) = some input.last :=
  (Option.some_get _).symm

theorem last_kind : input.last.kind = .endOfFile := by
  simpa using List.find?_some input.find?_last

theorem endLocation_tokens : endLocation input.tokens = input.last.location := by
  rw [endLocation, find?_last]

theorem exists_tokens_eq : ∃ beyond, input.tokens = input.inside ++ input.last :: beyond := by
  rcases List.find?_eq_some_iff_append.mp input.find?_last with
    ⟨_, before, beyond, tokensEq, isBefore⟩
  have insideEq : input.inside = before := by
    rw [inside, tokensEq, beforeEnd_append (by simpa using isBefore),
      beforeEnd_cons_end input.last_kind, List.append_nil]
  exact ⟨beyond, insideEq ▸ tokensEq⟩

theorem kind_of_inside {token : Token} (isInside : token ∈ input.inside) :
    token.kind ≠ .endOfFile :=
  kind_of_beforeEnd isInside

/-- The cursor in front of the last ones of the tokens inside. -/
def cursorAt (tokens : List Token) (depth : Nat) : Cursor :=
  ⟨input.inside.length - tokens.length, depth⟩

variable {input} {token : Token} {tokens rest : List Token} {depth : Nat}

/-- Counted from the cursor on, the tokens are those in front of which it stands and then the
end mark. -/
theorem getElem?_cursorAt (suffix : tokens <:+ input.inside) (depth count : Nat)
    (near : count ≤ tokens.length) :
    input.tokens[(input.cursorAt tokens depth).position + count]? =
      some (tokens[count]?.getD input.last) := by
  rcases suffix with ⟨before, insideEq⟩
  rcases input.exists_tokens_eq with ⟨beyond, tokensEq⟩
  have position : (input.cursorAt tokens depth).position = before.length := by
    simp [cursorAt, ← insideEq]
  rw [position, tokensEq, ← insideEq, List.append_assoc, List.getElem?_append_right (by omega),
    Nat.add_sub_cancel_left]
  rcases Nat.lt_or_eq_of_le near with isBefore | rfl
  · rw [List.getElem?_append_left isBefore, List.getElem?_eq_getElem isBefore, Option.getD_some]
  · simp

theorem peek_cursorAt (suffix : tokens <:+ input.inside) :
    peek input (input.cursorAt tokens depth) =
      .found (tokens.head?.getD input.last) (input.cursorAt tokens depth) := by
  have next := getElem?_cursorAt suffix depth 0 (Nat.zero_le _)
  rw [Nat.add_zero] at next
  rw [peek, tokenAt, next, List.head?_eq_getElem?]

theorem cursorAt_cons (suffix : token :: rest <:+ input.inside) :
    input.cursorAt rest depth =
      { input.cursorAt (token :: rest) depth with
        position := (input.cursorAt (token :: rest) depth).position + 1 } := by
  have fits := suffix.length_le
  simp only [cursorAt, List.length_cons, Cursor.mk.injEq, and_true] at fits ⊢
  omega

theorem isAtEnd_nil (input : Input) (depth : Nat) :
    isAtEnd input (input.cursorAt [] depth) = .found true (input.cursorAt [] depth) := by
  rw [isAtEnd, bind_apply, peek_cursorAt (List.nil_suffix ..)]
  simp [last_kind]

theorem isAtEnd_cons (suffix : token :: rest <:+ input.inside) :
    isAtEnd input (input.cursorAt (token :: rest) depth) =
      .found false (input.cursorAt (token :: rest) depth) := by
  have notEnd := input.kind_of_inside (suffix.mem List.mem_cons_self)
  rw [isAtEnd, bind_apply, peek_cursorAt suffix]
  simp [notEnd]

/-- At the end nothing is passed over. -/
theorem exists_advance_nil (input : Input) (depth : Nat) :
    ∃ token, advance input (input.cursorAt [] depth) =
      .found token (input.cursorAt [] depth) := by
  have bounded : (input.cursorAt [] depth).position - 1 < input.tokens.length := by
    rcases input.exists_tokens_eq with ⟨beyond, tokensEq⟩
    have lengthEq := congrArg List.length tokensEq
    simp only [List.length_append, List.length_cons] at lengthEq
    simp only [cursorAt, List.length_nil]
    omega
  refine ⟨input.tokens[(input.cursorAt [] depth).position - 1], ?_⟩
  rw [advance, bind_apply, isAtEnd_nil]
  show previous input (input.cursorAt [] depth) = _
  rw [previous, tokenAt, List.getElem?_eq_getElem bounded]

/-- The token before the cursor is the one that was passed over last. -/
theorem previous_cursorAt (suffix : token :: rest <:+ input.inside) (depth : Nat) :
    previous input (input.cursorAt rest depth) = .found token (input.cursorAt rest depth) := by
  have before := getElem?_cursorAt suffix depth 0 (Nat.zero_le _)
  rw [Nat.add_zero] at before
  rw [cursorAt_cons suffix, previous, tokenAt, Nat.add_sub_cancel, before]
  rfl

/-- Before the end the next token is passed over and given back. -/
theorem advance_cons (suffix : token :: rest <:+ input.inside) (depth : Nat) :
    advance input (input.cursorAt (token :: rest) depth) =
      .found token (input.cursorAt rest depth) := by
  rw [advance, bind_apply, isAtEnd_cons suffix, ← previous_cursorAt suffix depth,
    cursorAt_cons suffix]
  rfl

theorem check_cursorAt (suffix : tokens <:+ input.inside) {kind : Token.Kind}
    (notEnd : kind ≠ .endOfFile) (text : String) :
    check kind text input (input.cursorAt tokens depth) =
      .found (startsWith kind text tokens) (input.cursorAt tokens depth) := by
  rw [check, bind_apply, peek_cursorAt suffix]
  cases tokens with
  | nil => simp [Token.is, last_kind, notEnd.symm]
  | cons token rest => rfl

/-- The report of a failure. -/
def report (input : Input) (failure : Failure) : Diagnostic :=
  failure.diagnostic input.source input.last.location input.limit input.radius

/-- The outcome of a walk that answers as a recogniser does and ends with this counter. -/
def outcome (input : Input) (depth : Nat) : Except Failure (α × List Token) → Outcome α
  | .ok (value, rest) => .found value (input.cursorAt rest depth)
  | .error failure => .refused (input.report failure) (input.cursorAt failure.rest depth)

theorem refuse_cursorAt (suffix : tokens <:+ input.inside) (complaint : Complaint) :
    (refuse complaint : Walk α) input (input.cursorAt tokens depth) =
      input.outcome depth (.error ⟨complaint, tokens⟩) := by
  rw [refuse, bind_apply, peek_cursorAt suffix]
  cases tokens with
  | nil =>
      have found : input.last.describe = Token.endDescription := by
        rw [Token.describe, last_kind]
      simp only [refuseToken, List.head?_nil, Option.getD_none, found]
      rfl
  | cons token rest => rfl

theorem accept_cursorAt (suffix : tokens <:+ input.inside) {kind : Token.Kind}
    (notEnd : kind ≠ .endOfFile) (text : String) :
    accept kind text input (input.cursorAt tokens depth) =
      input.outcome depth (Grammar.accept kind text tokens) := by
  rw [accept, bind_apply, check_cursorAt suffix notEnd, Grammar.accept]
  cases starts : startsWith kind text tokens with
  | false => rfl
  | true =>
      cases tokens with
      | nil => cases starts
      | cons token rest =>
          show (advance >>= fun _ => pure true) input _ = _
          rw [bind_apply, advance_cons suffix]
          rfl

theorem demand_cursorAt (suffix : tokens <:+ input.inside) {kind : Token.Kind}
    (notEnd : kind ≠ .endOfFile) (text : String) (wanted : Expectation) :
    demand kind text wanted input (input.cursorAt tokens depth) =
      input.outcome depth (Grammar.demand kind text wanted tokens) := by
  rw [demand, bind_apply, check_cursorAt suffix notEnd, Grammar.demand]
  cases starts : startsWith kind text tokens with
  | false => exact refuse_cursorAt suffix _
  | true =>
      cases tokens with
      | nil => cases starts
      | cons token rest =>
          show (advance >>= fun _ => pure ()) input _ = _
          rw [bind_apply, advance_cons suffix]
          rfl

theorem checkKind_nil {kind : Token.Kind} (notEnd : kind ≠ .endOfFile) :
    checkKind kind input (input.cursorAt [] depth) =
      .found false (input.cursorAt [] depth) := by
  rw [checkKind, bind_apply, peek_cursorAt (List.nil_suffix ..)]
  simp [last_kind, notEnd.symm]

theorem checkKind_cons (suffix : token :: rest <:+ input.inside) (kind : Token.Kind) :
    checkKind kind input (input.cursorAt (token :: rest) depth) =
      .found (token.kind = kind) (input.cursorAt (token :: rest) depth) := by
  rw [checkKind, bind_apply, peek_cursorAt suffix]
  rfl

theorem tokenOf_cursorAt (suffix : tokens <:+ input.inside) {kind : Token.Kind}
    (notEnd : kind ≠ .endOfFile) (wanted : Expectation) :
    tokenOf kind wanted input (input.cursorAt tokens depth) =
      input.outcome depth (Grammar.tokenOf kind wanted tokens) := by
  cases tokens with
  | nil =>
      rw [tokenOf, bind_apply, checkKind_nil notEnd]
      exact refuse_cursorAt suffix _
  | cons token rest =>
      rw [tokenOf, bind_apply, checkKind_cons suffix, Grammar.tokenOf]
      by_cases isKind : token.kind = kind
      · rw [decide_eq_true isKind, if_pos isKind]
        show (advance >>= fun token => pure token.text) input _ = _
        rw [bind_apply, advance_cons suffix]
        rfl
      · rw [decide_eq_false isKind, if_neg isKind]
        exact refuse_cursorAt suffix _

theorem setDepth_cursorAt {before : Nat} (fits : depth ≤ input.limit) :
    setDepth depth input (input.cursorAt tokens before) =
      .found () (input.cursorAt tokens depth) :=
  if_pos fits

theorem deepen_cursorAt (suffix : tokens <:+ input.inside) {budget : Nat}
    (left : depth + budget = input.limit) :
    deepen input (input.cursorAt tokens depth) =
      match budget with
      | 0 => input.outcome depth (.error ⟨.nestedTooDeeply, tokens⟩)
      | _ + 1 => .found () (input.cursorAt tokens (depth + 1)) := by
  cases budget with
  | zero =>
      have noneLeft : input.limit ≤ depth := by omega
      exact (if_pos noneLeft).trans (refuse_cursorAt suffix _)
  | succ smaller =>
      have isLeft : ¬ input.limit ≤ depth := by omega
      have fits : depth + 1 ≤ input.limit := by omega
      exact (if_neg isLeft).trans (setDepth_cursorAt fits)

theorem giveBack_cursorAt (fits : depth ≤ input.limit) :
    giveBack input (input.cursorAt tokens (depth + 1)) =
      .found () (input.cursorAt tokens depth) :=
  setDepth_cursorAt fits

/-- What is done on the way out is done in any case. -/
theorem leaving_outcome {walk : Walk α} {exit : Walk Unit} {cursor : Cursor} {after : Nat}
    {answer : Except Failure (α × List Token)}
    (exits : ∀ tokens, exit input (input.cursorAt tokens after) =
      .found () (input.cursorAt tokens depth))
    (walked : walk input cursor = input.outcome after answer) :
    walk.leaving exit input cursor = input.outcome depth answer := by
  rw [leaving, walked]
  cases answer with
  | ok result =>
      show (exit >>= fun _ => pure result.1) input (input.cursorAt result.2 after) = _
      rw [bind_apply, exits]
      rfl
  | error failure =>
      show (exit >>= fun _ => refused (input.report failure)) input
        (input.cursorAt failure.rest after) = _
      rw [bind_apply, exits]
      rfl

/-- Where two walks answer as two recognisers do, so do they one after the other. -/
theorem bind_outcome {walk : Walk α} {next : α → Walk β} {recogniser : Recogniser α}
    {others : α → Recogniser β} {cursor : Cursor}
    (first : walk input cursor = input.outcome depth (recogniser tokens))
    (further : ∀ value rest, recogniser tokens = .ok (value, rest) →
      next value input (input.cursorAt rest depth) = input.outcome depth (others value rest)) :
    (walk >>= next) input cursor = input.outcome depth ((recogniser >>= others) tokens) := by
  rw [bind_apply, Recogniser.bind_apply, first]
  cases read : recogniser tokens with
  | ok result => exact further result.1 result.2 read
  | error failure => rfl

end Input

/-! ## Enough fuel -/

/-- With enough fuel the outcome is always the same. -/
def Settles (walk : Nat → Walk α) (input : Input) (cursor : Cursor) (outcome : Outcome α) : Prop :=
  ∃ enough, ∀ fuel, enough ≤ fuel → walk fuel input cursor = outcome

namespace Settles

variable {walk : Nat → Walk α} {next : Nat → α → Walk β} {input : Input} {cursor after : Cursor}

theorem of_eq {outcome : Outcome α} (eq : ∀ fuel, walk fuel input cursor = outcome) :
    Settles walk input cursor outcome :=
  ⟨0, fun fuel _ => eq fuel⟩

/-- A walk settles if its outcome follows from the outcome of one that does. -/
theorem imp {walk' : Nat → Walk β} {outcome : Outcome α} {outcome' : Outcome β}
    (settles : Settles walk input cursor outcome)
    (follow : ∀ fuel, walk fuel input cursor = outcome → walk' fuel input cursor = outcome') :
    Settles walk' input cursor outcome' := by
  rcases settles with ⟨enough, eq⟩
  exact ⟨enough, fun fuel le => follow fuel (eq fuel le)⟩

/-- A walk that spends one unit of fuel settles where the walk behind it does. -/
theorem of_succ {outcome : Outcome α}
    (settles : Settles (fun fuel => walk (fuel + 1)) input cursor outcome) :
    Settles walk input cursor outcome := by
  rcases settles with ⟨enough, eq⟩
  refine ⟨enough + 1, fun fuel le => ?_⟩
  obtain ⟨less, rfl⟩ : ∃ less, fuel = less + 1 := ⟨fuel - 1, by omega⟩
  exact eq less (by omega)

theorem bind_found {value : α} {outcome : Outcome β}
    (first : Settles walk input cursor (.found value after))
    (others : Settles (fun fuel => next fuel value) input after outcome) :
    Settles (fun fuel => walk fuel >>= next fuel) input cursor outcome := by
  rcases first with ⟨enough, firstEq⟩
  rcases others with ⟨enough', othersEq⟩
  refine ⟨max enough enough', fun fuel le => ?_⟩
  show (walk fuel >>= next fuel) input cursor = outcome
  rw [bind_apply, firstEq fuel (by omega)]
  exact othersEq fuel (by omega)

theorem bind_refused {diagnostic : Diagnostic}
    (first : Settles walk input cursor (.refused diagnostic after)) :
    Settles (fun fuel => walk fuel >>= next fuel) input cursor (.refused diagnostic after) :=
  first.imp fun _ isRefused => by rw [bind_apply, isRefused]

end Settles

/-! ## Following a recogniser -/

/-- The walk does what the recogniser does, with as many levels left as the budget says, and
leaves the counter as it was. -/
structure Follows (budget : Nat) (walk : Nat → Walk α) (recogniser : Recogniser α) : Prop where
  moves : recogniser.MovesForward
  course {input : Input} {tokens : List Token} {depth : Nat} :
    tokens <:+ input.inside → depth + budget = input.limit →
      Settles walk input (input.cursorAt tokens depth)
        (input.outcome depth (recogniser tokens))

/-- The walk does what the recogniser does, but may leave any counter. -/
structure Strays (budget : Nat) (walk : Nat → Walk α) (recogniser : Recogniser α) : Prop where
  moves : recogniser.MovesForward
  course {input : Input} {tokens : List Token} {depth : Nat} :
    tokens <:+ input.inside → depth + budget = input.limit →
      ∃ after, Settles walk input (input.cursorAt tokens depth)
        (input.outcome after (recogniser tokens))

namespace Follows

variable {budget : Nat} {walk : Nat → Walk α} {recogniser : Recogniser α}

theorem strays (follows : Follows budget walk recogniser) : Strays budget walk recogniser where
  moves := follows.moves
  course suffix left := ⟨_, follows.course suffix left⟩

/-! ### Single tokens -/

theorem of_pure (value : α) : Follows budget (fun _ => pure value) (pure value) where
  moves := .of_pure value
  course _ _ := .of_eq fun _ => rfl

theorem of_refuse (complaint : Complaint) :
    Follows budget (fun _ => (refuse complaint : Walk α)) (Grammar.fail complaint) where
  moves := .of_fail complaint
  course suffix _ := .of_eq fun _ => Input.refuse_cursorAt suffix complaint

theorem of_check {kind : Token.Kind} (notEnd : kind ≠ .endOfFile) (text : String) :
    Follows budget (fun _ => check kind text) (Grammar.isNext kind text) where
  moves := .of_isNext kind text
  course suffix _ := .of_eq fun _ => Input.check_cursorAt suffix notEnd text

theorem of_accept {kind : Token.Kind} (notEnd : kind ≠ .endOfFile) (text : String) :
    Follows budget (fun _ => accept kind text) (Grammar.accept kind text) where
  moves := .of_accept kind text
  course suffix _ := .of_eq fun _ => Input.accept_cursorAt suffix notEnd text

theorem of_demand {kind : Token.Kind} (notEnd : kind ≠ .endOfFile) (text : String)
    (wanted : Expectation) :
    Follows budget (fun _ => demand kind text wanted) (Grammar.demand kind text wanted) where
  moves := .of_demand kind text wanted
  course suffix _ := .of_eq fun _ => Input.demand_cursorAt suffix notEnd text wanted

theorem of_mark (text place : String) :
    Follows budget (fun _ => mark text place) (Grammar.mark text place) :=
  of_demand (by decide) _ _

theorem of_semicolon (place : String) :
    Follows budget (fun _ => semicolon place) (Grammar.semicolon place) :=
  of_mark _ _

theorem of_keyword (word place : String) :
    Follows budget (fun _ => keyword word place) (Grammar.keyword word place) :=
  of_demand (by decide) _ _

theorem of_tokenOf {kind : Token.Kind} (notEnd : kind ≠ .endOfFile) (wanted : Expectation) :
    Follows budget (fun _ => tokenOf kind wanted) (Grammar.tokenOf kind wanted) where
  moves := .of_tokenOf kind wanted
  course suffix _ := .of_eq fun _ => Input.tokenOf_cursorAt suffix notEnd wanted

theorem of_identifier (place : String) :
    Follows budget (fun _ => identifier place) (Grammar.identifier place) :=
  of_tokenOf (by decide) _

/-! ### Combinations -/

theorem of_bind {next : Nat → α → Walk β} {others : α → Recogniser β}
    (first : Follows budget walk recogniser)
    (further : ∀ value, Follows budget (fun fuel => next fuel value) (others value)) :
    Follows budget (fun fuel => walk fuel >>= next fuel) (recogniser >>= others) where
  moves := .of_bind first.moves fun value => (further value).moves
  course {input tokens depth} suffix left := by
    have course := first.course suffix left
    have moved := first.moves tokens
    rw [Recogniser.bind_apply]
    cases read : recogniser tokens with
    | error failure =>
        rw [read] at course
        exact course.bind_refused
    | ok result =>
        rw [read] at course moved
        exact course.bind_found ((further result.1).course (moved.trans suffix) left)

theorem of_succ {walk' : Nat → Walk α} (eq : ∀ fuel, walk' (fuel + 1) = walk fuel)
    (follows : Follows budget walk recogniser) : Follows budget walk' recogniser where
  moves := follows.moves
  course suffix left := by
    apply Settles.of_succ
    simp only [eq]
    exact follows.course suffix left

theorem of_made (follows : Follows budget walk recogniser) (make : α → β) :
    Follows budget (fun fuel => walk fuel >>= fun value => pure (make value))
      (recogniser >>= fun value => pure (make value)) :=
  of_bind follows fun _ => of_pure _

theorem of_string (place : String) :
    Follows budget (fun _ => string place) (Grammar.string place) :=
  of_made (of_tokenOf (by decide) _) _

theorem of_ite {condition : Prop} [Decidable condition] {yes no : Nat → Walk α}
    {yes' no' : Recogniser α} (first : Follows budget yes yes') (second : Follows budget no no') :
    Follows budget (fun fuel => if condition then yes fuel else no fuel)
      (if condition then yes' else no') := by
  split
  · exact first
  · exact second

/-- A choice by the next token. -/
theorem of_choice {kind : Token.Kind} {text : String} {yes no : Nat → Walk α}
    {yes' no' : Recogniser α} (notEnd : kind ≠ .endOfFile) (first : Follows budget yes yes')
    (second : Follows budget no no') :
    Follows budget
      (fun fuel => accept kind text >>= fun taken => if taken = true then yes fuel else no fuel)
      (Grammar.accept kind text >>= fun taken => if taken = true then yes' else no') :=
  of_bind (of_accept notEnd text) fun _ => of_ite first second

theorem of_optionally {kind : Token.Kind} {text : String} (notEnd : kind ≠ .endOfFile)
    (item : Follows budget walk recogniser) :
    Follows budget (fun fuel => optionally kind text (walk fuel))
      (Grammar.optionally kind text recogniser) :=
  of_choice notEnd (of_made item some) (of_pure _)

/-- At the end the place of the next token is that of the end mark.  Nothing that is read from
there may depend on it. -/
theorem of_here {next : Nat → Location → Walk β} {others : Location → Recogniser β}
    (blind : ∀ place, others place [] = others .nowhere [])
    (further : ∀ place, Follows budget (fun fuel => next fuel place) (others place)) :
    Follows budget (fun fuel => here >>= next fuel) (Grammar.here >>= others) where
  moves := .of_bind .of_here fun place => (further place).moves
  course {input tokens depth} suffix left := by
    have looks : here input (input.cursorAt tokens depth) =
        .found (tokens.head?.getD input.last).location (input.cursorAt tokens depth) := by
      rw [here, bind_apply, Input.peek_cursorAt suffix]
      rfl
    refine Settles.bind_found (.of_eq fun _ => looks) ?_
    cases tokens with
    | nil =>
        have course := (further input.last.location).course suffix left
        rw [blind] at course
        exact course
    | cons token rest => exact (further token.location).course suffix left

/-! ### Levels of nesting -/

/-- The walk below takes one level and gives it back. -/
theorem of_nested {deeper : Nat → Recogniser α}
    (below : ∀ smaller, budget = smaller + 1 → Follows smaller walk (deeper smaller)) :
    Follows budget (fun fuel => nested (walk fuel)) (spending budget deeper) where
  moves := .of_spending fun smaller isSucc => (below smaller isSucc).moves
  course {input tokens depth} suffix left := by
    have taken := Input.deepen_cursorAt suffix left
    cases budget with
    | zero => exact Settles.bind_refused (.of_eq fun _ => taken)
    | succ smaller =>
        have leftBelow : depth + 1 + smaller = input.limit := by omega
        have fits : depth ≤ input.limit := by omega
        refine Settles.bind_found (.of_eq fun _ => taken) ?_
        exact ((below smaller rfl).course suffix leftBelow).imp fun _ walked =>
          Input.leaving_outcome (fun _ => Input.giveBack_cursorAt fits) walked

/-- Whatever levels the walk has taken, the counter is set back. -/
theorem of_balanced (strays : Strays budget walk recogniser) :
    Follows budget (fun fuel => balanced (walk fuel)) recogniser where
  moves := strays.moves
  course {input tokens depth} suffix left := by
    have fits : depth ≤ input.limit := by omega
    rcases strays.course suffix left with ⟨after, settles⟩
    exact settles.imp fun _ walked =>
      Input.leaving_outcome (fun _ => Input.setDepth_cursorAt fits) walked

end Follows

/-! ## Lists -/

/-- The walk answers as the recogniser does in front of all ends of some tokens. -/
def Agrees (input : Input) (depth : Nat) (tokens : List Token) (walk : Walk α)
    (recogniser : Recogniser α) : Prop :=
  ∀ start, start <:+ tokens →
    walk input (input.cursorAt start depth) = input.outcome depth (recogniser start)

/-- There are only finitely many positions, so there is enough fuel for all of them. -/
theorem Follows.agrees {budget : Nat} {walk : Nat → Walk α} {recogniser : Recogniser α}
    (follows : Follows budget walk recogniser) {input : Input} {tokens : List Token} {depth : Nat}
    (suffix : tokens <:+ input.inside) (left : depth + budget = input.limit) :
    ∃ enough, ∀ fuel, enough ≤ fuel → Agrees input depth tokens (walk fuel) recogniser := by
  induction tokens with
  | nil =>
      rcases follows.course suffix left with ⟨enough, walked⟩
      refine ⟨enough, fun fuel le start isEnd => ?_⟩
      rw [List.suffix_nil.mp isEnd]
      exact walked fuel le
  | cons token rest ih =>
      rcases follows.course suffix left with ⟨enough, walked⟩
      rcases ih ((List.suffix_cons token rest).trans suffix) with ⟨enough', agrees⟩
      refine ⟨max enough enough', fun fuel le start isEnd => ?_⟩
      rcases List.suffix_cons_iff.mp isEnd with rfl | isEnd
      · exact walked fuel (by omega)
      · exact agrees fuel (by omega) start isEnd

namespace Agrees

variable {input : Input} {depth : Nat} {tokens : List Token} {walk : Walk α}
  {recogniser : Recogniser α}

theorem mono {fewer : List Token} (agrees : Agrees input depth tokens walk recogniser)
    (suffix : fewer <:+ tokens) : Agrees input depth fewer walk recogniser :=
  fun start isEnd => agrees start (isEnd.trans suffix)

/-- Behind an item a comma decides whether the list goes on. -/
theorem comma {rest : List Token} (suffix : rest <:+ input.inside) (first : α)
    {loop : Walk (List α)} {list : Recogniser (List α)}
    (further : startsWith .punctuation "," rest = true →
      loop input (input.cursorAt rest.tail depth) = input.outcome depth (list rest.tail)) :
    (accept .punctuation "," >>= fun taken => if taken = true then
        (loop >>= fun others => pure (first :: others)) else pure [first]) input
        (input.cursorAt rest depth) =
      input.outcome depth ((Grammar.accept .punctuation "," >>= fun taken => if taken = true then
        (list >>= fun others => pure (first :: others)) else pure [first]) rest) := by
  refine Input.bind_outcome (Input.accept_cursorAt suffix (by decide) _) ?_
  intro taken behind accepted
  rw [Grammar.accept] at accepted
  split at accepted
  next starts =>
    cases accepted
    exact Input.bind_outcome (further starts) fun others rest _ => rfl
  next =>
    cases accepted
    rfl

section Loops

variable (agrees : Agrees input depth tokens walk recogniser) (moves : recogniser.MovesForward)
  (suffix : tokens <:+ input.inside) {turns : Nat} (enough : tokens.length < turns)

include agrees moves suffix enough

theorem separated : Walk.separated walk turns input (input.cursorAt tokens depth) =
    input.outcome depth (Grammar.separated recogniser tokens) := by
  induction turns generalizing tokens with
  | zero => cases enough
  | succ turns ih =>
      rw [Walk.separated, moves.separated_eq]
      refine Input.bind_outcome (agrees tokens (List.suffix_refl _)) fun first rest parsed => ?_
      have below := moves.of_ok parsed
      refine comma (below.trans suffix) first fun starts => ?_
      have shorter := moves.shorter_of_comma parsed starts
      have fewer := (List.tail_suffix rest).trans below
      exact ih (agrees.mono fewer) (fewer.trans suffix) (by omega)

theorem listedUpTo (close : String) :
    Walk.listedUpTo close walk turns input (input.cursorAt tokens depth) =
      input.outcome depth (Grammar.listedUpTo close recogniser tokens) := by
  induction turns generalizing tokens with
  | zero => cases enough
  | succ turns ih =>
      rw [Walk.listedUpTo, moves.listedUpTo_eq]
      refine Input.bind_outcome (Input.check_cursorAt suffix (by decide) _) ?_
      intro closes _ looked
      cases looked
      split
      · rfl
      refine Input.bind_outcome (agrees tokens (List.suffix_refl _)) fun first rest parsed => ?_
      have below := moves.of_ok parsed
      refine comma (below.trans suffix) first fun starts => ?_
      have shorter := moves.shorter_of_comma parsed starts
      have fewer := (List.tail_suffix rest).trans below
      exact ih (agrees.mono fewer) (fewer.trans suffix) (by omega)

theorem repeatedUpTo (consumes : ∀ {tokens rest value}, recogniser tokens = .ok (value, rest) →
      rest.length < tokens.length) (close : String) :
    Walk.repeatedUpTo close walk turns input (input.cursorAt tokens depth) =
      input.outcome depth (Grammar.repeatedUpTo close recogniser tokens) := by
  induction turns generalizing tokens with
  | zero => cases enough
  | succ turns ih =>
      cases tokens with
      | nil =>
          have atEnd := Input.isAtEnd_nil input depth
          rw [Walk.repeatedUpTo, bind_apply, Input.check_cursorAt suffix (by decide)]
          show (isAtEnd >>= fun ends => if ends = true then pure [] else _) input _ = _
          rw [bind_apply, atEnd, Grammar.repeatedUpTo, if_pos (.inl rfl)]
          rfl
      | cons token rest =>
          rw [Walk.repeatedUpTo, MovesForward.repeatedUpTo_eq consumes close (List.cons_ne_nil _ _)]
          refine Input.bind_outcome (Input.check_cursorAt suffix (by decide) _) ?_
          intro closes _ looked
          cases looked
          split
          · rfl
          rw [bind_apply, Input.isAtEnd_cons suffix]
          refine Input.bind_outcome (agrees _ (List.suffix_refl _)) fun first behind parsed => ?_
          have below := moves.of_ok parsed
          have shorter := consumes parsed
          refine Input.bind_outcome ?_ fun others behind' _ => rfl
          exact ih (agrees.mono below) (below.trans suffix) (by omega)

end Loops

end Agrees

namespace Follows

variable {budget : Nat} {walk : Nat → Walk α} {recogniser : Recogniser α}
  (item : Follows budget walk recogniser)

include item

theorem of_separated : Follows budget (fun fuel => separated (walk fuel) fuel)
    (Grammar.separated recogniser) where
  moves := .of_separated item.moves
  course {input tokens depth} suffix left := by
    rcases item.agrees suffix left with ⟨enough, agrees⟩
    refine ⟨enough + tokens.length + 1, fun fuel le => ?_⟩
    exact (agrees fuel (by omega)).separated item.moves suffix (by omega)

theorem of_listedUpTo (close : String) :
    Follows budget (fun fuel => listedUpTo close (walk fuel) fuel)
      (Grammar.listedUpTo close recogniser) where
  moves := .of_listedUpTo item.moves close
  course {input tokens depth} suffix left := by
    rcases item.agrees suffix left with ⟨enough, agrees⟩
    refine ⟨enough + tokens.length + 1, fun fuel le => ?_⟩
    exact (agrees fuel (by omega)).listedUpTo item.moves suffix (by omega) close

theorem of_repeatedUpTo (consumes : ∀ {tokens rest value}, recogniser tokens = .ok (value, rest) →
      rest.length < tokens.length) (close : String) :
    Follows budget (fun fuel => repeatedUpTo close (walk fuel) fuel)
      (Grammar.repeatedUpTo close recogniser) where
  moves := .of_repeatedUpTo item.moves close
  course {input tokens depth} suffix left := by
    rcases item.agrees suffix left with ⟨enough, agrees⟩
    refine ⟨enough + tokens.length + 1, fun fuel le => ?_⟩
    exact (agrees fuel (by omega)).repeatedUpTo item.moves suffix (by omega) consumes close

theorem of_separatedUpTo (close : String) :
    Follows budget (fun fuel => separatedUpTo close (walk fuel) fuel)
      (Grammar.separatedUpTo close recogniser) :=
  of_bind (of_check (by decide) close) fun _ => of_ite (of_pure _) item.of_separated

end Follows

namespace Strays

variable {budget : Nat} {walk : Nat → Walk α} {recogniser : Recogniser α}

theorem of_bind {next : Nat → α → Walk β} {others : α → Recogniser β}
    (first : Follows budget walk recogniser)
    (further : ∀ value, Strays budget (fun fuel => next fuel value) (others value)) :
    Strays budget (fun fuel => walk fuel >>= next fuel) (recogniser >>= others) where
  moves := .of_bind first.moves fun value => (further value).moves
  course {input tokens depth} suffix left := by
    have course := first.course suffix left
    have moved := first.moves tokens
    rw [Recogniser.bind_apply]
    cases read : recogniser tokens with
    | error failure =>
        rw [read] at course
        exact ⟨depth, course.bind_refused⟩
    | ok result =>
        rw [read] at course moved
        rcases (further result.1).course (moved.trans suffix) left with ⟨after, others⟩
        exact ⟨after, course.bind_found others⟩

theorem of_succ {walk' : Nat → Walk α} (eq : ∀ fuel, walk' (fuel + 1) = walk fuel)
    (strays : Strays budget walk recogniser) : Strays budget walk' recogniser where
  moves := strays.moves
  course suffix left := by
    rcases strays.course suffix left with ⟨after, settles⟩
    refine ⟨after, Settles.of_succ ?_⟩
    simp only [eq]
    exact settles

/-- The walk below takes one level and keeps it. -/
theorem of_deepen {deeper : Nat → Recogniser α}
    (below : ∀ smaller, budget = smaller + 1 → Strays smaller walk (deeper smaller)) :
    Strays budget (fun fuel => deepen >>= fun _ => walk fuel) (spending budget deeper) where
  moves := .of_spending fun smaller isSucc => (below smaller isSucc).moves
  course {input tokens depth} suffix left := by
    have taken := Input.deepen_cursorAt suffix left
    cases budget with
    | zero => exact ⟨depth, Settles.bind_refused (.of_eq fun _ => taken)⟩
    | succ smaller =>
        have leftBelow : depth + 1 + smaller = input.limit := by omega
        rcases (below smaller rfl).course suffix leftBelow with ⟨after, settles⟩
        exact ⟨after, Settles.bind_found (.of_eq fun _ => taken) settles⟩

end Strays

end TwinSwarm.Walk
