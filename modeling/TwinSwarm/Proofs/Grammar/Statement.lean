import TwinSwarm.Grammar.Statement
import TwinSwarm.Proofs.Grammar.Expression

/-!
# The language of statements

The grammar of statements as an inductive relation.  A block spends one unit of nesting
on its statements, and an `else if` one unit on the conditional behind it; the arguments
of a statement spend none.
-/

namespace TwinSwarm.Grammar

open Phrase Recogniser

/-! ## The grammar -/

/-- Expressions in parentheses. -/
inductive IsArguments : Phrase (List Expression) → Prop where
  | intro (opening closing : Location) {arguments : List (Phrase Expression)}
      {inside : Phrase (List Expression)} :
      (∀ argument ∈ arguments, IsExpression argument) → Separated arguments inside →
      IsArguments
        ⟨Token.ofMark "(" opening :: (inside.tokens ++ [Token.ofMark ")" closing]), inside.tree,
          inside.need⟩

/-- Phrases in braces, which spend one unit. -/
def braced {α : Type} (opening closing : Location) (phrases : List (Phrase α)) :
    Phrase (List α) :=
  ⟨Token.ofMark "\x7b" opening :: ((succession phrases).tokens ++ [Token.ofMark "\x7d" closing]),
    (succession phrases).tree, 1 + (succession phrases).need⟩

/-- The keyword, the condition and the block with which a conditional begins. -/
def guarded (place opening closing : Location) (condition : Phrase Expression)
    (body : Phrase (List Statement)) : Phrase (Expression × List Statement) :=
  ⟨Token.ofKeyword "if" place :: Token.ofMark "(" opening ::
      (condition.tokens ++ Token.ofMark ")" closing :: body.tokens),
    (condition.tree, body.tree), max condition.need body.need⟩

/-- A conditional without an else branch. -/
def oneBranch (place : Location) (head : Phrase (Expression × List Statement)) :
    Phrase Statement :=
  ⟨head.tokens, .conditional head.tree.1 head.tree.2 none place, head.need⟩

/-- A conditional with an else branch. -/
def twoBranches (place : Location) (head : Phrase (Expression × List Statement))
    (keyword : Location) (branch : Phrase (List Statement)) : Phrase Statement :=
  ⟨head.tokens ++ Token.ofKeyword "else" keyword :: branch.tokens,
    .conditional head.tree.1 head.tree.2 (some branch.tree) place, max head.need branch.need⟩

/-- The conditional behind an `else`, as the only statement of a branch. -/
def elseIf (chained : Phrase Statement) : Phrase (List Statement) :=
  ⟨chained.tokens, [chained.tree], 1 + chained.need⟩

/-- A loop over a block. -/
def looping (place opening namePlace keyword closing : Location) (name : String)
    (iterable : Phrase Expression) (body : Phrase (List Statement)) : Phrase Statement :=
  ⟨Token.ofKeyword "for" place :: Token.ofMark "(" opening :: Token.ofName name namePlace ::
      Token.ofKeyword "in" keyword ::
      (iterable.tokens ++ Token.ofMark ")" closing :: body.tokens),
    .loop name iterable.tree body.tree place, max iterable.need body.need⟩

/-- A message, perhaps with an argument, behind the keyword that reports it. -/
def reporting (word : String) (place opening closing final : Location)
    (make : Expression → Option Expression → Statement) (message : Phrase Expression)
    (extra : Phrase (Option Expression)) : Phrase Statement :=
  ⟨Token.ofKeyword word place :: Token.ofMark "(" opening ::
      (message.tokens ++ extra.tokens ++ [Token.ofMark ")" closing, Token.ofMark ";" final]),
    make message.tree extra.tree, max message.need extra.need⟩

/-- The shapes of statements that the grammar tells apart. -/
inductive Shape where
  | any
  | conditional
  deriving DecidableEq

/-- The phrases that are statements of a shape. -/
inductive Forms : Shape → Phrase Statement → Prop where
  | withoutElse (place opening closing bodyOpening bodyClosing : Location)
      {condition : Phrase Expression} {body : List (Phrase Statement)} :
      IsExpression condition → (∀ statement ∈ body, Forms .any statement) →
      Forms .conditional
        (oneBranch place
          (guarded place opening closing condition (braced bodyOpening bodyClosing body)))
  | withElse (place opening closing bodyOpening bodyClosing keyword elseOpening
        elseClosing : Location)
      {condition : Phrase Expression} {body branch : List (Phrase Statement)} :
      IsExpression condition → (∀ statement ∈ body, Forms .any statement) →
      (∀ statement ∈ branch, Forms .any statement) →
      Forms .conditional
        (twoBranches place
          (guarded place opening closing condition (braced bodyOpening bodyClosing body))
          keyword (braced elseOpening elseClosing branch))
  | withElseIf (place opening closing bodyOpening bodyClosing keyword : Location)
      {condition : Phrase Expression} {body : List (Phrase Statement)}
      {chained : Phrase Statement} :
      IsExpression condition → (∀ statement ∈ body, Forms .any statement) →
      Forms .conditional chained →
      Forms .conditional
        (twoBranches place
          (guarded place opening closing condition (braced bodyOpening bodyClosing body))
          keyword (elseIf chained))
  | conditional {phrase : Phrase Statement} : Forms .conditional phrase → Forms .any phrase
  | loop (place opening namePlace keyword closing bodyOpening bodyClosing : Location)
      (name : String) {iterable : Phrase Expression} {body : List (Phrase Statement)} :
      IsExpression iterable → (∀ statement ∈ body, Forms .any statement) →
      Forms .any
        (looping place opening namePlace keyword closing name iterable
          (braced bodyOpening bodyClosing body))
  | log (place opening closing final : Location) {message : Phrase Expression}
      {level : Phrase (Option Expression)} :
      IsExpression message → Optionally .punctuation "," IsExpression level →
      Forms .any
        (reporting "log" place opening closing final (.log · · place) message level)
  | alert (place opening closing final : Location) {message : Phrase Expression}
      {severity : Phrase (Option Expression)} :
      IsExpression message → Optionally .punctuation "," IsExpression severity →
      Forms .any
        (reporting "alert" place opening closing final (.alert · · place) message severity)
  | notify (place opening comma closing final : Location) {target message : Phrase Expression}
      {data : Phrase (Option Expression)} :
      IsExpression target → IsExpression message → Optionally .punctuation "," IsExpression data →
      Forms .any
        ⟨Token.ofKeyword "notify" place :: Token.ofMark "(" opening ::
            (target.tokens ++ Token.ofMark "," comma :: (message.tokens ++ data.tokens ++
              [Token.ofMark ")" closing, Token.ofMark ";" final])),
          .notify target.tree message.tree data.tree place,
          max target.need (max message.need data.need)⟩
  | assignment (name : String) (place sign final : Location) {value : Phrase Expression} :
      IsExpression value →
      Forms .any
        ⟨Token.ofName name place :: Token.ofSign "=" sign ::
            (value.tokens ++ [Token.ofMark ";" final]),
          .assignment name value.tree place, value.need⟩
  | call (name : String) (place final : Location) {arguments : Phrase (List Expression)} :
      IsArguments arguments →
      Forms .any
        ⟨Token.ofName name place :: (arguments.tokens ++ [Token.ofMark ";" final]),
          .call name arguments.tree place, arguments.need⟩

/-- The phrases that are statements. -/
abbrev IsStatement : Phrase Statement → Prop := Forms .any

/-- The phrases that are blocks. -/
inductive IsBlock : Phrase (List Statement) → Prop where
  | intro (opening closing : Location) {statements : List (Phrase Statement)} :
      (∀ statement ∈ statements, IsStatement statement) →
      IsBlock (braced opening closing statements)

/-! ## What is found -/

theorem furtherArgument_finds (budget : Nat) :
    (furtherArgument budget).Finds (Within budget (Optionally .punctuation "," IsExpression)) :=
  optionally_finds (expression_finds budget)

/-- Arguments between parentheses, the first of which has been passed. -/
theorem arguments_finds {budget : Nat} {tokens rest : List Token} {trees : List Expression}
    (opening closing : Location)
    (found : arguments budget tokens = .ok (trees, Token.ofMark ")" closing :: rest)) :
    ∃ phrase, Within budget IsArguments phrase ∧ phrase.tree = trees ∧
      Token.ofMark "(" opening :: tokens = phrase.tokens ++ rest := by
  rcases separatedUpTo_finds ")" (expression_finds budget) _ _ _ found with
    ⟨inside, ⟨phrases, kinds, separated⟩, rfl, rfl⟩
  have fits : inside.need ≤ budget :=
    separated.need_le.mpr fun phrase member => (kinds phrase member).2
  exact ⟨_, ⟨.intro opening closing (fun phrase member => (kinds phrase member).1) separated,
    fits⟩, rfl, by simp⟩

theorem messageArguments_eq_ok {budget : Nat} {word : String} {tokens rest : List Token}
    {result : Expression × Option Expression}
    (found : messageArguments budget word tokens = .ok (result, rest)) :
    ∃ (opening closing final : Location) (message : Phrase Expression)
      (extra : Phrase (Option Expression)),
      Within budget IsExpression message ∧
      Within budget (Optionally .punctuation "," IsExpression) extra ∧
      result = (message.tree, extra.tree) ∧
      tokens = Token.ofMark "(" opening :: (message.tokens ++ extra.tokens ++
        Token.ofMark ")" closing :: Token.ofMark ";" final :: rest) := by
  simp only [messageArguments, bind_eq_ok, mark_eq_ok, semicolon_eq_ok,
    pure_apply, Except.ok.injEq, Prod.mk.injEq] at found
  rcases found with ⟨_, _, ⟨opening, rfl⟩, _, _, parsed, _, _, parsedExtra, _, _, ⟨closing, rfl⟩,
    _, _, ⟨final, rfl⟩, rfl, rfl⟩
  rcases expression_finds budget _ _ _ parsed with ⟨message, isMessage, rfl, rfl⟩
  rcases furtherArgument_finds budget _ _ _ parsedExtra with ⟨extra, isExtra, rfl, rfl⟩
  exact ⟨opening, closing, final, message, extra, isMessage, isExtra, rfl, by simp⟩

theorem notification_finds {budget : Nat} {place : Location} {tokens rest : List Token}
    {tree : Statement} (found : notification budget place tokens = .ok (tree, rest)) :
    ∃ phrase, Within budget IsStatement phrase ∧ phrase.tree = tree ∧
      Token.ofKeyword "notify" place :: tokens = phrase.tokens ++ rest := by
  simp only [notification, bind_eq_ok, mark_eq_ok, semicolon_eq_ok,
    pure_apply, Except.ok.injEq, Prod.mk.injEq] at found
  rcases found with ⟨_, _, ⟨opening, rfl⟩, _, _, parsedTarget, _, _, ⟨comma, rfl⟩, _, _,
    parsedMessage, _, _, parsedData, _, _, ⟨closing, rfl⟩, _, _, ⟨final, rfl⟩, rfl, rfl⟩
  rcases expression_finds budget _ _ _ parsedTarget with
    ⟨target, ⟨isTarget, targetFits⟩, rfl, rfl⟩
  rcases expression_finds budget _ _ _ parsedMessage with
    ⟨message, ⟨isMessage, messageFits⟩, rfl, rfl⟩
  rcases furtherArgument_finds budget _ _ _ parsedData with
    ⟨data, ⟨isData, dataFits⟩, rfl, rfl⟩
  exact ⟨_, ⟨.notify place opening comma closing final isTarget isMessage isData,
    by simp only [Nat.max_le]; exact ⟨targetFits, messageFits, dataFits⟩⟩, rfl, by simp⟩

theorem callOrAssignment_finds {budget : Nat} {name : String} {place : Location}
    {tokens rest : List Token} {tree : Statement}
    (found : callOrAssignment budget name place tokens = .ok (tree, rest)) :
    ∃ phrase, Within budget IsStatement phrase ∧ phrase.tree = tree ∧
      Token.ofName name place :: tokens = phrase.tokens ++ rest := by
  rw [callOrAssignment, accept_bind_eq_ok] at found
  rcases found with ⟨opening, behind, rfl, found⟩ | ⟨_, found⟩
  · simp only [bind_eq_ok, mark_eq_ok, semicolon_eq_ok, pure_apply, Except.ok.injEq,
      Prod.mk.injEq] at found
    rcases found with ⟨_, _, parsed, _, _, ⟨closing, rfl⟩, _, _, ⟨final, rfl⟩, rfl, rfl⟩
    rcases arguments_finds opening closing parsed with
      ⟨phrase, ⟨isArguments, fits⟩, rfl, tokensEq⟩
    exact ⟨_, ⟨.call name place final isArguments, fits⟩, rfl, by rw [tokensEq]; simp⟩
  · simp only [bind_eq_ok, demand_eq_ok, semicolon_eq_ok, pure_apply, Except.ok.injEq,
      Prod.mk.injEq] at found
    rcases found with ⟨_, _, ⟨sign, rfl⟩, _, _, parsed, _, _, ⟨final, rfl⟩, rfl, rfl⟩
    rcases expression_finds budget _ _ _ parsed with ⟨value, ⟨isValue, fits⟩, rfl, rfl⟩
    exact ⟨_, ⟨.assignment name place sign final isValue, fits⟩, rfl, by simp⟩

theorem block_eq (budget : Nat) (owner : String) :
    block budget owner = (do
      mark "\x7b" ("before " ++ owner)
      bracketed budget "\x7d" ("after " ++ owner)
        (fun deeper => repeatedUpTo "\x7d" (statement deeper)) id) := by
  rw [block.eq_def]
  cases budget <;> rfl

/-- What follows the first block of a conditional. -/
def furtherBranch (budget : Nat) (place : Location) (condition : Expression)
    (thenBranch : List Statement) : Recogniser Statement := do
  if ← accept .keyword "else" then
    let elsePlace ← here
    if ← accept .keyword "if" then
      spending budget fun deeper => do
        let chained ← conditional deeper elsePlace
        return .conditional condition thenBranch (some [chained]) place
    else
      let elseBranch ← block budget "else body"
      return .conditional condition thenBranch (some elseBranch) place
  else return .conditional condition thenBranch none place

theorem conditional_eq (budget : Nat) (place : Location) :
    conditional budget place = (do
      mark "(" "after 'if'"
      let condition ← expression budget
      mark ")" "after if condition"
      let thenBranch ← block budget "if body"
      furtherBranch budget place condition thenBranch) := by
  rw [conditional.eq_def]
  cases budget <;> rfl

theorem block_finds {budget : Nat} {owner : String}
    (deeper : ∀ smaller, budget = smaller + 1 →
      (statement smaller).Finds (Within smaller IsStatement)) :
    (block budget owner).Finds (Within budget IsBlock) := by
  intro tokens tree rest found
  simp only [block_eq, bind_eq_ok, mark_eq_ok] at found
  rcases found with ⟨_, _, ⟨opening, rfl⟩, found⟩
  rcases bracketed_eq_ok.mp found with ⟨smaller, _, closing, rfl, parsed, rfl⟩
  rcases repeatedUpTo_finds "\x7d" (deeper smaller rfl) _ _ _ parsed with
    ⟨_, ⟨phrases, kinds, rfl⟩, rfl, rfl⟩
  have fits : (succession phrases).need ≤ smaller :=
    succession_need_le.mpr fun phrase member => (kinds phrase member).2
  exact ⟨_, ⟨.intro opening closing fun phrase member => (kinds phrase member).1,
    by simp [braced]; omega⟩, rfl, by simp [braced]⟩

theorem conditional_finds {budget : Nat} {place : Location}
    (blocks : ∀ owner, (block budget owner).Finds (Within budget IsBlock))
    (deeper : ∀ smaller, budget = smaller + 1 → ∀ place tokens tree rest,
      conditional smaller place tokens = .ok (tree, rest) →
      ∃ phrase, Within smaller (Forms .conditional) phrase ∧ phrase.tree = tree ∧
        Token.ofKeyword "if" place :: tokens = phrase.tokens ++ rest)
    {tokens rest : List Token} {tree : Statement}
    (found : conditional budget place tokens = .ok (tree, rest)) :
    ∃ phrase, Within budget (Forms .conditional) phrase ∧ phrase.tree = tree ∧
      Token.ofKeyword "if" place :: tokens = phrase.tokens ++ rest := by
  rw [conditional_eq] at found
  simp only [bind_eq_ok, mark_eq_ok] at found
  rcases found with ⟨_, _, ⟨opening, rfl⟩, _, _, parsedCondition, _, _, ⟨closing, rfl⟩, _, _,
    parsedBody, found⟩
  rcases expression_finds budget _ _ _ parsedCondition with
    ⟨condition, ⟨isCondition, conditionFits⟩, rfl, rfl⟩
  rcases blocks _ _ _ _ parsedBody with ⟨_, ⟨⟨bodyOpening, bodyClosing, body⟩, bodyFits⟩, rfl, rfl⟩
  have headFits := Nat.max_le.mpr ⟨conditionFits, bodyFits⟩
  rw [furtherBranch, accept_bind_eq_ok] at found
  -- Behind the block stands an `else` with another conditional or with a block, or no `else`.
  rcases found with ⟨keyword, _, rfl, found⟩ | ⟨_, found⟩
  · rw [here_bind, accept_bind_eq_ok] at found
    rcases found with ⟨elsePlace, _, rfl, found⟩ | ⟨_, found⟩
    · rw [spending_eq_ok] at found
      rcases found with ⟨smaller, rfl, found⟩
      simp only [bind_eq_ok, pure_apply, Except.ok.injEq, Prod.mk.injEq] at found
      rcases found with ⟨_, _, parsed, rfl, rfl⟩
      rcases deeper smaller rfl _ _ _ _ parsed with
        ⟨chained, ⟨isConditional, fits⟩, rfl, tokensEq⟩
      refine ⟨_, ⟨.withElseIf place opening closing bodyOpening bodyClosing keyword isCondition
        body isConditional, ?_⟩, rfl, ?_⟩
      · exact Nat.max_le.mpr ⟨headFits, by simp [elseIf]; omega⟩
      · simp [twoBranches, guarded, elseIf, ← tokensEq]
    · simp only [bind_eq_ok, pure_apply, Except.ok.injEq, Prod.mk.injEq] at found
      rcases found with ⟨_, _, parsed, rfl, rfl⟩
      rcases blocks _ _ _ _ parsed with
        ⟨_, ⟨⟨elseOpening, elseClosing, branch⟩, branchFits⟩, rfl, rfl⟩
      exact ⟨_, ⟨.withElse place opening closing bodyOpening bodyClosing keyword elseOpening
        elseClosing isCondition body branch, Nat.max_le.mpr ⟨headFits, branchFits⟩⟩, rfl,
        by simp [twoBranches, guarded]⟩
  · cases found
    exact ⟨_, ⟨.withoutElse place opening closing bodyOpening bodyClosing isCondition body,
      headFits⟩, rfl, by simp [oneBranch, guarded]⟩

theorem loop_finds {budget : Nat} {place : Location}
    (blocks : ∀ owner, (block budget owner).Finds (Within budget IsBlock))
    {tokens rest : List Token} {tree : Statement}
    (found : loop budget place tokens = .ok (tree, rest)) :
    ∃ phrase, Within budget IsStatement phrase ∧ phrase.tree = tree ∧
      Token.ofKeyword "for" place :: tokens = phrase.tokens ++ rest := by
  rw [loop] at found
  simp only [bind_eq_ok, mark_eq_ok, identifier_eq_ok, keyword_eq_ok, pure_apply,
    Except.ok.injEq, Prod.mk.injEq] at found
  rcases found with ⟨_, _, ⟨opening, rfl⟩, name, _, ⟨namePlace, rfl⟩, _, _, ⟨keyword, rfl⟩, _, _,
    parsedIterable, _, _, ⟨closing, rfl⟩, _, _, parsedBody, rfl, rfl⟩
  rcases expression_finds budget _ _ _ parsedIterable with
    ⟨iterable, ⟨isIterable, iterableFits⟩, rfl, rfl⟩
  rcases blocks _ _ _ _ parsedBody with ⟨_, ⟨⟨bodyOpening, bodyClosing, body⟩, bodyFits⟩, rfl, rfl⟩
  exact ⟨_, ⟨.loop place opening namePlace keyword closing bodyOpening bodyClosing name isIterable
    body, Nat.max_le.mpr ⟨iterableFits, bodyFits⟩⟩, rfl, by simp [looping]⟩

theorem reporting_finds {budget : Nat} {word : String} {place : Location}
    (make : Expression → Option Expression → Statement) {tokens rest : List Token}
    {tree : Statement}
    (found : (messageArguments budget word >>= fun pair => pure (make pair.1 pair.2)) tokens =
      .ok (tree, rest))
    (forms : ∀ (opening closing final : Location) {message : Phrase Expression}
      {extra : Phrase (Option Expression)}, IsExpression message →
      Optionally .punctuation "," IsExpression extra →
      IsStatement (reporting word place opening closing final make message extra)) :
    ∃ phrase, Within budget IsStatement phrase ∧ phrase.tree = tree ∧
      Token.ofKeyword word place :: tokens = phrase.tokens ++ rest := by
  simp only [bind_eq_ok, pure_apply, Except.ok.injEq, Prod.mk.injEq] at found
  rcases found with ⟨_, _, parsed, rfl, rfl⟩
  rcases messageArguments_eq_ok parsed with
    ⟨opening, closing, final, message, extra, ⟨isMessage, messageFits⟩, ⟨isExtra, extraFits⟩,
      rfl, rfl⟩
  have fits := Nat.max_le.mpr ⟨messageFits, extraFits⟩
  exact ⟨_, ⟨forms opening closing final isMessage isExtra, fits⟩, rfl, by simp [reporting]⟩

theorem statement_finds_of_parts {budget : Nat}
    (blocks : ∀ owner, (block budget owner).Finds (Within budget IsBlock))
    (conditionals : ∀ place tokens tree rest,
      conditional budget place tokens = .ok (tree, rest) →
      ∃ phrase, Within budget (Forms .conditional) phrase ∧ phrase.tree = tree ∧
        Token.ofKeyword "if" place :: tokens = phrase.tokens ++ rest) :
    (statement budget).Finds (Within budget IsStatement) := by
  intro tokens tree rest found
  rw [statement, here_bind, accept_bind_eq_ok] at found
  rcases found with ⟨place, _, rfl, found⟩ | ⟨_, found⟩
  · rcases conditionals _ _ _ _ found with ⟨phrase, ⟨isConditional, fits⟩, treeEq, tokensEq⟩
    exact ⟨phrase, ⟨.conditional isConditional, fits⟩, treeEq, tokensEq⟩
  rw [accept_bind_eq_ok] at found
  rcases found with ⟨place, _, rfl, found⟩ | ⟨_, found⟩
  · exact loop_finds blocks found
  rw [accept_bind_eq_ok] at found
  rcases found with ⟨place, _, rfl, found⟩ | ⟨_, found⟩
  · exact reporting_finds (.log · · place) found (.log place)
  rw [accept_bind_eq_ok] at found
  rcases found with ⟨place, _, rfl, found⟩ | ⟨_, found⟩
  · exact reporting_finds (.alert · · place) found (.alert place)
  rw [accept_bind_eq_ok] at found
  rcases found with ⟨place, _, rfl, found⟩ | ⟨_, found⟩
  · exact notification_finds found
  simp only [bind_eq_ok, tokenOf_eq_ok] at found
  rcases found with ⟨name, _, ⟨place, rfl⟩, found⟩
  exact callOrAssignment_finds found

theorem statement_and_conditional_find (budget : Nat) :
    (statement budget).Finds (Within budget IsStatement) ∧
      ∀ place tokens tree rest, conditional budget place tokens = .ok (tree, rest) →
        ∃ phrase, Within budget (Forms .conditional) phrase ∧ phrase.tree = tree ∧
          Token.ofKeyword "if" place :: tokens = phrase.tokens ++ rest := by
  induction budget using Nat.strongRecOn with
  | ind budget ih =>
      have blocks (owner : String) : (block budget owner).Finds (Within budget IsBlock) :=
        block_finds fun smaller isSucc => (ih smaller (by omega)).1
      have conditionals := fun place tokens tree rest =>
        @conditional_finds budget place blocks
          (fun smaller isSucc => (ih smaller (by omega)).2) tokens rest tree
      exact ⟨statement_finds_of_parts blocks conditionals, conditionals⟩

theorem statement_finds (budget : Nat) :
    (statement budget).Finds (Within budget IsStatement) :=
  (statement_and_conditional_find budget).1

/-! ## What is taken -/

/-- Tokens that do not continue a conditional. -/
def NoElse (tokens : List Token) : Prop := startsWith .keyword "else" tokens = false

theorem NoElse.of_mark {text : String} {tokens : List Token}
    (starts : startsWith .punctuation text tokens = true) : NoElse tokens := by
  rcases startsWith_eq_true.mp starts with ⟨location, rest, rfl⟩
  simp [NoElse, Token.is]

theorem endsItem_of_optionally {extra : Phrase (Option Expression)}
    (isExtra : Optionally .punctuation "," IsExpression extra) (closing : Location)
    (rest : List Token) : EndsItem ")" (extra.tokens ++ Token.ofMark ")" closing :: rest) := by
  cases isExtra with
  | absent => exact .inr (by simp [Token.is])
  | present place _ => exact .comma ..

theorem furtherArgument_takes {extra : Phrase (Option Expression)}
    (isExtra : Optionally .punctuation "," IsExpression extra) {budget : Nat}
    (fits : extra.need ≤ budget) (closing : Location) (rest : List Token) :
    furtherArgument budget (extra.tokens ++ Token.ofMark ")" closing :: rest) =
      .ok (extra.tree, Token.ofMark ")" closing :: rest) :=
  optionally_takes isExtra fits (fun _ isExpression => expression_takes isExpression) _
    ⟨by simp [Token.is], Ends.before (by decide) (by decide) _ _⟩

theorem arguments_takes {phrase : Phrase (List Expression)} (isArguments : IsArguments phrase)
    {budget : Nat} (fits : phrase.need ≤ budget) :
    ∃ opening closing inside,
      phrase.tokens = Token.ofMark "(" opening :: (inside ++ [Token.ofMark ")" closing]) ∧
        ∀ rest, arguments budget (inside ++ Token.ofMark ")" closing :: rest) =
          .ok (phrase.tree, Token.ofMark ")" closing :: rest) := by
  cases isArguments with
  | @intro opening closing phrases inside isExpression separated =>
      have fitsEach := separated.need_le.mp fits
      refine ⟨opening, closing, inside.tokens, rfl, ?_⟩
      exact arguments_take ")" separated isExpression
        (fun phrase member => expression_takes (isExpression phrase member)
          (fitsEach phrase member)) (by decide) closing

theorem messageArguments_takes {budget : Nat} {message : Phrase Expression}
    {extra : Phrase (Option Expression)} (isMessage : IsExpression message)
    (isExtra : Optionally .punctuation "," IsExpression extra) (messageFits : message.need ≤ budget)
    (extraFits : extra.need ≤ budget) (word : String) (opening closing final : Location)
    (rest : List Token) :
    messageArguments budget word
        (Token.ofMark "(" opening :: (message.tokens ++ (extra.tokens ++
          Token.ofMark ")" closing :: Token.ofMark ";" final :: rest))) =
      .ok ((message.tree, extra.tree), rest) := by
  have taken := expression_takes isMessage messageFits _
    (.of_endsItem (endsItem_of_optionally isExtra closing (Token.ofMark ";" final :: rest))
      (by decide))
  have takenExtra := furtherArgument_takes isExtra extraFits closing
    (Token.ofMark ";" final :: rest)
  simp [messageArguments, taken, takenExtra]

/-! ### The branches of a statement -/

section Branches

variable (budget : Nat) (place : Location) (rest : List Token)

theorem statement_if :
    statement budget (Token.ofKeyword "if" place :: rest) = conditional budget place rest := by
  rw [statement]
  simp

theorem statement_for :
    statement budget (Token.ofKeyword "for" place :: rest) = loop budget place rest := by
  rw [statement]
  simp [accept_cons, Token.is]

theorem statement_log :
    statement budget (Token.ofKeyword "log" place :: rest) =
      (messageArguments budget "log" >>= fun pair => pure (.log pair.1 pair.2 place)) rest := by
  rw [statement]
  simp [accept_cons, Token.is]

theorem statement_alert :
    statement budget (Token.ofKeyword "alert" place :: rest) =
      (messageArguments budget "alert" >>= fun pair => pure (.alert pair.1 pair.2 place)) rest := by
  rw [statement]
  simp [accept_cons, Token.is]

theorem statement_notify :
    statement budget (Token.ofKeyword "notify" place :: rest) = notification budget place rest := by
  rw [statement]
  simp [accept_cons, Token.is]

theorem statement_name (name : String) :
    statement budget (Token.ofName name place :: rest) =
      callOrAssignment budget name place rest := by
  rw [statement]
  simp [accept_cons, Token.is]

end Branches

theorem Forms.begins {shape : Shape} {phrase : Phrase Statement} (forms : Forms shape phrase)
    (rest : List Token) :
    (∀ close, startsWith .punctuation close (phrase.tokens ++ rest) = false) ∧
      NoElse (phrase.tokens ++ rest) := by
  induction forms with
  | withoutElse | withElse | withElseIf =>
      simp [oneBranch, twoBranches, guarded, NoElse, Token.is]
  | conditional _ ih => exact ih
  | loop => simp [looping, NoElse, Token.is]
  | log | alert => simp [reporting, NoElse, Token.is]
  | notify | assignment | call => simp [NoElse, Token.is]

/-- Statements in braces are taken if each of them is. -/
theorem block_takes {budget : Nat} {statements : List (Phrase Statement)}
    (isStatement : ∀ statement ∈ statements, IsStatement statement)
    (takes : ∀ phrase ∈ statements, ∀ smaller, phrase.need ≤ smaller →
      (statement smaller).Takes phrase NoElse)
    (opening closing : Location) (fits : (braced opening closing statements).need ≤ budget)
    (owner : String) :
    (block budget owner).Takes (braced opening closing statements) fun _ => True := by
  intro rest _
  simp only [braced] at fits
  cases budget with
  | zero => omega
  | succ smaller =>
      have fitsEach := succession_need_le.mp (show (succession statements).need ≤ smaller by omega)
      have taken := repeatedUpTo_takes "\x7d" (fun _ => NoElse.of_mark)
        (fun phrase member rest => ((isStatement phrase member).begins rest).2)
        (fun phrase member => takes phrase member smaller (fitsEach phrase member))
        (fun phrase member rest => ((isStatement phrase member).begins rest).1 _)
        (Token.ofMark "\x7d" closing :: rest) (by simp [Token.is])
      rw [block_eq, braced, List.cons_append, bind_apply, mark_self, List.append_assoc]
      apply bracketed_of_inside
      exact taken

/-- The recogniser of a shape. -/
def shapeRecogniser (budget : Nat) : Shape → Recogniser Statement
  | .any => statement budget
  | .conditional => do
      let place ← here
      keyword "if" ""
      conditional budget place

theorem conditional_of_shape {budget : Nat} {tokens rest : List Token} {tree : Statement}
    (taken : shapeRecogniser budget .conditional tokens = .ok (tree, rest)) :
    ∃ place others, tokens = Token.ofKeyword "if" place :: others ∧
      conditional budget place others = .ok (tree, rest) := by
  simp only [shapeRecogniser, here_bind, bind_eq_ok, keyword_eq_ok] at taken
  rcases taken with ⟨_, _, ⟨place, rfl⟩, taken⟩
  exact ⟨place, _, rfl, taken⟩

theorem guarded_takes {budget : Nat} {condition : Phrase Expression}
    {statements : List (Phrase Statement)} (isCondition : IsExpression condition)
    (isStatement : ∀ statement ∈ statements, IsStatement statement)
    (takes : ∀ phrase ∈ statements, ∀ smaller, phrase.need ≤ smaller →
      (statement smaller).Takes phrase NoElse)
    (place opening closing bodyOpening bodyClosing : Location)
    (fits : (guarded place opening closing condition
      (braced bodyOpening bodyClosing statements)).need ≤ budget) (rest : List Token) :
    shapeRecogniser budget .conditional
        ((guarded place opening closing condition
          (braced bodyOpening bodyClosing statements)).tokens ++ rest) =
      furtherBranch budget place condition.tree (succession statements).tree rest := by
  rcases Nat.max_le.mp fits with ⟨conditionFits, bodyFits⟩
  have conditionTaken := expression_takes isCondition conditionFits
    (Token.ofMark ")" closing :: ((braced bodyOpening bodyClosing statements).tokens ++ rest))
    (.before (by decide) (by decide) _ _)
  have bodyTaken := block_takes isStatement takes bodyOpening bodyClosing bodyFits "if body" rest
    trivial
  simp [shapeRecogniser, guarded, conditional_eq, conditionTaken, bodyTaken]
  rfl

/-- A statement that fits the budget is taken before anything but an `else`. -/
theorem Forms.takes {shape : Shape} {phrase : Phrase Statement} (forms : Forms shape phrase)
    (budget : Nat) (fits : phrase.need ≤ budget) :
    (shapeRecogniser budget shape).Takes phrase NoElse := by
  induction forms generalizing budget with
  | withoutElse place opening closing bodyOpening bodyClosing isCondition isBody bodyTakes =>
      intro rest noElse
      rw [oneBranch, guarded_takes isCondition isBody bodyTakes _ _ _ _ _ fits]
      simp [furtherBranch, accept_of_not_startsWith noElse, guarded, braced]
  | @withElse place opening closing bodyOpening bodyClosing keyword elseOpening elseClosing
      condition body branch isCondition isBody isBranch bodyTakes branchTakes =>
      intro rest _
      rcases Nat.max_le.mp fits with ⟨headFits, branchFits⟩
      have branchTaken := block_takes isBranch branchTakes elseOpening elseClosing branchFits
        "else body" rest trivial
      rw [twoBranches, List.append_assoc, guarded_takes isCondition isBody bodyTakes _ _ _ _ _
        headFits]
      -- A block begins with a brace, so what follows the `else` is not taken for a conditional.
      have notIf : startsWith .keyword "if"
          ((braced elseOpening elseClosing branch).tokens ++ rest) = false := by
        simp [braced, Token.is]
      simp [furtherBranch, here, accept_of_not_startsWith notIf, branchTaken]
      simp [guarded, braced]
  | withElseIf place opening closing bodyOpening bodyClosing keyword isCondition isBody isChained
      bodyTakes chainedTakes =>
      intro rest noElse
      rcases Nat.max_le.mp fits with ⟨headFits, branchFits⟩
      rw [twoBranches, List.append_assoc, guarded_takes isCondition isBody bodyTakes _ _ _ _ _
        headFits]
      cases budget with
      | zero => simp [elseIf] at branchFits
      | succ smaller =>
          -- The conditional behind an `else` is read with one unit less, and its phrase needs one
          -- more.
          simp only [elseIf] at branchFits
          have shapeTaken := chainedTakes smaller (by omega) rest noElse
          rcases conditional_of_shape shapeTaken with ⟨elsePlace, others, tokensEq, taken⟩
          simp [furtherBranch, elseIf, tokensEq, taken]
          simp [guarded, braced]
  | conditional isConditional ih =>
      intro rest noElse
      have shapeTaken := ih budget fits rest noElse
      rcases conditional_of_shape shapeTaken with ⟨place, others, tokensEq, taken⟩
      rw [tokensEq, shapeRecogniser, statement_if, taken]
  | @loop place opening namePlace keyword closing bodyOpening bodyClosing name iterable body
      isIterable isBody bodyTakes =>
      intro rest _
      rcases Nat.max_le.mp fits with ⟨iterableFits, bodyFits⟩
      have iterableTaken := expression_takes isIterable iterableFits
        (Token.ofMark ")" closing :: ((braced bodyOpening bodyClosing body).tokens ++ rest))
        (.before (by decide) (by decide) _ _)
      have bodyTaken := block_takes isBody bodyTakes bodyOpening bodyClosing bodyFits "for body"
        rest trivial
      simp only [looping, List.cons_append, shapeRecogniser, statement_for, List.append_assoc]
      rw [Grammar.loop]
      simp [iterableTaken, bodyTaken]
  | log place opening closing final isMessage isExtra =>
      intro rest _
      rcases Nat.max_le.mp fits with ⟨messageFits, extraFits⟩
      have taken := messageArguments_takes isMessage isExtra messageFits extraFits "log" opening
        closing final rest
      simp [reporting, shapeRecogniser, statement_log, taken]
  | alert place opening closing final isMessage isExtra =>
      intro rest _
      rcases Nat.max_le.mp fits with ⟨messageFits, extraFits⟩
      have taken := messageArguments_takes isMessage isExtra messageFits extraFits "alert" opening
        closing final rest
      simp [reporting, shapeRecogniser, statement_alert, taken]
  | @notify place opening comma closing final target message data isTarget isMessage isData =>
      intro rest _
      rcases Nat.max_le.mp fits with ⟨targetFits, fits⟩
      rcases Nat.max_le.mp fits with ⟨messageFits, dataFits⟩
      have targetTaken := expression_takes isTarget targetFits
        (Token.ofMark "," comma :: (message.tokens ++ (data.tokens ++ Token.ofMark ")" closing ::
          Token.ofMark ";" final :: rest))) (.before (by decide) (by decide) _ _)
      have messageTaken := expression_takes isMessage messageFits _
        (.of_endsItem (endsItem_of_optionally isData closing (Token.ofMark ";" final :: rest))
          (by decide))
      have dataTaken := furtherArgument_takes isData dataFits closing
        (Token.ofMark ";" final :: rest)
      simp [shapeRecogniser, statement_notify, notification, targetTaken, messageTaken, dataTaken]
  | assignment name place sign final isValue =>
      intro rest _
      have taken := expression_takes isValue fits (Token.ofMark ";" final :: rest)
        (.before (by decide) (by decide) _ _)
      simp [shapeRecogniser, statement_name, callOrAssignment, accept_cons, Token.is, taken]
  | call name place final isArguments =>
      intro rest _
      rcases arguments_takes isArguments fits with ⟨opening, closing, inside, tokensEq, taken⟩
      simp [shapeRecogniser, statement_name, callOrAssignment, tokensEq, taken]

theorem statement_takes {phrase : Phrase Statement} (isStatement : IsStatement phrase)
    {budget : Nat} (fits : phrase.need ≤ budget) : (statement budget).Takes phrase NoElse :=
  Forms.takes isStatement budget fits

end TwinSwarm.Grammar
