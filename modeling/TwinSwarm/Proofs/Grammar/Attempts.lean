import TwinSwarm.Grammar.Program
import TwinSwarm.Proofs.Grammar.Progress

/-!
# Attempts

Every attempt to read a declaration uses up at least one token, so the attempts come to
an end by using up all of them.  A run of attempts can be followed to any place where
another attempt begins.
-/

namespace TwinSwarm.Grammar

open Phrase Recogniser

variable {limit : Nat} {tokens rest : List Token}

/-! ## One attempt -/

/-- What is read as a declaration is a declaration. -/
theorem declaration_eq_ok {tree : Declaration} :
    declaration limit tokens = .ok (tree, rest) ↔
      ∃ phrase, IsDeclaration phrase ∧ phrase.need ≤ limit ∧ phrase.tree = tree ∧
        tokens = phrase.tokens ++ rest := by
  constructor
  · intro found
    rcases declaration_finds limit _ _ _ found with
      ⟨phrase, ⟨isDeclaration, fits⟩, treeEq, tokensEq⟩
    exact ⟨phrase, isDeclaration, fits, treeEq, tokensEq⟩
  · rintro ⟨phrase, isDeclaration, fits, rfl, rfl⟩
    exact declaration_takes isDeclaration fits rest

theorem failure_suffix {failure : Failure} (failed : declaration limit tokens = .error failure) :
    failure.rest <:+ tokens :=
  (declaration_movesForward limit).of_error failed

/-- A declaration begins with its keyword, which stands where the declaration does. -/
theorem IsDeclaration.begins {phrase : Phrase Declaration} (isDeclaration : IsDeclaration phrase) :
    ∃ token others, phrase.tokens = token :: others ∧ beginsDeclaration token = true ∧
      phrase.tree.location = token.location := by
  cases isDeclaration with
  | twin place isTwin => cases isTwin; exact ⟨_, _, rfl, rfl, rfl⟩
  | swarm place isSwarm => cases isSwarm; exact ⟨_, _, rfl, rfl, rfl⟩
  | event place isEvent => cases isEvent; exact ⟨_, _, rfl, rfl, rfl⟩
  | action place isAction => cases isAction; exact ⟨_, _, rfl, rfl, rfl⟩
  | rule place isRule => cases isRule; exact ⟨_, _, rfl, rfl, rfl⟩
  | imported place isImport => cases isImport; exact ⟨_, _, rfl, rfl, rfl⟩

theorem suffix_tail {shorter longer : List Token} (suffix : shorter <:+ longer) :
    shorter.tail <:+ longer.tail := by
  rcases suffix with ⟨front, rfl⟩
  cases front with
  | nil => exact List.suffix_refl _
  | cons first front => exact (List.tail_suffix shorter).trans (List.suffix_append front shorter)

/-- After a failure at least one token is passed over. -/
theorem resume_suffix (tokens : List Token) : (resume tokens).2 <:+ tokens.tail := by
  fun_induction resume tokens with
  | case1 => exact List.suffix_refl []
  | case2 => exact List.suffix_refl []
  | case3 passed next rest ends => exact List.suffix_refl _
  | case4 passed next rest goesOn begins => exact List.suffix_refl _
  | case5 passed next rest goesOn begins ih => exact ih.trans (List.suffix_cons next rest)

/-- An attempt uses up the first token. -/
theorem attempt_suffix (limit : Nat) (tokens : List Token) :
    (attempt limit tokens).2 <:+ tokens.tail := by
  rw [attempt]
  split
  next tree rest read =>
    rcases declaration_eq_ok.mp read with ⟨phrase, isDeclaration, _, _, rfl⟩
    rcases isDeclaration.begins with ⟨token, others, tokensEq, _⟩
    rw [tokensEq]
    exact List.suffix_append others rest
  next failure failed =>
    exact (resume_suffix failure.rest).trans (suffix_tail (failure_suffix failed))

theorem attempt_shorter (nonempty : tokens ≠ []) :
    (attempt limit tokens).2.length < tokens.length := by
  have shorter := (attempt_suffix limit tokens).length_le
  have positive := List.length_pos_iff.mpr nonempty
  rw [List.length_tail] at shorter
  omega

/-! ## Runs of attempts -/

@[simp] theorem attempts_nil (limit : Nat) : attempts limit [] = [] := by
  rw [attempts]
  simp

/-- One attempt after the other. -/
theorem attempts_of_ne_nil (nonempty : tokens ≠ []) :
    attempts limit tokens =
      (attempt limit tokens).1 :: attempts limit (attempt limit tokens).2 := by
  rw [attempts]
  simp [nonempty, attempt_shorter nonempty]

/-- Each attempt begins somewhere among the tokens. -/
theorem exists_start {outcome : Attempt} (isMember : outcome ∈ attempts limit tokens) :
    ∃ start, start <:+ tokens ∧ outcome = (attempt limit start).1 := by
  induction size : tokens.length using Nat.strongRecOn generalizing tokens with
  | ind size ih =>
      by_cases nonempty : tokens = []
      · simp [nonempty] at isMember
      have shorter : (attempt limit tokens).2.length < tokens.length := attempt_shorter nonempty
      rw [attempts_of_ne_nil nonempty] at isMember
      rcases List.mem_cons.mp isMember with isFirst | isLater
      · exact ⟨tokens, List.suffix_refl tokens, isFirst⟩
      · rcases ih _ (size ▸ shorter) isLater rfl with ⟨start, isSuffix, outcomeEq⟩
        have inside := (attempt_suffix limit tokens).trans (List.tail_suffix tokens)
        exact ⟨start, isSuffix.trans inside, outcomeEq⟩

/-- Each declaration that is read is read somewhere among the tokens. -/
theorem exists_reading {tree : Declaration}
    (isRead : tree ∈ (attempts limit tokens).filterMap Attempt.declaration?) :
    ∃ start rest, start <:+ tokens ∧ declaration limit start = .ok (tree, rest) := by
  rcases List.mem_filterMap.mp isRead with ⟨outcome, isMember, isTree⟩
  rcases exists_start isMember with ⟨start, isSuffix, rfl⟩
  rw [attempt] at isTree
  split at isTree
  next found rest read =>
    cases isTree
    exact ⟨start, rest, isSuffix, read⟩
  next => cases isTree

/-- Each declaration that is read stands for some of the tokens. -/
theorem exists_phrase_of_read {tree : Declaration}
    (isRead : tree ∈ (attempts limit tokens).filterMap Attempt.declaration?) :
    ∃ phrase, IsDeclaration phrase ∧ phrase.tree = tree ∧ phrase.tokens ⊆ tokens := by
  rcases exists_reading isRead with ⟨start, rest, isSuffix, read⟩
  rcases declaration_eq_ok.mp read with ⟨phrase, isDeclaration, _, treeEq, tokensEq⟩
  refine ⟨phrase, isDeclaration, treeEq, List.Subset.trans ?_ isSuffix.subset⟩
  rw [tokensEq]
  exact List.subset_append_left phrase.tokens rest

/-- Each failure is met somewhere among the tokens. -/
theorem exists_refusal {failure : Failure}
    (isFailure : failure ∈ (attempts limit tokens).filterMap Attempt.failure?) :
    ∃ start, start <:+ tokens ∧ declaration limit start = .error failure := by
  rcases List.mem_filterMap.mp isFailure with ⟨outcome, isMember, failed⟩
  rcases exists_start isMember with ⟨start, isSuffix, rfl⟩
  rw [attempt] at failed
  split at failed
  next => cases failed
  next reason refused =>
    cases failed
    exact ⟨start, isSuffix, refused⟩

/-- Each failure is about a token that the tokens hold, or about their end. -/
theorem rest_suffix_of_failure {failure : Failure}
    (isFailure : failure ∈ (attempts limit tokens).filterMap Attempt.failure?) :
    failure.rest <:+ tokens := by
  rcases exists_refusal isFailure with ⟨start, isSuffix, refused⟩
  exact (failure_suffix refused).trans isSuffix

/-- After a failure the attempts go on behind the refused token, so each failure leaves fewer
tokens than the one before it. -/
theorem failures_move_on (limit : Nat) (tokens : List Token) :
    ((attempts limit tokens).filterMap Attempt.failure?).Pairwise fun earlier later =>
      later.rest.length < earlier.rest.length := by
  induction size : tokens.length using Nat.strongRecOn generalizing tokens with
  | ind size ih =>
      by_cases nonempty : tokens = []
      · simp [nonempty]
      have others := ih _ (size ▸ attempt_shorter nonempty) (attempt limit tokens).2 rfl
      rw [attempts_of_ne_nil nonempty]
      cases read : declaration limit tokens with
      | ok result =>
          simp only [attempt, read] at others ⊢
          exact others
      | error failure =>
          simp only [attempt, read] at others ⊢
          refine List.pairwise_cons.mpr ⟨?_, others⟩
          intro later isLater
          have behind := (rest_suffix_of_failure isLater).length_le
          have passed := (resume_suffix failure.rest).length_le
          rw [List.length_tail] at passed
          -- At the end nothing is passed over, but no further attempt is made either.
          by_cases atEnd : failure.rest = []
          · rw [atEnd, resume, attempts_nil] at isLater
            cases isLater
          · have positive := List.length_pos_iff.mpr atEnd
            omega

/-- A declaration in front of the tokens is the first thing that is read. -/
theorem attempts_append {phrase : Phrase Declaration} (isDeclaration : IsDeclaration phrase)
    (fits : phrase.need ≤ limit) (rest : List Token) :
    attempts limit (phrase.tokens ++ rest) = .read phrase.tree :: attempts limit rest := by
  have nonempty : phrase.tokens ++ rest ≠ [] := by
    rcases isDeclaration.begins with ⟨token, others, tokensEq, _⟩
    simp [tokensEq]
  rw [attempts_of_ne_nil nonempty, attempt, declaration_takes isDeclaration fits rest]

/-- The attempts from some tokens on lead to a place where the next one begins. -/
inductive Reaches (limit : Nat) : List Token → List Attempt → List Token → Prop where
  | here (tokens : List Token) : Reaches limit tokens [] tokens
  | next {tokens start : List Token} {before : List Attempt} :
      tokens ≠ [] → Reaches limit (attempt limit tokens).2 before start →
      Reaches limit tokens ((attempt limit tokens).1 :: before) start

theorem Reaches.attempts_eq {start : List Token} {before : List Attempt}
    (reaches : Reaches limit tokens before start) :
    attempts limit tokens = before ++ attempts limit start := by
  induction reaches with
  | here tokens => rfl
  | next nonempty _ ih => rw [attempts_of_ne_nil nonempty, ih, List.cons_append]

end TwinSwarm.Grammar
