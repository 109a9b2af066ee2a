import TwinSwarm.Proofs.Grammar.Attempts

/-!
# Going on after a failure

After a failure the token that was refused is passed over before the reading looks for
a place to go on.  A declaration at the place where the reading goes on is read.  A
declaration that begins with the refused token is not: its keyword is gone, and what is
left of it does not begin a declaration of that place.
-/

namespace TwinSwarm

namespace Grammar

variable {limit : Nat} {tokens start : List Token} {before : List Attempt}

/-- A declaration that an attempt reads stands where one of its tokens stands. -/
theorem attempt_uses (limit : Nat) (tokens : List Token) :
    ∃ used, tokens = used ++ (attempt limit tokens).2 ∧
      ∀ tree, (attempt limit tokens).1.declaration? = some tree →
        tree.location ∈ used.map Token.location := by
  cases read : declaration limit tokens with
  | ok result =>
      rcases declaration_eq_ok.mp read with ⟨phrase, isDeclaration, _, treeEq, tokensEq⟩
      rcases isDeclaration.begins with ⟨token, others, phraseEq, _, locationEq⟩
      refine ⟨phrase.tokens, by simpa [attempt, read] using tokensEq, ?_⟩
      intro tree isTree
      simp only [attempt, read, Attempt.declaration?, Option.some.injEq] at isTree
      rw [← isTree, ← treeEq, locationEq, phraseEq]
      exact List.mem_cons_self
  | error failure =>
      rcases (attempt_suffix limit tokens).trans (List.tail_suffix tokens) with ⟨used, usedEq⟩
      exact ⟨used, usedEq.symm, by simp [attempt, read, Attempt.declaration?]⟩

/-- The declarations read on the way to a place stand before it. -/
theorem Reaches.uses (reaches : Reaches limit tokens before start) :
    ∃ used, tokens = used ++ start ∧
      ∀ tree ∈ before.filterMap Attempt.declaration?,
        tree.location ∈ used.map Token.location := by
  induction reaches with
  | here tokens => exact ⟨[], rfl, by simp⟩
  | @next tokens start before _ _ ih =>
      rcases attempt_uses limit tokens with ⟨first, tokensEq, firstPlaces⟩
      rcases ih with ⟨others, othersEq, otherPlaces⟩
      refine ⟨first ++ others, ?_, ?_⟩
      · rw [List.append_assoc, ← othersEq]
        exact tokensEq
      · intro tree member
        rw [List.map_append, List.mem_append]
        rcases List.mem_filterMap.mp member with ⟨outcome, isOutcome, isTree⟩
        rcases List.mem_cons.mp isOutcome with rfl | isOther
        · exact .inl (firstPlaces tree isTree)
        · exact .inr (otherPlaces tree (List.mem_filterMap.mpr ⟨outcome, isOther, isTree⟩))

/-- Attempts go on to the end of the tokens. -/
theorem reaches_end (limit : Nat) (tokens : List Token) :
    Reaches limit tokens (attempts limit tokens) [] := by
  induction size : tokens.length using Nat.strongRecOn generalizing tokens with
  | ind size ih =>
      by_cases nonempty : tokens = []
      · rw [nonempty, attempts_nil]
        exact .here []
      · have others := ih _ (size ▸ attempt_shorter nonempty) (attempt limit tokens).2 rfl
        rw [attempts_of_ne_nil nonempty]
        exact .next nonempty others

/-- Every declaration that is read stands where one of the tokens stands. -/
theorem location_of_read {tree : Declaration}
    (member : tree ∈ (attempts limit tokens).filterMap Attempt.declaration?) :
    tree.location ∈ tokens.map Token.location := by
  rcases (reaches_end limit tokens).uses with ⟨used, tokensEq, places⟩
  rw [tokensEq, List.append_nil]
  exact places tree member

/-- A failing attempt is followed by the attempts from the place of resumption on. -/
theorem attempts_of_failure {failure : Failure} (reaches : Reaches limit tokens before start)
    (nonempty : start ≠ []) (failed : declaration limit start = .error failure) :
    attempts limit tokens =
      before ++ .skipped failure (resume failure.rest).1 ::
        attempts limit (resume failure.rest).2 := by
  rw [reaches.attempts_eq, attempts_of_ne_nil nonempty, attempt, failed]

end Grammar

namespace Parsing

open Grammar Phrase

/-- After a failure the refused token is passed over, and the program is what was read
before and what is read from the place of resumption on.  So a declaration at the place
of resumption is in the program.  A declaration that begins with the refused token is
not, unless an equal one is read elsewhere, which cannot be if no two tokens stand at
one place. -/
theorem refused_declaration_is_lost (limit : Nat) (tokens : List Token)
    {start : List Token} {before : List Attempt} {failure : Failure}
    {refused : Phrase Declaration} {behind : List Token}
    (reaches : Reaches limit (beforeEnd tokens) before start)
    (failed : declaration limit start = .error failure)
    (isRefused : IsDeclaration refused) (standsAt : failure.rest = refused.tokens ++ behind) :
    let next := (resume failure.rest).2
    let program := (ofTokens limit tokens).program
    next <:+ failure.rest.tail ∧
      program.declarations = before.filterMap Attempt.declaration? ++
        (Grammar.attempts limit next).filterMap Attempt.declaration? ∧
      (∀ resumed rest, IsDeclaration resumed → resumed.need ≤ limit →
        next = resumed.tokens ++ rest → resumed.tree ∈ program.declarations) ∧
      (((beforeEnd tokens).map Token.location).Nodup →
        refused.tree ∉ program.declarations) := by
  intro next program
  have nextSuffix : next <:+ failure.rest.tail := resume_suffix failure.rest
  rcases isRefused.begins with ⟨token, others, refusedEq, _, locationEq⟩
  have restEq : failure.rest = token :: (others ++ behind) := by
    rw [standsAt, refusedEq, List.cons_append]
  have failureSuffix := failure_suffix failed
  have nonempty : start ≠ [] := by
    rintro rfl
    rw [restEq] at failureSuffix
    exact absurd (List.suffix_nil.mp failureSuffix) (by simp)
  have declarationsEq : program.declarations = before.filterMap Attempt.declaration? ++
      (Grammar.attempts limit next).filterMap Attempt.declaration? := by
    have attemptsEq := attempts_of_failure reaches nonempty failed
    simp only [program, Parsing.program, ofTokens, attemptsEq]
    rw [List.filterMap_append, List.filterMap_cons]
    rfl
  refine ⟨nextSuffix, declarationsEq, ?_, ?_⟩
  · intro resumed rest isDeclaration fits nextEq
    rw [declarationsEq, nextEq, attempts_append isDeclaration fits]
    exact List.mem_append_right _ (List.mem_cons_self)
  · intro distinct member
    rw [declarationsEq, List.mem_append] at member
    rcases reaches.uses with ⟨used, tokensEq, places⟩
    have atToken : token.location ∈ start.map Token.location := by
      apply (failureSuffix.map Token.location).mem
      rw [restEq]
      exact List.mem_cons_self
    rw [tokensEq, List.map_append, List.nodup_append] at distinct
    rcases member with isBefore | isBehind
    · -- What was read before stands at tokens that had been used up.
      have place := places _ isBefore
      rw [locationEq] at place
      exact distinct.2.2 _ place _ atToken rfl
    · -- What is read later stands behind the refused token.
      have place := location_of_read isBehind
      rw [locationEq] at place
      rw [restEq, List.tail_cons] at nextSuffix
      have later := (nextSuffix.map Token.location).mem place
      have tailDistinct := distinct.2.1.sublist (failureSuffix.map Token.location).sublist
      rw [restEq, List.map_cons, List.nodup_cons] at tailDistinct
      exact tailDistinct.1 later

/-- The tokens of `twin A event B;`. -/
def eventBehindTwin : List Token :=
  [.ofKeyword "twin" ⟨1, 1⟩, .ofName "A" ⟨1, 6⟩, .ofKeyword "event" ⟨1, 8⟩, .ofName "B" ⟨1, 14⟩,
    .ofMark ";" ⟨1, 15⟩, ⟨.endOfFile, "", ⟨1, 16⟩⟩]

/-- The event begins with the token at which the twin fails, and is lost. -/
theorem event_behind_twin_is_lost :
    (.event ⟨"B", [], ⟨1, 8⟩⟩ : Declaration) ∉
      (ofTokens 32 eventBehindTwin).program.declarations := by
  have isEvent : IsDeclaration (behind "event" ⟨1, 8⟩ .event
      ⟨[.ofName "B" ⟨1, 14⟩, .ofMark ";" ⟨1, 15⟩], ⟨"B", [], ⟨1, 8⟩⟩, 0⟩) :=
    .event _ (.intro "B" ⟨1, 14⟩ ⟨1, 15⟩ .absent)
  have lost := @refused_declaration_is_lost 32 eventBehindTwin _ _ ⟨_, _⟩ _ [] (.here _) rfl
    isEvent rfl
  exact lost.2.2.2 (by decide)

end Parsing

end TwinSwarm
