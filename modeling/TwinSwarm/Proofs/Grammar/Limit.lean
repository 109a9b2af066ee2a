import TwinSwarm.Proofs.Grammar.Attempts

/-!
# A higher limit on nesting

The budget is looked at where a unit of it is spent and nowhere else.  So reading under a
higher limit takes the same course until the lower one is exceeded.  A run of attempts in
which that never happens is the same run under every higher limit, with the same recoveries.
-/

namespace TwinSwarm.Grammar

open Recogniser

variable {α β : Type}

/-- What the first recogniser does not refuse as nested too deeply, the second one answers in
the same way. -/
def Recogniser.Outlasted (small large : Recogniser α) : Prop :=
  ∀ tokens, match small tokens with
    | .ok result => large tokens = .ok result
    | .error failure => failure.complaint = .nestedTooDeeply ∨ large tokens = .error failure

namespace Recogniser.Outlasted

theorem refl (recogniser : Recogniser α) : recogniser.Outlasted recogniser := by
  intro tokens
  cases recogniser tokens with
  | ok result => rfl
  | error failure => exact .inr rfl

section Answers

variable {small large : Recogniser α} (outlasted : small.Outlasted large) {tokens : List Token}

include outlasted

theorem of_ok {result : α × List Token} (read : small tokens = .ok result) :
    large tokens = .ok result := by
  have course := outlasted tokens
  rwa [read] at course

theorem of_error {failure : Failure} (failed : small tokens = .error failure) :
    failure.complaint = .nestedTooDeeply ∨ large tokens = .error failure := by
  have course := outlasted tokens
  rwa [failed] at course

end Answers

theorem of_bind {small large : Recogniser α} {smallNext largeNext : α → Recogniser β}
    (first : small.Outlasted large)
    (others : ∀ value, (smallNext value).Outlasted (largeNext value)) :
    (small >>= smallNext).Outlasted (large >>= largeNext) := by
  intro tokens
  rw [bind_apply, bind_apply]
  cases read : small tokens with
  | ok result =>
      rw [first.of_ok read]
      exact others result.1 result.2
  | error failure => exact (first.of_error read).imp_right fun same => by rw [same]

/-- What is left of a higher limit is higher too, so only the lower one can be exceeded. -/
theorem of_spending {small large : Nat} {left right : Nat → Recogniser α} (le : small ≤ large)
    (deeper : ∀ smaller larger, small = smaller + 1 → smaller ≤ larger →
      (left smaller).Outlasted (right larger)) :
    (spending small left).Outlasted (spending large right) := by
  cases small with
  | zero => exact fun tokens => .inl rfl
  | succ smaller =>
      obtain ⟨larger, rfl⟩ : ∃ larger, large = larger + 1 := ⟨large - 1, by omega⟩
      exact deeper smaller larger rfl (by omega)

section Lists

variable {small large : Recogniser α} (outlasted : small.Outlasted large)

include outlasted

theorem of_separated : (separated small).Outlasted (separated large) := by
  intro tokens
  fun_induction separated small tokens with
  | case1 tokens _ failure failed =>
      exact (outlasted.of_error failed).imp_right fun same => by rw [separated, same]
  | case2 tokens _ first rest parsed more failure failed ih =>
      rw [failed] at ih
      exact ih.imp_right fun same => by
        rw [separated, outlasted.of_ok parsed]
        simp only [same]
        exact dif_pos more
  | case3 tokens _ first rest parsed more others rest' parsedOthers ih =>
      rw [parsedOthers] at ih
      rw [separated, outlasted.of_ok parsed]
      simp only [ih]
      exact dif_pos more
  | case4 tokens _ first rest parsed last =>
      rw [separated, outlasted.of_ok parsed]
      exact dif_neg last

theorem of_listedUpTo (close : String) :
    (listedUpTo close small).Outlasted (listedUpTo close large) := by
  intro tokens
  fun_induction listedUpTo close small tokens with
  | case1 tokens _ closes => rw [listedUpTo, if_pos closes]
  | case2 tokens _ opens failure failed =>
      exact (outlasted.of_error failed).imp_right fun same => by
        rw [listedUpTo, if_neg opens, same]
  | case3 tokens _ opens first rest parsed more failure failed ih =>
      rw [failed] at ih
      exact ih.imp_right fun same => by
        rw [listedUpTo, if_neg opens, outlasted.of_ok parsed]
        simp only [same]
        exact dif_pos more
  | case4 tokens _ opens first rest parsed more others rest' parsedOthers ih =>
      rw [parsedOthers] at ih
      rw [listedUpTo, if_neg opens, outlasted.of_ok parsed]
      simp only [ih]
      exact dif_pos more
  | case5 tokens _ opens first rest parsed last =>
      rw [listedUpTo, if_neg opens, outlasted.of_ok parsed]
      exact dif_neg last

theorem of_repeatedUpTo (close : String) :
    (repeatedUpTo close small).Outlasted (repeatedUpTo close large) := by
  intro tokens
  fun_induction repeatedUpTo close small tokens with
  | case1 tokens _ closes => rw [repeatedUpTo, if_pos closes]
  | case2 tokens _ opens failure failed =>
      exact (outlasted.of_error failed).imp_right fun same => by
        rw [repeatedUpTo, if_neg opens, same]
  | case3 tokens _ opens first rest parsed more failure failed ih =>
      rw [failed] at ih
      exact ih.imp_right fun same => by
        rw [repeatedUpTo, if_neg opens, outlasted.of_ok parsed]
        simp only [same]
        exact dif_pos more
  | case4 tokens _ opens first rest parsed more others rest' parsedOthers ih =>
      rw [parsedOthers] at ih
      rw [repeatedUpTo, if_neg opens, outlasted.of_ok parsed]
      simp only [ih]
      exact dif_pos more
  | case5 tokens _ opens first rest parsed last =>
      rw [repeatedUpTo, if_neg opens, outlasted.of_ok parsed]
      exact dif_neg last

end Lists

theorem congruence : Congruence (· ≤ ·) Outlasted where
  of_pure _ := refl _
  of_fail _ := refl _
  of_here := refl _
  of_peek := refl _
  of_advance := refl _
  of_isNext _ _ := refl _
  of_accept _ _ := refl _
  of_acceptOperator _ := refl _
  of_demand _ _ _ := refl _
  of_tokenOf _ _ := refl _
  of_instanceCount := refl _
  of_bind := of_bind
  of_spending := of_spending
  of_separated := of_separated
  of_listedUpTo close outlasted := outlasted.of_listedUpTo close
  of_repeatedUpTo close outlasted := outlasted.of_repeatedUpTo close

end Recogniser.Outlasted

section Raised

variable {small large : Nat} (le : small ≤ large)

include le

/-- Reading a declaration under a higher limit takes the same course, unless the lower limit is
exceeded. -/
theorem declaration_outlasted : (declaration small).Outlasted (declaration large) :=
  Outlasted.congruence.declaration le

theorem attempt_of_raised {tokens : List Token}
    (noneTooDeep : ∀ failure, (attempt small tokens).1.failure? = some failure →
      failure.complaint ≠ .nestedTooDeeply) :
    attempt large tokens = attempt small tokens := by
  unfold attempt at noneTooDeep ⊢
  cases read : declaration small tokens with
  | ok result => rw [(declaration_outlasted le).of_ok read]
  | error failure =>
      rw [read] at noneTooDeep
      rcases (declaration_outlasted le).of_error read with tooDeep | same
      · exact absurd tooDeep (noneTooDeep failure rfl)
      · rw [same]

theorem attempts_of_raised {tokens : List Token}
    (noneTooDeep : ∀ failure ∈ (attempts small tokens).filterMap Attempt.failure?,
      failure.complaint ≠ .nestedTooDeeply) :
    attempts large tokens = attempts small tokens := by
  induction size : tokens.length using Nat.strongRecOn generalizing tokens with
  | ind size ih =>
      by_cases nonempty : tokens = []
      · rw [nonempty, attempts_nil, attempts_nil]
      rw [attempts_of_ne_nil nonempty] at noneTooDeep
      rw [attempts_of_ne_nil nonempty, attempts_of_ne_nil nonempty]
      have first : attempt large tokens = attempt small tokens := by
        apply attempt_of_raised le
        intro failure failed
        exact noneTooDeep failure (by simp [failed])
      have others : attempts large (attempt small tokens).2 =
          attempts small (attempt small tokens).2 := by
        apply ih _ (size ▸ attempt_shorter nonempty) _ rfl
        intro failure isLater
        apply noneTooDeep failure
        rw [List.filterMap_cons]
        split
        · exact isLater
        · exact List.mem_cons_of_mem _ isLater
      rw [first, others]

end Raised

/-- Where nesting is not the fault, the limit does not show in the report. -/
theorem Failure.diagnostic_of_raised {failure : Failure} (small large : Nat) (source : SourceText)
    (endLocation : Location) (radius : Nat) (notTooDeep : failure.complaint ≠ .nestedTooDeeply) :
    failure.diagnostic source endLocation large radius =
      failure.diagnostic source endLocation small radius := by
  cases failure with
  | mk complaint rest =>
      cases complaint
      case nestedTooDeeply => exact absurd rfl notTooDeep
      all_goals rfl

end TwinSwarm.Grammar

namespace TwinSwarm.Parsing

open Grammar

/-- Raising the limit changes nothing that was decided without it.  If nothing is reported as
nested too deeply under a limit, then under every higher one the attempts are the same, with
the same recoveries, and so are the program and the diagnostics. -/
theorem same_under_raised_limit (tokens : List Token) (source : SourceText) (radius : Nat)
    {small large : Nat} (le : small ≤ large)
    (noneTooDeep : ∀ diagnostic ∈ (ofTokens small tokens).diagnostics source radius,
      diagnostic.kind ≠ .nestingTooDeep) :
    (ofTokens large tokens).attempts = (ofTokens small tokens).attempts ∧
      (ofTokens large tokens).program = (ofTokens small tokens).program ∧
      (ofTokens large tokens).diagnostics source radius =
        (ofTokens small tokens).diagnostics source radius := by
  have noFailure : ∀ failure ∈ (ofTokens small tokens).attempts.filterMap Attempt.failure?,
      failure.complaint ≠ .nestedTooDeeply := by
    intro failure isFailure tooDeep
    apply noneTooDeep _ (List.mem_map_of_mem isFailure)
    exact congrArg Complaint.kind tooDeep
  have attemptsEq : (ofTokens large tokens).attempts = (ofTokens small tokens).attempts :=
    attempts_of_raised le noFailure
  refine ⟨attemptsEq, congrArg (Program.mk ∘ List.filterMap Attempt.declaration?) attemptsEq, ?_⟩
  rw [diagnostics, diagnostics, attemptsEq]
  exact List.map_congr_left fun failure isFailure =>
    failure.diagnostic_of_raised small large source _ radius (noFailure failure isFailure)

/-- The tokens of `event ; action A { x = - 1 ; }`. -/
def brokenEventBeforeAction : List Token :=
  [.ofKeyword "event" ⟨1, 1⟩, .ofMark ";" ⟨1, 7⟩, .ofKeyword "action" ⟨1, 9⟩,
    .ofName "A" ⟨1, 16⟩, .ofMark "\x7b" ⟨1, 18⟩, .ofName "x" ⟨1, 20⟩, ⟨.operator, "=", ⟨1, 22⟩⟩,
    ⟨.operator, "-", ⟨1, 24⟩⟩, ⟨.number, "1", ⟨1, 26⟩⟩, .ofMark ";" ⟨1, 28⟩,
    .ofMark "\x7d" ⟨1, 30⟩, ⟨.endOfFile, "", ⟨1, 31⟩⟩]

/-- The broken event is the only fault under the limit two, and so it is under the usual one. -/
theorem brokenEvent_under_raised_limit :
    2 ≤ defaultLimit ∧
      ((ofTokens 2 brokenEventBeforeAction).diagnostics (.ofString "") 0).map Diagnostic.kind =
        [.syntactic] ∧
      ((ofTokens defaultLimit brokenEventBeforeAction).diagnostics (.ofString "") 0).map
        Diagnostic.kind = [.syntactic] := by
  have le : 2 ≤ defaultLimit := by decide
  have oneFault :
      ((ofTokens 2 brokenEventBeforeAction).diagnostics (.ofString "") 0).map Diagnostic.kind =
        [.syntactic] := by
    decide +kernel
  have noneTooDeep : ∀ diagnostic ∈
      (ofTokens 2 brokenEventBeforeAction).diagnostics (.ofString "") 0,
      diagnostic.kind ≠ .nestingTooDeep := by
    decide +kernel
  have same := same_under_raised_limit brokenEventBeforeAction (.ofString "") 0 le noneTooDeep
  exact ⟨le, oneFault, same.2.2 ▸ oneFault⟩

end TwinSwarm.Parsing
