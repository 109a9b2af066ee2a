import TwinSwarm.Proofs.Grammar.Congruence

/-!
# Recognisers only move forward

Whether a recogniser finds something or fails, the tokens that it leaves are the end of
those it was given.  So the place of a failure is never before the place where reading
began.
-/

namespace TwinSwarm.Grammar

open Recogniser

variable {α β : Type}

/-- The tokens that are left, after success and after failure. -/
def left : Except Failure (α × List Token) → List Token
  | .ok (_, rest) => rest
  | .error failure => failure.rest

/-- The recogniser leaves an end of its tokens. -/
def Recogniser.MovesForward (recogniser : Recogniser α) : Prop :=
  ∀ tokens, left (recogniser tokens) <:+ tokens

namespace Recogniser.MovesForward

theorem of_ok {recogniser : Recogniser α} (moves : recogniser.MovesForward)
    {tokens rest : List Token} {value : α} (read : recogniser tokens = .ok (value, rest)) :
    rest <:+ tokens := by
  have moved := moves tokens
  rwa [read] at moved

theorem of_error {recogniser : Recogniser α} (moves : recogniser.MovesForward)
    {tokens : List Token} {failure : Failure} (failed : recogniser tokens = .error failure) :
    failure.rest <:+ tokens := by
  have moved := moves tokens
  rwa [failed] at moved

/-! ## Single tokens -/

theorem of_pure (value : α) : (pure value : Recogniser α).MovesForward :=
  fun tokens => List.suffix_refl tokens

theorem of_fail (complaint : Complaint) :
    (fail complaint : Recogniser α).MovesForward :=
  fun tokens => List.suffix_refl tokens

theorem of_here : here.MovesForward := fun tokens => List.suffix_refl tokens

theorem of_peek : peek.MovesForward := fun tokens => List.suffix_refl tokens

theorem of_advance : advance.MovesForward := fun tokens => List.tail_suffix tokens

theorem of_isNext (kind : Token.Kind) (text : String) :
    (isNext kind text).MovesForward := fun tokens => List.suffix_refl tokens

theorem of_accept (kind : Token.Kind) (text : String) :
    (accept kind text).MovesForward := by
  intro tokens
  rw [accept]
  split
  · exact List.tail_suffix tokens
  · exact List.suffix_refl tokens

theorem of_acceptOperator (operator? : Token → Option α) :
    (acceptOperator operator?).MovesForward := by
  intro tokens
  cases tokens with
  | nil => exact List.suffix_refl []
  | cons token rest =>
      rw [acceptOperator]
      cases operator? token with
      | some operator => exact List.suffix_cons token rest
      | none => exact List.suffix_refl _

theorem of_demand (kind : Token.Kind) (text : String) (wanted : Expectation) :
    (demand kind text wanted).MovesForward := by
  intro tokens
  rw [demand]
  split
  · exact List.tail_suffix tokens
  · exact List.suffix_refl tokens

theorem of_tokenOf (kind : Token.Kind) (wanted : Expectation) :
    (tokenOf kind wanted).MovesForward := by
  intro tokens
  cases tokens with
  | nil => exact List.suffix_refl []
  | cons token rest =>
      rw [tokenOf]
      split
      · exact List.suffix_cons token rest
      · exact List.suffix_refl _

theorem of_instanceCount : instanceCount.MovesForward := by
  intro tokens
  cases tokens with
  | nil => exact List.suffix_refl []
  | cons token rest =>
      rw [instanceCount]
      split
      · split
        · exact List.suffix_cons token rest
        · exact List.suffix_refl _
      · exact List.suffix_refl _

/-! ## Combinations -/

theorem of_bind {recogniser : Recogniser α} {next : α → Recogniser β}
    (first : recogniser.MovesForward) (others : ∀ value, (next value).MovesForward) :
    (recogniser >>= next).MovesForward := by
  intro tokens
  have moved := first tokens
  rw [bind_apply]
  cases read : recogniser tokens with
  | ok result =>
      rw [read] at moved
      exact (others result.1 result.2).trans moved
  | error failure =>
      rw [read] at moved
      exact moved

theorem of_spending {budget : Nat} {next : Nat → Recogniser α}
    (deeper : ∀ smaller, budget = smaller + 1 → (next smaller).MovesForward) :
    (spending budget next).MovesForward := by
  cases budget with
  | zero => exact of_fail _
  | succ smaller => exact deeper smaller rfl

/-! ## Lists -/

section Lists

variable {item : Recogniser α} (moves : item.MovesForward)

include moves

theorem of_separated : (separated item).MovesForward := by
  intro tokens
  fun_induction separated item tokens with
  | case1 tokens _ failure failed =>
      have moved := moves tokens
      rwa [failed] at moved
  | case2 tokens _ first rest parsed shorter failure failed ih =>
      have moved := moves tokens
      rw [parsed] at moved
      rw [failed] at ih
      exact ih.trans ((List.tail_suffix rest).trans moved)
  | case3 tokens _ first rest parsed shorter others rest' parsedOthers ih =>
      have moved := moves tokens
      rw [parsed] at moved
      rw [parsedOthers] at ih
      exact ih.trans ((List.tail_suffix rest).trans moved)
  | case4 tokens _ first rest parsed last =>
      have moved := moves tokens
      rwa [parsed] at moved

theorem of_listedUpTo (close : String) : (listedUpTo close item).MovesForward := by
  intro tokens
  fun_induction listedUpTo close item tokens with
  | case1 tokens _ closes => exact List.suffix_refl tokens
  | case2 tokens _ opens failure failed =>
      have moved := moves tokens
      rwa [failed] at moved
  | case3 tokens _ opens first rest parsed shorter failure failed ih =>
      have moved := moves tokens
      rw [parsed] at moved
      rw [failed] at ih
      exact ih.trans ((List.tail_suffix rest).trans moved)
  | case4 tokens _ opens first rest parsed shorter others rest' parsedOthers ih =>
      have moved := moves tokens
      rw [parsed] at moved
      rw [parsedOthers] at ih
      exact ih.trans ((List.tail_suffix rest).trans moved)
  | case5 tokens _ opens first rest parsed last =>
      have moved := moves tokens
      rwa [parsed] at moved

theorem of_repeatedUpTo (close : String) : (repeatedUpTo close item).MovesForward := by
  intro tokens
  fun_induction repeatedUpTo close item tokens with
  | case1 tokens _ closes => exact List.suffix_refl tokens
  | case2 tokens _ opens failure failed =>
      have moved := moves tokens
      rwa [failed] at moved
  | case3 tokens _ opens first rest parsed shorter failure failed ih =>
      have moved := moves tokens
      rw [parsed] at moved
      rw [failed] at ih
      exact ih.trans moved
  | case4 tokens _ opens first rest parsed shorter others rest' parsedOthers ih =>
      have moved := moves tokens
      rw [parsed] at moved
      rw [parsedOthers] at ih
      exact ih.trans moved
  | case5 tokens _ opens first rest parsed last =>
      have moved := moves tokens
      rwa [parsed] at moved

end Lists

/-! ## Guards -/

section Guards

variable {item : Recogniser α} (moves : item.MovesForward)

include moves

/-- Behind an item and a comma fewer tokens are left. -/
theorem shorter_of_comma {tokens rest : List Token} {first : α}
    (parsed : item tokens = .ok (first, rest))
    (starts : startsWith .punctuation "," rest = true) : rest.tail.length < tokens.length := by
  have length := (moves.of_ok parsed).length_le
  cases rest with
  | nil => cases starts
  | cons token others => exact Nat.lt_of_succ_le length

/-- The guard of the recursion never cuts the list short. -/
theorem separated_eq :
    separated item = (do
      let first ← item
      if ← accept .punctuation "," then
        let others ← separated item
        return first :: others
      else return [first]) := by
  funext tokens
  rw [separated, bind_apply]
  cases parsed : item tokens with
  | error failure => rfl
  | ok result =>
      have shorter := moves.shorter_of_comma parsed
      simp only [bind_apply, accept]
      cases starts : startsWith .punctuation "," result.2 with
      | false => simp
      | true =>
          simp only [shorter starts, and_self, dif_pos, if_true, bind_apply]
          cases separated item result.2.tail <;> rfl

/-- The guard of the recursion never cuts the list short. -/
theorem listedUpTo_eq (close : String) :
    listedUpTo close item = (do
      if ← isNext .punctuation close then return []
      else
        let first ← item
        if ← accept .punctuation "," then
          let others ← listedUpTo close item
          return first :: others
        else return [first]) := by
  funext tokens
  rw [listedUpTo, bind_apply, isNext]
  cases startsWith .punctuation close tokens with
  | true => rfl
  | false =>
      simp only [Bool.false_eq_true, if_false, bind_apply]
      cases parsed : item tokens with
      | error failure => rfl
      | ok result =>
          have shorter := moves.shorter_of_comma parsed
          simp only [accept]
          cases starts : startsWith .punctuation "," result.2 with
          | false => simp
          | true =>
              simp only [shorter starts, and_self, dif_pos, if_true, bind_apply]
              cases listedUpTo close item result.2.tail <;> rfl

end Guards

/-- If every item takes a token, the guard of the recursion never cuts the list short. -/
theorem repeatedUpTo_eq {item : Recogniser α}
    (consumes : ∀ {tokens rest value}, item tokens = .ok (value, rest) →
      rest.length < tokens.length) (close : String) {tokens : List Token} (nonempty : tokens ≠ []) :
    repeatedUpTo close item tokens = (do
      if ← isNext .punctuation close then return []
      else
        let first ← item
        let others ← repeatedUpTo close item
        return first :: others) tokens := by
  rw [repeatedUpTo, bind_apply, isNext]
  cases startsWith .punctuation close tokens with
  | true => simp
  | false =>
      simp only [nonempty, Bool.false_eq_true, or_self, if_false, bind_apply]
      cases parsed : item tokens with
      | error failure => rfl
      | ok result =>
          simp only [consumes parsed, dif_pos]
          cases repeatedUpTo close item result.2 <;> rfl

/-! ## The whole grammar -/

/-- Moving forward is kept by all ways to combine recognisers. -/
theorem congruence : Congruence Eq fun first second => first = second ∧ first.MovesForward where
  of_pure value := ⟨rfl, of_pure value⟩
  of_fail complaint := ⟨rfl, of_fail complaint⟩
  of_here := ⟨rfl, of_here⟩
  of_peek := ⟨rfl, of_peek⟩
  of_advance := ⟨rfl, of_advance⟩
  of_isNext kind text := ⟨rfl, of_isNext kind text⟩
  of_accept kind text := ⟨rfl, of_accept kind text⟩
  of_acceptOperator operator? := ⟨rfl, of_acceptOperator operator?⟩
  of_demand kind text wanted := ⟨rfl, of_demand kind text wanted⟩
  of_tokenOf kind wanted := ⟨rfl, of_tokenOf kind wanted⟩
  of_instanceCount := ⟨rfl, of_instanceCount⟩
  of_bind := by
    rintro α β recogniser _ next others ⟨rfl, moves⟩ further
    obtain rfl : next = others := funext fun value => (further value).1
    exact ⟨rfl, of_bind moves fun value => (further value).2⟩
  of_spending := by
    rintro α budget _ next others rfl deeper
    refine ⟨?_, of_spending fun smaller isSucc => (deeper smaller smaller isSucc rfl).2⟩
    cases budget with
    | zero => rfl
    | succ smaller => exact (deeper smaller smaller rfl rfl).1
  of_separated := fun ⟨same, moves⟩ => ⟨same ▸ rfl, of_separated moves⟩
  of_listedUpTo close := fun ⟨same, moves⟩ => ⟨same ▸ rfl, of_listedUpTo moves close⟩
  of_repeatedUpTo close := fun ⟨same, moves⟩ => ⟨same ▸ rfl, of_repeatedUpTo moves close⟩

end Recogniser.MovesForward

/-- Reading a declaration moves forward. -/
theorem declaration_movesForward (budget : Nat) : (declaration budget).MovesForward :=
  (MovesForward.congruence.declaration rfl).2

end TwinSwarm.Grammar
