import TwinSwarm.Proofs.Grammar.Attempts
import TwinSwarm.Proofs.Grammar.Need

/-!
# The language of programs

A program is a sequence of declarations.  Reading it reports nothing exactly if the
tokens are a program that needs no more nesting than is allowed, and then the tree of
this program is what is read.
-/

namespace TwinSwarm

namespace Grammar

open Phrase

/-- The phrases that are programs. -/
inductive IsProgram : Phrase Program → Prop where
  | intro {declarations : List (Phrase Declaration)} :
      (∀ declaration ∈ declarations, IsDeclaration declaration) →
      IsProgram
        ⟨(succession declarations).tokens, ⟨(succession declarations).tree⟩,
          (succession declarations).need⟩

/-- A program needs what its tree needs. -/
theorem IsProgram.need_eq {phrase : Phrase Program} (isProgram : IsProgram phrase) :
    phrase.need = phrase.tree.need := by
  cases isProgram with
  | intro isDeclaration =>
      exact succession_need_of_trees _ fun phrase member => (isDeclaration phrase member).need_eq

/-! ## Attempts -/

section Attempts

variable {limit : Nat} {tokens : List Token}

/-- A program within the limit is read declaration by declaration, and then what follows. -/
theorem attempts_program_append {phrase : Phrase Program} (isProgram : IsProgram phrase)
    (fits : phrase.need ≤ limit) (rest : List Token) :
    attempts limit (phrase.tokens ++ rest) =
      phrase.tree.declarations.map .read ++ attempts limit rest := by
  cases isProgram with
  | @intro declarations isDeclaration =>
      have fitsEach := succession_need_le.mp fits
      clear fits
      simp only [succession]
      induction declarations with
      | nil => rfl
      | cons first others ih =>
          have readFirst := attempts_append (isDeclaration first (by simp))
            (fitsEach first (by simp)) (others.flatMap Phrase.tokens ++ rest)
          have readOthers := ih
            (fun phrase member => isDeclaration phrase (List.mem_cons_of_mem _ member))
            (fun phrase member => fitsEach phrase (List.mem_cons_of_mem _ member))
          rw [List.flatMap_cons, List.append_assoc, readFirst, readOthers, List.map_cons,
            List.map_cons, List.cons_append]

/-- A program within the limit is read declaration by declaration. -/
theorem attempts_of_isProgram {phrase : Phrase Program} (isProgram : IsProgram phrase)
    (fits : phrase.need ≤ limit) :
    attempts limit phrase.tokens = phrase.tree.declarations.map .read := by
  have read := attempts_program_append isProgram fits []
  rwa [List.append_nil, attempts_nil, List.append_nil] at read

/-- Attempts without a failure have read a sequence of declarations. -/
theorem declarations_of_attempts
    (clean : (attempts limit tokens).filterMap Attempt.failure? = []) :
    ∃ phrases : List (Phrase Declaration),
      (∀ phrase ∈ phrases, IsDeclaration phrase) ∧ (∀ phrase ∈ phrases, phrase.need ≤ limit) ∧
        (succession phrases).tokens = tokens := by
  induction size : tokens.length using Nat.strongRecOn generalizing tokens with
  | ind size ih =>
      by_cases nonempty : tokens = []
      · exact ⟨[], by simp, by simp, nonempty.symm⟩
      have shorter : (attempt limit tokens).2.length < tokens.length := attempt_shorter nonempty
      rw [attempts_of_ne_nil nonempty] at clean
      cases read : declaration limit tokens with
      | ok result =>
          rcases declaration_eq_ok.mp read with ⟨phrase, isDeclaration, fits, treeEq, tokensEq⟩
          simp only [attempt, read] at clean shorter
          rcases ih _ (size ▸ shorter) clean rfl with ⟨phrases, areDeclarations, fitAll, behindEq⟩
          refine ⟨phrase :: phrases, ?_, ?_, ?_⟩
          · simpa [isDeclaration] using areDeclarations
          · simpa [fits] using fitAll
          · rw [tokensEq, ← behindEq]
            simp [succession]
      | error failure => simp [attempt, read, Attempt.failure?] at clean

/-- Attempts fail nowhere exactly if the tokens form a program within the limit. -/
theorem attempts_succeed_iff :
    (attempts limit tokens).filterMap Attempt.failure? = [] ↔
      ∃ phrase, IsProgram phrase ∧ phrase.tokens = tokens ∧ phrase.need ≤ limit := by
  constructor
  · intro clean
    rcases declarations_of_attempts clean with ⟨phrases, areDeclarations, fit, tokensEq⟩
    exact ⟨_, .intro areDeclarations, tokensEq, succession_need_le.mpr fit⟩
  · rintro ⟨phrase, isProgram, rfl, fits⟩
    rw [attempts_of_isProgram isProgram fits, List.filterMap_map]
    exact List.filterMap_eq_nil_iff.mpr fun _ _ => rfl

end Attempts

/-- Tokens form at most one program. -/
theorem IsProgram.unique {left right : Phrase Program} (isLeft : IsProgram left)
    (isRight : IsProgram right) (same : left.tokens = right.tokens) : left = right := by
  have readLeft := attempts_of_isProgram isLeft (Nat.le_max_left left.need right.need)
  have readRight := attempts_of_isProgram isRight (Nat.le_max_right left.need right.need)
  have declarationsEq : left.tree.declarations = right.tree.declarations := by
    rw [same, readRight] at readLeft
    exact ((List.map_inj_right fun _ _ => Attempt.read.inj).mp readLeft).symm
  have treeEq : left.tree = right.tree := congrArg Program.mk declarationsEq
  exact Phrase.ext same treeEq (by rw [isLeft.need_eq, isRight.need_eq, treeEq])

end Grammar

namespace Parsing

open Grammar Phrase

variable {limit : Nat} {tokens : List Token}

theorem diagnostics_eq_nil_iff {source : SourceText} {radius : Nat} :
    (ofTokens limit tokens).diagnostics source radius = [] ↔
      ∃ phrase, IsProgram phrase ∧ phrase.tokens = beforeEnd tokens ∧ phrase.need ≤ limit := by
  rw [diagnostics, List.map_eq_nil_iff]
  exact attempts_succeed_iff

theorem program_of_isProgram {phrase : Phrase Program} (isProgram : IsProgram phrase)
    (tokensEq : phrase.tokens = beforeEnd tokens) (fits : phrase.need ≤ limit) :
    (ofTokens limit tokens).program = phrase.tree := by
  have read := attempts_of_isProgram isProgram fits
  rw [program, ofTokens, ← tokensEq]
  simp only [read, List.filterMap_map]
  exact congrArg Program.mk (List.filterMap_some ..)

/-- Reading reports nothing exactly if the tokens form a program within the limit.  A
program has only one derivation, whose need decides, and whose tree is what is read. -/
theorem reads_exactly_programs (limit : Nat) (tokens : List Token) (source : SourceText)
    (radius : Nat) :
    ((ofTokens limit tokens).diagnostics source radius = [] ↔
        ∃ phrase, IsProgram phrase ∧ phrase.tokens = beforeEnd tokens ∧ phrase.need ≤ limit) ∧
      ∀ phrase, IsProgram phrase → phrase.tokens = beforeEnd tokens →
        ((ofTokens limit tokens).diagnostics source radius = [] ↔ phrase.need ≤ limit) ∧
          (phrase.need ≤ limit → (ofTokens limit tokens).program = phrase.tree) := by
  refine ⟨diagnostics_eq_nil_iff, ?_⟩
  intro phrase isProgram tokensEq
  constructor
  · rw [diagnostics_eq_nil_iff]
    constructor
    · rintro ⟨other, isOther, otherEq, fits⟩
      have same := isProgram.unique isOther (tokensEq.trans otherEq.symm)
      exact same ▸ fits
    · intro fits
      exact ⟨phrase, isProgram, tokensEq, fits⟩
  · intro fits
    exact program_of_isProgram isProgram tokensEq fits

end Parsing

end TwinSwarm
