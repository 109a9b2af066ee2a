import Mathlib.Data.List.Forall2
import TwinSwarm.Proofs.Analysis.Presentation

/-!
# Faults come in the order of the source

Unexpected characters are reported from left to right.  A fault of the grammar blames the token
in front of which the cursor was stopped, and the reading goes on behind that token.  So the
faults follow each other in the source text, and no token is blamed twice.
-/

namespace TwinSwarm

open Grammar

namespace Diagnostic

/-- The fault is an unexpected character. -/
def isLexical (fault : Diagnostic) : Bool := fault.kind = .lexical

/-- The fault is one of the grammar, of which too deep nesting is one. -/
def isGrammatical (fault : Diagnostic) : Bool :=
  fault.kind = .syntactic || fault.kind = .nestingTooDeep

/-- The faults stand one behind the other. -/
def Ascend (faults : List Diagnostic) : Prop :=
  faults.Pairwise fun earlier later => earlier.location.Before later.location

/-- Of faults that stand one behind the other at most one stands at a place. -/
theorem Ascend.count_le_one {faults : List Diagnostic} (ascend : Ascend faults)
    (place : Location) : (faults.map Diagnostic.location).count place ≤ 1 := by
  have distinct : (faults.map Diagnostic.location).Nodup :=
    List.pairwise_map.mpr (ascend.imp fun before => before.ne)
  exact List.nodup_iff_count.mp distinct place

theorem filter_of_lexical {faults : List Diagnostic}
    (kinds : ∀ fault ∈ faults, fault.kind = .lexical) :
    faults.filter isLexical = faults ∧ faults.filter isGrammatical = [] := by
  constructor
  · exact List.filter_eq_self.mpr fun fault isFault => decide_eq_true (kinds fault isFault)
  · refine List.filter_eq_nil_iff.mpr fun fault isFault => ?_
    simp [isGrammatical, kinds fault isFault]

theorem filter_of_grammatical {faults : List Diagnostic}
    (kinds : ∀ fault ∈ faults, fault.kind = .syntactic ∨ fault.kind = .nestingTooDeep) :
    faults.filter isLexical = [] ∧ faults.filter isGrammatical = faults := by
  constructor
  · refine List.filter_eq_nil_iff.mpr fun fault isFault => ?_
    rcases kinds fault isFault with kindEq | kindEq
    all_goals simp [isLexical, kindEq]
  · refine List.filter_eq_self.mpr fun fault isFault => ?_
    rcases kinds fault isFault with kindEq | kindEq
    all_goals simp [isGrammatical, kindEq]

theorem filter_of_semantic {faults : List Diagnostic}
    (kinds : ∀ fault ∈ faults, fault.kind = .semantic) :
    faults.filter isLexical = [] ∧ faults.filter isGrammatical = [] := by
  constructor
  · refine List.filter_eq_nil_iff.mpr fun fault isFault => ?_
    simp [isLexical, kinds fault isFault]
  · refine List.filter_eq_nil_iff.mpr fun fault isFault => ?_
    simp [isGrammatical, kinds fault isFault]

end Diagnostic

/-! ## Unexpected characters -/

/-- Unexpected characters are reported from left to right. -/
theorem Lexing.diagnostics_ascend (text : List Char) (radius : Nat) :
    Diagnostic.Ascend (ofText text radius).diagnostics := by
  have location_eq {lexeme : Lexeme} {fault : Diagnostic}
      (reported : lexeme.diagnostic? text radius = some fault) :
      fault.location = lexeme.location := by
    rcases lexeme with ⟨pattern, taken, offset, location⟩
    cases pattern with
    | none => exact (Option.some.inj reported) ▸ rfl
    | some pattern => cases reported
  apply (Lexeme.ofTextFrom_places 0 .start text).2.filterMap
  intro earlier later before fault isFault fault' isFault'
  rw [location_eq isFault, location_eq isFault']
  exact before

/-! ## Faults of the grammar -/

namespace Walk

/-- A cursor that was to read a declaration was refused in front of the token at a position, and
this is the token that the diagnostic blames. -/
structure Blames (input : Input) (position : Nat) (diagnostic : Diagnostic) : Prop where
  refused : ∃ start ≤ position, Settles (fun fuel => declaration fuel) input ⟨start, 0⟩
    (.refused diagnostic ⟨position, 0⟩)
  token : ∃ token, input.tokens[position]? = some token ∧ diagnostic.location = token.location

namespace Input

variable (input : Input)

/-- What keeps declarations from being read. -/
def failures : List Failure :=
  (attempts input.limit input.inside).filterMap Attempt.failure?

/-- The position of the token that a failure is about. -/
def positionOf (failure : Failure) : Nat := input.inside.length - failure.rest.length

/-- The token that a failure is about is the next one that was not passed over. -/
theorem getElem?_positionOf {failure : Failure} (suffix : failure.rest <:+ input.inside) :
    input.tokens[input.positionOf failure]? = some (failure.rest.head?.getD input.last) := by
  have next := getElem?_cursorAt suffix 0 0 (Nat.zero_le _)
  rwa [Nat.add_zero, ← List.head?_eq_getElem?] at next

theorem location_report (failure : Failure) :
    (input.report failure).location = (failure.rest.head?.getD input.last).location := by
  rcases failure with ⟨complaint, rest⟩
  cases rest <;> rfl

theorem blames_of_failure {failure : Failure} (isFailure : failure ∈ input.failures) :
    Blames input (input.positionOf failure) (input.report failure) := by
  rcases exists_refusal isFailure with ⟨start, suffix, refused⟩
  have course := (declaration_follows input.limit).course suffix (Nat.zero_add _)
  rw [refused] at course
  have forward := Nat.sub_le_sub_left (failure_suffix refused).length_le input.inside.length
  exact ⟨⟨_, forward, course⟩, _, input.getElem?_positionOf (rest_suffix_of_failure isFailure),
    input.location_report failure⟩

/-- Each failure is about a later token than the one before it. -/
theorem positions_ascend : (input.failures.map input.positionOf).Pairwise (· < ·) := by
  refine List.pairwise_map.mpr ((failures_move_on _ _).imp_of_mem ?_)
  intro earlier later isEarlier _ shorter
  have inside := (rest_suffix_of_failure isEarlier).length_le
  rw [positionOf, positionOf]
  omega

theorem reports_ascend
    (ascend : input.tokens.Pairwise fun first second => first.location.Before second.location) :
    Diagnostic.Ascend (input.failures.map input.report) := by
  have positions := List.pairwise_map.mp input.positions_ascend
  refine List.pairwise_map.mpr (positions.imp_of_mem ?_)
  intro earlier later isEarlier isLater before
  rcases (input.blames_of_failure isEarlier).token with ⟨first, isFirst, firstEq⟩
  rcases (input.blames_of_failure isLater).token with ⟨second, isSecond, secondEq⟩
  rcases List.getElem?_eq_some_iff.mp isFirst with ⟨_, rfl⟩
  rcases List.getElem?_eq_some_iff.mp isSecond with ⟨_, rfl⟩
  rw [firstEq, secondEq]
  exact List.pairwise_iff_getElem.mp ascend _ _ _ _ before

end Input

end Walk

/-! ## The faults of a source text -/

namespace Analysis

/-- The unexpected characters that are reported. -/
def strays (analysis : Analysis) : List Diagnostic :=
  analysis.diagnostics.filter Diagnostic.isLexical

/-- The faults of the grammar that are reported. -/
def refusals (analysis : Analysis) : List Diagnostic :=
  analysis.diagnostics.filter Diagnostic.isGrammatical

/-- What a cursor on the tokens of a source text is given. -/
def input (settings : Settings) (source : String) : Walk.Input where
  tokens := (lexing settings source).tokens
  source := .ofString source
  limit := settings.maxNestingDepth
  radius := settings.contextRadius
  ends := ⟨Lexing.endToken source.toList, List.mem_append_right _ (List.mem_singleton_self _), rfl⟩

theorem parsing_diagnostics (settings : Settings) (source : String) :
    (parsing settings source).diagnostics (.ofString source) settings.contextRadius =
      (input settings source).failures.map (input settings source).report := by
  have reportEq : (input settings source).report = fun failure : Failure =>
      failure.diagnostic (.ofString source) (parsing settings source).endLocation
        settings.maxNestingDepth settings.contextRadius := by
    funext failure
    exact congrArg (failure.diagnostic _ · _ _) (input settings source).endLocation_tokens.symm
  rw [reportEq]
  rfl

/-- The lexical faults are the unexpected characters, and the faults of the grammar are the
reports of what keeps declarations from being read, if there are no unexpected characters. -/
theorem strays_and_refusals (settings : Settings) (source : String) :
    (ofSource settings source).strays = (lexing settings source).diagnostics ∧
      (ofSource settings source).refusals =
        if (lexing settings source).diagnostics = [] then
          (input settings source).failures.map (input settings source).report
        else [] := by
  rw [strays, refusals]
  by_cases clean : (lexing settings source).diagnostics = []
  · rw [diagnostics_of_clean clean, clean, if_pos rfl, ← parsing_diagnostics]
    split
    next searched =>
      rw [searched.1]
      exact Diagnostic.filter_of_semantic Program.kind_of_validate
    next => exact Diagnostic.filter_of_grammatical Parsing.kind_of_diagnostic
  · rw [(ofSource_of_faulty clean).2, if_neg clean]
    exact Diagnostic.filter_of_lexical Lexing.kind_of_diagnostic

/-- The faults of a source text come in the order of the source.  Each fault of the grammar
blames the token in front of which a cursor was refused, no token is blamed twice, and so the
end of the text is blamed at most once. -/
theorem faults_in_source_order (settings : Settings) (source : String) :
    let analysis := ofSource settings source
    Diagnostic.Ascend analysis.strays ∧
      Diagnostic.Ascend analysis.refusals ∧
      (∃ positions : List Nat, positions.Pairwise (· < ·) ∧
        List.Forall₂ (Walk.Blames (input settings source)) positions analysis.refusals) ∧
      (analysis.refusals.map Diagnostic.location).count
        (Lexing.endToken source.toList).location ≤ 1 := by
  intro analysis
  have views := strays_and_refusals settings source
  have ascend : Diagnostic.Ascend analysis.refusals := by
    rw [views.2]
    split
    · exact Walk.Input.reports_ascend _ (Lexing.tokens_ascend _ settings.contextRadius)
    · exact List.Pairwise.nil
  refine ⟨?_, ascend, ?_, ascend.count_le_one _⟩
  · rw [views.1]
    exact Lexing.diagnostics_ascend _ _
  · rw [views.2]
    split
    · refine ⟨_, (input settings source).positions_ascend, ?_⟩
      rw [List.forall₂_map_left_iff, List.forall₂_map_right_iff, List.forall₂_same]
      exact fun failure isFailure => Walk.Input.blames_of_failure _ isFailure
    · exact ⟨[], .nil, .nil⟩

end Analysis

end TwinSwarm
