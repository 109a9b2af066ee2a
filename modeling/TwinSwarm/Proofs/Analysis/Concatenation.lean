import TwinSwarm.Proofs.Analysis
import TwinSwarm.Proofs.Grammar.Relocation
import TwinSwarm.Proofs.Grammar.Sign
import TwinSwarm.Proofs.Lexeme.Concatenation

/-!
# One source text behind another

A source text without diagnostics leaves nothing open, neither a lexeme nor a declaration.
So a source text behind it, on a line of its own, is read as it is read alone, only further
down.
-/

namespace TwinSwarm

open Grammar

/-- A failure is reported alike wherever the tokens stand, apart from the text around it. -/
theorem Grammar.Failure.bare_diagnostic_relocated (move : Location → Location)
    (failure : Failure) (source source' : SourceText) (place : Location) (limit radius : Nat) :
    ((failure.relocated move).diagnostic source (move place) limit radius).bare =
      (failure.diagnostic source' place limit radius).bare.relocated move := by
  simp only [diagnostic, Diagnostic.bare, Diagnostic.relocated, found_relocated,
    location_relocated]
  rfl

/-! ## Behind a program -/

namespace Parsing

section Behind

variable {limit : Nat} {phrase : Phrase Program} {tokens others : List Token}
  {move : Location → Location} (isProgram : IsProgram phrase) (fits : phrase.need ≤ limit)
  (insideEq : beforeEnd tokens =
    phrase.tokens ++ (beforeEnd others).map (Token.relocated move))

include isProgram fits insideEq

/-- Behind a program the same declarations are read as alone, at the moved places. -/
theorem declarations_behind :
    (ofTokens limit tokens).program.declarations =
      phrase.tree.declarations ++
        ((ofTokens limit others).program.relocated move).declarations := by
  have readFirst : (phrase.tree.declarations.map Attempt.read).filterMap Attempt.declaration? =
      phrase.tree.declarations := by
    rw [List.filterMap_map]
    exact List.filterMap_some ..
  simp only [program, ofTokens]
  rw [insideEq, attempts_program_append isProgram fits, List.filterMap_append, readFirst,
    (attempts_relocated move limit (beforeEnd others)).1]
  rfl

/-- Behind a program the same failures happen as alone, at the moved places. -/
theorem failures_behind :
    (ofTokens limit tokens).failures =
      (ofTokens limit others).failures.map (Failure.relocated move) := by
  have noFailure : (phrase.tree.declarations.map Attempt.read).filterMap Attempt.failure? = [] := by
    rw [List.filterMap_map]
    exact List.filterMap_eq_nil_iff.mpr fun _ _ => rfl
  simp only [failures, ofTokens]
  rw [insideEq, attempts_program_append isProgram fits, List.filterMap_append, noFailure,
    (attempts_relocated move limit (beforeEnd others)).2, List.nil_append]

/-- Behind a program the same faults are reported as alone, at the moved places. -/
theorem diagnostics_behind (endEq : Grammar.endLocation tokens = move (Grammar.endLocation others))
    (source source' : SourceText) (radius : Nat) :
    ((ofTokens limit tokens).diagnostics source radius).map Diagnostic.bare =
      (((ofTokens limit others).diagnostics source' radius).map Diagnostic.bare).map
        (Diagnostic.relocated move) := by
  rw [diagnostics_eq_map, diagnostics_eq_map, failures_behind isProgram fits insideEq,
    List.map_map, List.map_map, List.map_map, List.map_map]
  refine List.map_congr_left fun failure _ => ?_
  simp only [Function.comp_apply, ofTokens, endEq]
  exact failure.bare_diagnostic_relocated move source source' _ limit radius

end Behind

end Parsing

/-! ## Behind a source text -/

namespace Analysis

variable {settings : Settings} {first second : String}

/-- A source text without diagnostics has no lexical faults. -/
theorem lexing_clean (accepted : (ofSource settings first).diagnostics = []) :
    (lexing settings first).diagnostics = [] := by
  by_contra faulty
  rw [lexing] at faulty
  simp only [ofSource, if_neg faulty] at accepted
  exact faulty accepted

/-- If no gaps are searched, the diagnostics are the lexical faults, or the faults of the
grammar if there are none. -/
theorem diagnostics_of_unvalidated (unvalidated : settings.validate = false)
    (clean : (lexing settings second).diagnostics = []) :
    (ofSource settings second).diagnostics =
      (parsing settings second).diagnostics (.ofString second) settings.contextRadius := by
  rw [diagnostics_of_clean clean, if_neg]
  simp [unvalidated]

/-- After lexical faults nothing is read, and nothing else is reported. -/
theorem ofSource_of_faulty (faulty : (lexing settings second).diagnostics ≠ []) :
    (ofSource settings second).program = .empty ∧
      (ofSource settings second).diagnostics = (lexing settings second).diagnostics := by
  rw [lexing] at faulty ⊢
  simp only [ofSource, if_neg faulty, and_self]

/-- Behind an accepted source text and a line feed the tokens and the lexical faults of a source
text are what they are alone, only further down. -/
theorem lexing_behind (accepted : (ofSource settings first).diagnostics = []) (second : String) :
    let whole := lexing settings (first ++ "\n" ++ second)
    let alone := lexing settings second
    let move := Location.down (1 + first.toList.count '\n')
    beforeEnd whole.tokens = beforeEnd (lexing settings first).tokens ++
        (beforeEnd alone.tokens).map (Token.relocated move) ∧
      endLocation whole.tokens = move (endLocation alone.tokens) ∧
      whole.diagnostics.map Diagnostic.bare =
        (alone.diagnostics.map Diagnostic.bare).map (Diagnostic.relocated move) := by
  rcases exists_phrase accepted with ⟨phrase, isProgram, tokensEq, _⟩
  have closed : ∀ slash star, ¬[Token.ofSign "/" slash, Token.ofSign "*" star] <:+:
      beforeEnd (lexing settings first).tokens :=
    fun slash star => tokensEq ▸ isProgram.no_star_behind_sign "/" slash star
  have textEq : (first ++ "\n" ++ second).toList = first.toList ++ '\n' :: second.toList := by
    simp
  simp only [lexing, textEq]
  exact Lexing.ofText_concatenation settings.contextRadius (lexing_clean accepted) closed

/-- If no gaps are searched, a source text behind an accepted one and a line feed is read as it
is read alone, as many lines further down as stand in front of it.  If it has lexical faults,
nothing is read of either. -/
theorem read_alike_behind_accepted (unvalidated : settings.validate = false)
    (accepted : (ofSource settings first).diagnostics = []) (second : String) :
    let whole := ofSource settings (first ++ "\n" ++ second)
    let alone := ofSource settings second
    let move := Location.down (1 + first.toList.count '\n')
    ((lexing settings second).diagnostics = [] →
        whole.program.declarations = (ofSource settings first).program.declarations ++
            (alone.program.relocated move).declarations ∧
          whole.diagnostics.map Diagnostic.bare =
            (alone.diagnostics.map Diagnostic.bare).map (Diagnostic.relocated move)) ∧
      ((lexing settings second).diagnostics ≠ [] →
        whole.program = .empty ∧
          whole.diagnostics.map Diagnostic.bare =
            ((lexing settings second).diagnostics.map Diagnostic.bare).map
              (Diagnostic.relocated move)) := by
  intro whole alone move
  rcases lexing_behind accepted second with ⟨insideEq, endEq, faultsEq⟩
  have cleanIff : (lexing settings (first ++ "\n" ++ second)).diagnostics = [] ↔
      (lexing settings second).diagnostics = [] := by
    rw [← List.map_eq_nil_iff, faultsEq, List.map_eq_nil_iff, List.map_eq_nil_iff]
  constructor
  · intro clean
    -- What was accepted is a whole program, so its reading ends where the second source begins.
    rcases exists_phrase accepted with ⟨phrase, isProgram, tokensEq, fits, treeEq⟩
    rw [← lexing] at tokensEq
    rw [← tokensEq] at insideEq
    have wholeClean := cleanIff.mpr clean
    simp only [whole, alone]
    rw [program_of_clean wholeClean, program_of_clean clean, treeEq,
      diagnostics_of_unvalidated unvalidated wholeClean,
      diagnostics_of_unvalidated unvalidated clean]
    exact ⟨Parsing.declarations_behind isProgram fits insideEq,
      Parsing.diagnostics_behind isProgram fits insideEq endEq _ _ _⟩
  · intro faulty
    rcases ofSource_of_faulty (mt cleanIff.mp faulty) with ⟨programEq, diagnosticsEq⟩
    exact ⟨programEq, diagnosticsEq ▸ faultsEq⟩

/-- No gaps are searched. -/
def unsearched : Settings := { validate := false }

/-- An event and a rule that divides, with a comment at the end. -/
def endedSource : String := "event Start;\nrule R \x7bwhen 8 / x; then \x7b\x7d\x7d // end"

/-- An event and a twin that breaks off. -/
def brokenOffSource : String := "event Next;\n  twin"

/-- An event and a quotation that is not closed. -/
def unclosedSource : String := "event \x22Next;\n"

/-- Both faults are found two lines further down behind the same source. -/
theorem faults_behind_endedSource :
    unsearched.validate = false ∧
      (ofSource unsearched endedSource).diagnostics = [] ∧
      (lexing unsearched brokenOffSource).diagnostics = [] ∧
      (lexing unsearched unclosedSource).diagnostics ≠ [] ∧
      (ofSource unsearched (endedSource ++ "\n" ++ brokenOffSource)).program.declarations.length =
        3 ∧
      (ofSource unsearched (endedSource ++ "\n" ++ brokenOffSource)).diagnostics.map
          Diagnostic.bare =
        [⟨.syntactic, "Expected identifier after 'twin', found end of file", ⟨4, 7⟩, ""⟩] ∧
      (ofSource unsearched (endedSource ++ "\n" ++ unclosedSource)).program = .empty ∧
      (ofSource unsearched (endedSource ++ "\n" ++ unclosedSource)).diagnostics.map
          Diagnostic.bare =
        [⟨.lexical, "Unexpected character: '\x22'", ⟨3, 7⟩, ""⟩] := by
  have accepted : (ofSource unsearched endedSource).diagnostics = [] := by decide +kernel
  have clean : (lexing unsearched brokenOffSource).diagnostics = [] := by decide +kernel
  have faulty : (lexing unsearched unclosedSource).diagnostics ≠ [] := by decide +kernel
  rcases (read_alike_behind_accepted rfl accepted brokenOffSource).1 clean with
    ⟨declarationsEq, brokenOffEq⟩
  rcases (read_alike_behind_accepted rfl accepted unclosedSource).2 faulty with
    ⟨programEq, unclosedEq⟩
  refine ⟨rfl, accepted, clean, faulty, ?_, ?_, programEq, ?_⟩
  · rw [declarationsEq]
    decide +kernel
  · rw [brokenOffEq]
    decide +kernel
  · rw [unclosedEq]
    decide +kernel

end Analysis

end TwinSwarm
