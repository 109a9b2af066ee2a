import TwinSwarm.Proofs.Analysis.Concatenation
import TwinSwarm.Proofs.Walk.Program

/-!
# Presentation does not matter

How much of a source text is shown around a fault, and whether a program is searched for gaps,
is chosen for the reader.  Neither choice changes what is read, or which faults are found and
where.  The text of the source itself is looked at only to cut it into tokens and to show it:
a cursor on the tokens carries it along, but never goes another way because of it.
-/

namespace TwinSwarm

open Grammar

/-! ## The text around a fault -/

/-- The unexpected characters of a text do not depend on how much of it is shown. -/
theorem Lexing.bare_diagnostics_eq (text : List Char) (radius radius' : Nat) :
    (ofText text radius).diagnostics.map Diagnostic.bare =
      (ofText text radius').diagnostics.map Diagnostic.bare := by
  simp only [ofText, Lexeme.ofText, Lexeme.map_bare_filterMap]

/-- The faults of the grammar depend on the tokens only, apart from the text around them. -/
theorem Parsing.bare_diagnostics_eq (parsing : Parsing) (source source' : SourceText)
    (radius radius' : Nat) :
    (parsing.diagnostics source radius).map Diagnostic.bare =
      (parsing.diagnostics source' radius').map Diagnostic.bare := by
  rw [diagnostics_eq_map, diagnostics_eq_map, List.map_map, List.map_map]
  exact List.map_congr_left fun failure _ => rfl

namespace Diagnostic

variable {faults others : List Diagnostic} (alike : faults.map bare = others.map bare)

include alike

/-- Faults that differ only in the text around them are equally many. -/
theorem length_eq_of_bare : faults.length = others.length := by
  simpa using congrArg List.length alike

theorem eq_nil_iff_of_bare : faults = [] ↔ others = [] := by
  rw [← List.map_eq_nil_iff, alike, List.map_eq_nil_iff]

end Diagnostic

/-! ## Kinds -/

theorem Lexing.kind_of_diagnostic {text : List Char} {radius : Nat} :
    ∀ fault ∈ (ofText text radius).diagnostics, fault.kind = .lexical := by
  intro fault isFault
  rcases List.mem_filterMap.mp isFault with ⟨⟨pattern, text, offset, location⟩, -, reported⟩
  cases pattern with
  | none => exact (Option.some.inj reported) ▸ rfl
  | some pattern => cases reported

theorem Grammar.Complaint.kind_eq (complaint : Complaint) :
    complaint.kind = .syntactic ∨ complaint.kind = .nestingTooDeep := by
  cases complaint with
  | nestedTooDeeply => exact .inr rfl
  | _ => exact .inl rfl

theorem Parsing.kind_of_diagnostic {parsing : Parsing} {source : SourceText} {radius : Nat} :
    ∀ fault ∈ parsing.diagnostics source radius,
      fault.kind = .syntactic ∨ fault.kind = .nestingTooDeep := by
  rw [diagnostics_eq_map]
  intro fault isFault
  rcases List.mem_map.mp isFault with ⟨failure, -, rfl⟩
  exact failure.complaint.kind_eq

theorem Program.kind_of_validate {program : Program} :
    ∀ fault ∈ program.validate, fault.kind = .semantic := by
  intro fault isFault
  rcases List.mem_map.mp isFault with ⟨gap, -, rfl⟩
  rfl

/-! ## Two runs -/

namespace Walk

/-- Reading the same tokens on a cursor beside two source texts ends alike, apart from the text
around the diagnostics. -/
theorem program_settles_alike (tokens : List Token) (source source' : SourceText)
    (limit radius radius' : Nat) :
    ∃ read faults faults' ending,
      Settles program (Input.ofTokens tokens source limit radius) .start
          (.found (read, faults) ending) ∧
        Settles program (Input.ofTokens tokens source' limit radius') .start
          (.found (read, faults') ending) ∧
        faults.map Diagnostic.bare = faults'.map Diagnostic.bare :=
  ⟨_, _, _, _, program_settles tokens source limit radius,
    program_settles tokens source' limit radius', Parsing.bare_diagnostics_eq ..⟩

end Walk

namespace Analysis

/-- The analysis without the text around its diagnostics. -/
def bare (analysis : Analysis) : Analysis :=
  { analysis with diagnostics := analysis.diagnostics.map Diagnostic.bare }

/-- The tokens are read and searched alike, whatever text is shown around the faults. -/
theorem bare_ofTokens (settings : Settings) (source source' : SourceText) (tokens : List Token)
    (radius : Nat) :
    (ofTokens { settings with contextRadius := radius } source' tokens).bare =
      (ofTokens settings source tokens).bare := by
  have alike := (Parsing.ofTokens settings.maxNestingDepth tokens).bare_diagnostics_eq source'
    source radius settings.contextRadius
  simp only [ofTokens, Diagnostic.eq_nil_iff_of_bare alike, Diagnostic.length_eq_of_bare alike]
  split
  · rfl
  · simp only [bare, alike]

/-- A source text is analysed alike, however much of it is shown. -/
theorem bare_ofSource (settings : Settings) (source : String) (radius : Nat) :
    (ofSource { settings with contextRadius := radius } source).bare =
      (ofSource settings source).bare := by
  have alike := Lexing.bare_diagnostics_eq source.toList radius settings.contextRadius
  have readAlike := bare_ofTokens settings (.ofString source) (.ofString source)
    (Lexing.ofText source.toList radius).tokens radius
  simp only [ofSource, Diagnostic.eq_nil_iff_of_bare alike, Diagnostic.length_eq_of_bare alike]
  split
  · simp only [bare, Analysis.mk.injEq] at readAlike ⊢
    rcases readAlike with ⟨programEq, diagnosticsEq, stepsEq⟩
    exact ⟨programEq, diagnosticsEq, congrArg _ stepsEq⟩
  · simp only [bare, alike]
    rfl

/-- Whether gaps are searched does not matter to the program. -/
theorem program_of_validating (settings : Settings) (source : String) (validate : Bool) :
    (ofSource { settings with validate } source).program = (ofSource settings source).program := by
  by_cases clean : (lexing settings source).diagnostics = []
  · have sameClean : (lexing { settings with validate } source).diagnostics = [] := clean
    exact (program_of_clean sameClean).trans (program_of_clean clean).symm
  · have sameFaulty : (lexing { settings with validate } source).diagnostics ≠ [] := clean
    rw [(ofSource_of_faulty sameFaulty).1, (ofSource_of_faulty clean).1]

/-- A search for gaps shows in the diagnostics only if there are none without it. -/
theorem diagnostics_of_searched (settings : Settings) (source : String) :
    let unsearched := ofSource { settings with validate := false } source
    (ofSource { settings with validate := true } source).diagnostics =
      if unsearched.diagnostics = [] then unsearched.program.validate
      else unsearched.diagnostics := by
  intro result
  let searched : Settings := { settings with validate := true }
  let unsearched : Settings := { settings with validate := false }
  by_cases clean : (lexing settings source).diagnostics = []
  · have searchedClean : (lexing searched source).diagnostics = [] := clean
    have unsearchedClean : (lexing unsearched source).diagnostics = [] := clean
    have faultsEq : result.diagnostics = (parsing settings source).diagnostics
        (.ofString source) settings.contextRadius :=
      diagnostics_of_unvalidated rfl unsearchedClean
    have programEq : result.program = (parsing settings source).program :=
      program_of_clean unsearchedClean
    rw [faultsEq, programEq]
    exact (diagnostics_of_clean searchedClean).trans (if_congr (and_iff_left rfl) rfl rfl)
  · have searchedFaulty : (lexing searched source).diagnostics ≠ [] := clean
    have unsearchedFaulty : (lexing unsearched source).diagnostics ≠ [] := clean
    have faultsEq : result.diagnostics = (lexing settings source).diagnostics :=
      (ofSource_of_faulty unsearchedFaulty).2
    rw [faultsEq, if_neg clean]
    exact (ofSource_of_faulty searchedFaulty).2

/-- Without a search for gaps the diagnostics are all lexical, or all about the grammar. -/
theorem kinds_of_unvalidated {settings : Settings} {source : String}
    (unvalidated : settings.validate = false) :
    (∀ fault ∈ (ofSource settings source).diagnostics, fault.kind = .lexical) ∨
      ∀ fault ∈ (ofSource settings source).diagnostics,
        fault.kind = .syntactic ∨ fault.kind = .nestingTooDeep := by
  by_cases clean : (lexing settings source).diagnostics = []
  · rw [diagnostics_of_unvalidated unvalidated clean]
    exact .inr Parsing.kind_of_diagnostic
  · rw [(ofSource_of_faulty clean).2]
    exact .inl Lexing.kind_of_diagnostic

/-- Neither the radius nor the search for gaps has an influence on what is read.  With another
radius the diagnostics differ in the text around them at most.  With a search for gaps they are
the same, unless there are none without it; then they are the gaps of the program.  The stages
never mix: without a search the diagnostics are all lexical or all about the grammar, and gaps
are reported as nothing else.  On a cursor, the same tokens are read alike beside any two source
texts, apart from the text around the diagnostics. -/
theorem presentation_does_not_matter (settings : Settings) (source : String) :
    let analysed := ofSource settings source
    let unsearched := ofSource { settings with validate := false } source
    let searched := ofSource { settings with validate := true } source
    (∀ radius, (ofSource { settings with contextRadius := radius } source).bare = analysed.bare) ∧
      (searched.program = unsearched.program ∧
        searched.diagnostics =
          (if unsearched.diagnostics = [] then unsearched.program.validate
          else unsearched.diagnostics) ∧
        ((∀ fault ∈ unsearched.diagnostics, fault.kind = .lexical) ∨
          ∀ fault ∈ unsearched.diagnostics,
            fault.kind = .syntactic ∨ fault.kind = .nestingTooDeep) ∧
        ∀ fault ∈ unsearched.program.validate, fault.kind = .semantic) ∧
      ∀ tokens text text' limit radius radius', ∃ read faults faults' ending,
        Walk.Settles Walk.program (.ofTokens tokens text limit radius) .start
            (.found (read, faults) ending) ∧
          Walk.Settles Walk.program (.ofTokens tokens text' limit radius') .start
            (.found (read, faults') ending) ∧
          faults.map Diagnostic.bare = faults'.map Diagnostic.bare := by
  intro analysed unsearched searched
  refine ⟨bare_ofSource settings source, ⟨?_, ?_, ?_, ?_⟩, Walk.program_settles_alike⟩
  case refine_1 =>
    exact (program_of_validating settings source true).trans
      (program_of_validating settings source false).symm
  case refine_2 => exact diagnostics_of_searched settings source
  case refine_3 => exact kinds_of_unvalidated rfl
  case refine_4 => exact Program.kind_of_validate

/-- A rule that does nothing. -/
def idleRuleSource : String := "rule R {when x; then {}}"

/-- The gap of the rule is reported only if gaps are searched, and as nothing but a gap. -/
theorem idleRuleSource_is_searched :
    (ofSource unsearched idleRuleSource).diagnostics = [] ∧
      (ofSource .default idleRuleSource).diagnostics.map Diagnostic.bare =
        [⟨.semantic, "rule_declaration 'R' missing actions", ⟨1, 1⟩, ""⟩] ∧
      ∀ fault ∈ (ofSource .default idleRuleSource).diagnostics, fault.kind = .semantic := by
  have faultless : (ofSource unsearched idleRuleSource).diagnostics = [] := by decide +kernel
  have presented := presentation_does_not_matter .default idleRuleSource
  have gapsEq : (ofSource .default idleRuleSource).diagnostics =
      (ofSource unsearched idleRuleSource).program.validate :=
    presented.2.1.2.1.trans (if_pos faultless)
  rw [gapsEq]
  refine ⟨faultless, ?_, presented.2.1.2.2.2⟩
  decide +kernel

end Analysis

end TwinSwarm
