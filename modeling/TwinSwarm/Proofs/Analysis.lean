import TwinSwarm.Analysis
import TwinSwarm.Proofs.Grammar.Location
import TwinSwarm.Proofs.Grammar.Nesting
import TwinSwarm.Proofs.Lexeme
import TwinSwarm.Proofs.Tree.RoundTrip

/-!
# Accepted source texts

A source text without diagnostics has been read as a program.  The program is read back from
its document only if the document is shallow enough, and the limit on the nesting of source
texts does not see to that.
-/

namespace TwinSwarm

open Grammar

namespace Analysis

variable {settings : Settings} {source : String}

/-- Tokens that are read and searched without a diagnostic are read without a fault. -/
theorem faultless_of_ofTokens {text : SourceText} {tokens : List Token}
    (accepted : (ofTokens settings text tokens).diagnostics = []) :
    (Parsing.ofTokens settings.maxNestingDepth tokens).diagnostics text settings.contextRadius =
      [] := by
  by_contra faulty
  rw [ofTokens, if_neg (fun both => faulty both.1)] at accepted
  exact faulty accepted

/-- What is found in a source text. -/
def lexing (settings : Settings) (source : String) : Lexing :=
  Lexing.ofText source.toList settings.contextRadius

/-- What is read from the tokens of a source text. -/
def parsing (settings : Settings) (source : String) : Parsing :=
  Parsing.ofTokens settings.maxNestingDepth (lexing settings source).tokens

section Clean

variable (clean : (lexing settings source).diagnostics = [])

include clean

/-- Without lexical faults the program is what is read from the tokens. -/
theorem program_of_clean :
    (ofSource settings source).program = (parsing settings source).program := by
  rw [lexing] at clean
  simp only [ofSource, if_pos clean, ofTokens]
  split <;> rfl

/-- Without lexical faults the diagnostics are the faults of the grammar, or the gaps if there
are no faults. -/
theorem diagnostics_of_clean :
    let faults :=
      (parsing settings source).diagnostics (.ofString source) settings.contextRadius
    (ofSource settings source).diagnostics =
      if faults = [] ∧ settings.validate then (parsing settings source).program.validate
      else faults := by
  intro faults
  rw [lexing] at clean
  simp only [ofSource, if_pos clean, ofTokens]
  exact apply_ite Analysis.diagnostics _ _ _

end Clean

/-- The program of a source text without diagnostics stands for its tokens and needs no more
nesting than is allowed. -/
theorem exists_phrase (accepted : (ofSource settings source).diagnostics = []) :
    ∃ phrase, IsProgram phrase ∧
      phrase.tokens = beforeEnd (Lexing.ofText source.toList settings.contextRadius).tokens ∧
      phrase.need ≤ settings.maxNestingDepth ∧
      (ofSource settings source).program = phrase.tree := by
  unfold ofSource at accepted ⊢
  by_cases clean : (Lexing.ofText source.toList settings.contextRadius).diagnostics = []
  · simp only [if_pos clean] at accepted ⊢
    rcases Parsing.diagnostics_eq_nil_iff.mp (faultless_of_ofTokens accepted) with
      ⟨phrase, isProgram, tokensEq, fits⟩
    refine ⟨phrase, isProgram, tokensEq, fits, ?_⟩
    rw [← Parsing.program_of_isProgram isProgram tokensEq fits, ofTokens]
    split <;> rfl
  · simp only [if_neg clean] at accepted
    exact absurd accepted clean

/-- The locations of a program fit 64 bits if the source text is shorter than the address space
is large. -/
theorem locations_fit {phrase : Phrase Program} (isProgram : IsProgram phrase) {radius : Nat}
    (tokensEq : phrase.tokens = beforeEnd (Lexing.ofText source.toList radius).tokens)
    (short : source.length < 2 ^ 63) : ∀ location ∈ phrase.tree.locations, location.Fits := by
  intro location isLocation
  rcases List.mem_map.mp (isProgram.covers isLocation) with ⟨token, isToken, rfl⟩
  rw [tokensEq] at isToken
  have within := Lexing.tokens_within source.toList radius token
    (List.takeWhile_subset _ isToken)
  have line := within.line
  have column := within.column
  rw [String.length_toList] at line column
  constructor
  · omega
  · omega

/-- The program of a source text without diagnostics is read back from its document exactly if
the document does not nest deeper than any document may and each of its doubles is read as
itself.  The limit on the nesting of source texts bounds the nesting of documents, but only by
a square: the chains of the six levels of operators add up, and again inside each bracket. -/
theorem accepted_is_read_back_iff (short : source.length < 2 ^ 63)
    (accepted : (ofSource settings source).diagnostics = []) :
    let program := (ofSource settings source).program
    (Program.ofJsonText program.jsonText = .ok program ↔
        program.toJson.nesting ≤ Json.Reading.levelLimit ∧
          ∀ value, .float value ∈ program.toJson.leaves → value.reread? = some value) ∧
      program.toJson.nesting ≤
        3 * settings.maxNestingDepth ^ 2 + 6 * settings.maxNestingDepth + 9 := by
  intro program
  rcases exists_phrase accepted with ⟨phrase, isProgram, tokensEq, fits, treeEq⟩
  have locationsFit : ∀ location ∈ program.locations, location.Fits := by
    rw [show program = phrase.tree from treeEq]
    exact locations_fit isProgram tokensEq short
  constructor
  · exact Program.ofJsonText_jsonText_iff (Program.wholesFit locationsFit)
  · rw [show program = phrase.tree from treeEq]
    exact isProgram.nesting_le fits

/-- A rule whose condition nests thirty-two arrays, to which thirty products and then thirty sums
are linked.  None of them alone exceeds the limit. -/
def steepSource : String :=
  let repeated (count : Nat) (text : String) := String.join (List.replicate count text)
  "rule R\x7bwhen " ++ repeated 32 "[" ++ "x" ++ repeated 32 "]" ++ repeated 30 "*x" ++
    repeated 30 "+x" ++ ";then\x7by=x;\x7d\x7d"

theorem steepSource_toList : steepSource.toList = "rule R\x7bwhen ".toList ++
    (List.replicate 32 "[").flatMap String.toList ++ "x".toList ++
    (List.replicate 32 "]").flatMap String.toList ++
    (List.replicate 30 "*x").flatMap String.toList ++
    (List.replicate 30 "+x").flatMap String.toList ++ ";then\x7by=x;\x7d\x7d".toList := by
  unfold steepSource
  simp only [String.toList_append]
  simp only [String.toList_join]

theorem steepSource_is_not_read_back :
    (ofSource .default steepSource).diagnostics = [] ∧
      Program.ofJsonText (ofSource .default steepSource).program.jsonText ≠
        .ok (ofSource .default steepSource).program := by
  have steep : (ofSource .default steepSource).diagnostics = [] ∧
      Json.Reading.levelLimit < (ofSource .default steepSource).program.toJson.nesting := by
    rw [ofSource, steepSource_toList]
    decide +kernel
  have short : steepSource.length < 2 ^ 63 := by
    rw [← String.length_toList, steepSource_toList]
    decide +kernel
  rcases steep with ⟨accepted, deep⟩
  refine ⟨accepted, ?_⟩
  intro isRead
  have shallow := ((accepted_is_read_back_iff short accepted).1.mp isRead).1
  exact absurd deep (Nat.not_lt_of_le shallow)

end Analysis

end TwinSwarm
