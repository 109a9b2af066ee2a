import TwinSwarm.Proofs.Analysis
import TwinSwarm.Proofs.Grammar.Relocation
import TwinSwarm.Proofs.Lexeme.Fidelity

/-!
# Layout does not matter

Two source texts whose tokens agree in kind and text are read alike, however their tokens
are spread over lines and columns.  The programs differ in locations only, and so do the
diagnostics: those about tokens are about the same tokens.
-/

namespace TwinSwarm

open Grammar

/-- Nowhere, whatever the place. -/
def Location.erase (_ : Location) : Location := .nowhere

/-- The program without its locations. -/
def Program.erased (program : Program) : Program := program.relocated Location.erase

/-- Kind and text of a token, which are what the grammar looks at. -/
def Token.content (token : Token) : Token.Kind × String := (token.kind, token.text)

/-- Diagnostics of two source texts say the same, and if they are about tokens, they are about
tokens of one index. -/
structure Diagnostic.Alike (left right : List Token) (first second : Diagnostic) : Prop where
  kind : first.kind = second.kind
  message : first.message = second.message
  place : first.kind = .syntactic ∨ first.kind = .nestingTooDeep →
    ∃ (index : Nat) (token token' : Token),
      left[index]? = some token ∧ right[index]? = some token' ∧
        first.location = token.location ∧ second.location = token'.location

/-! ## The place of a failure -/

/-- The tokens of a text with the end behind them. -/
theorem Lexing.tokens_eq (text : List Char) (radius : Nat) :
    (ofText text radius).tokens = beforeEnd (ofText text radius).tokens ++ [endToken text] := by
  rw [beforeEnd_tokens]
  rfl

/-- A failure is about the token that has as many tokens behind it as are left. -/
theorem Lexing.token_of_failure (text : List Char) (radius : Nat) {failure : Failure}
    (isInside : failure.rest <:+ beforeEnd (ofText text radius).tokens) :
    ∃ token, (ofText text radius).tokens[
        (beforeEnd (ofText text radius).tokens).length - failure.rest.length]? = some token ∧
      failure.location (endLocation (ofText text radius).tokens) = token.location := by
  rcases isInside with ⟨before, insideEq⟩
  have index : (beforeEnd (ofText text radius).tokens).length - failure.rest.length =
      before.length := by
    rw [← insideEq, List.length_append]
    omega
  have tokensEq : (ofText text radius).tokens = before ++ (failure.rest ++ [endToken text]) := by
    rw [tokens_eq, ← insideEq, List.append_assoc]
  rw [index, endLocation_tokens, Failure.location]
  cases rest : failure.rest with
  | nil => exact ⟨endToken text, by simp [tokensEq, rest], rfl⟩
  | cons token others => exact ⟨token, by simp [tokensEq, rest], rfl⟩

section Layout

variable {left right : String} {radius : Nat}
  (same : (Lexing.ofText left.toList radius).tokens.map Token.content =
    (Lexing.ofText right.toList radius).tokens.map Token.content)

include same

/-- Tokens of the same kinds and texts differ in their places only. -/
theorem Lexing.erased_tokens_eq :
    (ofText left.toList radius).tokens.map (Token.relocated Location.erase) =
      (ofText right.toList radius).tokens.map (Token.relocated Location.erase) := by
  have erased := congrArg (List.map fun content => Token.mk content.1 content.2 .nowhere) same
  rw [List.map_map, List.map_map] at erased
  exact erased

theorem Lexing.length_beforeEnd_eq :
    (beforeEnd (ofText left.toList radius).tokens).length =
      (beforeEnd (ofText right.toList radius).tokens).length := by
  have lengths := congrArg List.length same
  rw [List.length_map, List.length_map, tokens_eq left.toList, tokens_eq right.toList,
    List.length_append, List.length_append] at lengths
  exact Nat.add_right_cancel lengths

/-- Failures that differ in places only are reported alike. -/
theorem Grammar.Failure.diagnostics_alike {first second : Failure} (limit : Nat)
    (sameErased : first.relocated Location.erase = second.relocated Location.erase)
    (isLeft : first.rest <:+ beforeEnd (Lexing.ofText left.toList radius).tokens)
    (isRight : second.rest <:+ beforeEnd (Lexing.ofText right.toList radius).tokens) :
    Diagnostic.Alike (Lexing.ofText left.toList radius).tokens
      (Lexing.ofText right.toList radius).tokens
      (first.diagnostic (.ofString left) (endLocation (Lexing.ofText left.toList radius).tokens)
        limit radius)
      (second.diagnostic (.ofString right)
        (endLocation (Lexing.ofText right.toList radius).tokens) limit radius) := by
  have complaintEq : first.complaint = second.complaint :=
    (congrArg Failure.complaint sameErased :)
  have foundEq : first.found = second.found := by
    rw [← found_relocated Location.erase first, sameErased, found_relocated]
  -- As many tokens are left of both, so both failures stand at tokens of one index.
  have restEq : first.rest.length = second.rest.length := by
    have lengths := congrArg (fun failure : Failure => failure.rest.length) sameErased
    simpa [Failure.relocated] using lengths
  constructor
  case kind => exact congrArg Complaint.kind complaintEq
  case message => simp only [Failure.diagnostic, complaintEq, foundEq]
  case place =>
    intro _
    rcases Lexing.token_of_failure left.toList radius isLeft with ⟨token, isToken, placeEq⟩
    rcases Lexing.token_of_failure right.toList radius isRight with ⟨token', isToken', placeEq'⟩
    rw [← restEq, ← Lexing.length_beforeEnd_eq same] at isToken'
    exact ⟨_, token, token', isToken, isToken', placeEq, placeEq'⟩

end Layout

/-- Gaps that differ in places only are reported alike. -/
theorem Gap.diagnostics_alike {first second : Gap} (leftTokens rightTokens : List Token)
    (sameErased : first.relocated Location.erase = second.relocated Location.erase) :
    Diagnostic.Alike leftTokens rightTokens first.diagnostic second.diagnostic := by
  have ownerEq : first.owner = second.owner := (congrArg Gap.owner sameErased :)
  have missingEq : first.missing = second.missing := (congrArg Gap.missing sameErased :)
  constructor
  case kind => rfl
  case message => rw [diagnostic, diagnostic, ownerEq, missingEq]
  case place =>
    rintro (isSyntactic | isTooDeep)
    · cases isSyntactic
    · cases isTooDeep

/-- Where the reports of matching items are alike, so are the lists of reports. -/
theorem Diagnostic.alike_of_map_eq {α : Type} {left right : List α} {onItem : α → α}
    {leftReport rightReport : α → Diagnostic} {leftTokens rightTokens : List Token}
    (mapEq : left.map onItem = right.map onItem)
    (alike : ∀ first ∈ left, ∀ second ∈ right, onItem first = onItem second →
      Alike leftTokens rightTokens (leftReport first) (rightReport second)) :
    (left.map leftReport).length = (right.map rightReport).length ∧
      ∀ (index : Nat) (first second : Diagnostic),
        (left.map leftReport)[index]? = some first →
        (right.map rightReport)[index]? = some second →
        Alike leftTokens rightTokens first second := by
  have lengths := congrArg List.length mapEq
  rw [List.length_map, List.length_map] at lengths
  refine ⟨by rw [List.length_map, List.length_map, lengths], ?_⟩
  intro index first second isFirst isSecond
  rw [List.getElem?_map, Option.map_eq_some_iff] at isFirst isSecond
  rcases isFirst with ⟨item, isItem, rfl⟩
  rcases isSecond with ⟨item', isItem', rfl⟩
  have sameItem := congrArg (·[index]?) mapEq
  simp only [List.getElem?_map, isItem, isItem', Option.map_some, Option.some.injEq] at sameItem
  exact alike item (List.mem_of_getElem? isItem) item' (List.mem_of_getElem? isItem') sameItem

/-- The layout of a source text does not matter.  If two source texts without lexical faults
have tokens of the same kinds and texts, their programs differ in locations only, and their
diagnostics say the same one by one, those about tokens at tokens of the same index. -/
theorem Analysis.layout_does_not_matter (settings : Settings) {left right : String}
    (leftClean : (lexing settings left).diagnostics = [])
    (rightClean : (lexing settings right).diagnostics = [])
    (same : (lexing settings left).tokens.map Token.content =
      (lexing settings right).tokens.map Token.content) :
    (ofSource settings left).program.erased = (ofSource settings right).program.erased ∧
      (ofSource settings left).diagnostics.length =
        (ofSource settings right).diagnostics.length ∧
      ∀ (index : Nat) (first second : Diagnostic),
        (ofSource settings left).diagnostics[index]? = some first →
        (ofSource settings right).diagnostics[index]? = some second →
        Diagnostic.Alike (lexing settings left).tokens (lexing settings right).tokens first
          second := by
  -- Tokens of the same kinds and texts are equal once their places are erased, and reading commutes
  -- with the erasure.
  have programsEq :
      (parsing settings left).program.erased = (parsing settings right).program.erased := by
    rw [Program.erased, Program.erased, parsing, parsing, ← Parsing.program_relocated,
      ← Parsing.program_relocated, lexing, lexing, Lexing.erased_tokens_eq same]
  have failuresEq :
      (parsing settings left).failures.map (Failure.relocated Location.erase) =
        (parsing settings right).failures.map (Failure.relocated Location.erase) := by
    rw [parsing, parsing, ← Parsing.failures_relocated, ← Parsing.failures_relocated, lexing,
      lexing, Lexing.erased_tokens_eq same]
  have gapsEq : (parsing settings left).program.gaps.map (Gap.relocated Location.erase) =
      (parsing settings right).program.gaps.map (Gap.relocated Location.erase) := by
    rw [← Program.gaps_relocated, ← Program.gaps_relocated]
    exact congrArg Program.gaps programsEq
  have failureless :
      (parsing settings left).failures = [] ↔ (parsing settings right).failures = [] := by
    have lengths := congrArg List.length failuresEq
    rw [List.length_map, List.length_map] at lengths
    rw [← List.length_eq_zero_iff, lengths, List.length_eq_zero_iff]
  rw [program_of_clean leftClean, program_of_clean rightClean, diagnostics_of_clean leftClean,
    diagnostics_of_clean rightClean]
  simp only [Parsing.diagnostics_eq_map, List.map_eq_nil_iff, failureless]
  refine ⟨programsEq, ?_⟩
  by_cases searched : (parsing settings right).failures = [] ∧ settings.validate
  · rw [if_pos searched, if_pos searched]
    exact Diagnostic.alike_of_map_eq gapsEq fun _ _ _ _ => Gap.diagnostics_alike _ _
  · rw [if_neg searched, if_neg searched]
    refine Diagnostic.alike_of_map_eq failuresEq fun first isFirst second isSecond sameErased => ?_
    exact Failure.diagnostics_alike same settings.maxNestingDepth sameErased
      (rest_suffix_of_failure isFirst) (rest_suffix_of_failure isSecond)

/-- A twin that breaks off before an event, on one line. -/
def crampedSource : String := "twin A event B;rule C\x7b"

/-- The same tokens on lines of their own, with a comment between them. -/
def spreadSource : String := "twin A // broken\n  event B ;\n\n  rule\n    C \x7b\n"

/-- Both sources are read alike. -/
theorem Analysis.spreadSource_is_read_alike :
    (lexing .default crampedSource).diagnostics = [] ∧
      (lexing .default spreadSource).diagnostics = [] ∧
      (ofSource .default crampedSource).diagnostics.length = 2 ∧
      (ofSource .default spreadSource).diagnostics.length = 2 ∧
      (ofSource .default crampedSource).program.erased =
        (ofSource .default spreadSource).program.erased := by
  have crampedClean : (lexing .default crampedSource).diagnostics = [] := by decide +kernel
  have spreadClean : (lexing .default spreadSource).diagnostics = [] := by decide +kernel
  have same : (lexing .default crampedSource).tokens.map Token.content =
      (lexing .default spreadSource).tokens.map Token.content := by decide +kernel
  have faulty : (ofSource .default crampedSource).diagnostics.length = 2 := by decide +kernel
  rcases layout_does_not_matter .default crampedClean spreadClean same with
    ⟨programsEq, lengthsEq, _⟩
  exact ⟨crampedClean, spreadClean, faulty, lengthsEq ▸ faulty, programsEq⟩

end TwinSwarm
