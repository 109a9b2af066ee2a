import TwinSwarm.Proofs.Analysis.Blame
import TwinSwarm.Proofs.Text.Excerpt

/-!
# The caret points at the culprit

An unexpected character knows its offset, while a fault of the grammar knows the place of the
token that it blames, and the index of the lines leads from there to an offset.  Either way the
caret of the excerpt stands below the unexpected character, below the first character of the
token, or behind all that is shown if the end of the text is blamed.
-/

namespace TwinSwarm

open Grammar

/-- Line ends and tabs are blank. -/
theorem Text.isBlank_of_mem_flattened {character : Char} (isFlattened : character ∈ flattened) :
    isBlank character = true := by
  simp only [flattened, List.mem_cons, List.not_mem_nil, or_false] at isFlattened
  rcases isFlattened with rfl | rfl | rfl <;> rfl

namespace Pattern

/-- What is not cut off as blanks begins with a character that is shown as it is. -/
theorem Cuts.plain {pattern : Option Pattern} {character : Char} {rest behind : List Char}
    (cuts : Cuts pattern (character :: rest) behind) (notBlanks : pattern ≠ some .blanks) :
    character ∉ Text.flattened := by
  intro isFlattened
  have isBlank := Text.isBlank_of_mem_flattened isFlattened
  cases cuts with
  | matched found =>
      rw [List.cons_append, first?_of_blank _ isBlank] at found
      exact notBlanks (congrArg (Option.map Prod.fst) found).symm
  | unmatched lost =>
      rw [first?_of_blank _ isBlank] at lost
      cases lost

end Pattern

namespace Lexing

/-- The token begins at an offset of a source text: a lexeme there gives it, or it marks the
end. -/
inductive BeginsAt (source : String) : Token → Nat → Prop where
  | lexeme {lexeme : Lexeme} {token : Token} :
      lexeme ∈ Lexeme.ofText source.toList → lexeme.token? = some token →
      BeginsAt source token lexeme.offset
  | last : BeginsAt source (endToken source.toList) source.toList.length

variable {source : String} {token : Token} {offset : Nat}

/-- The place of a token leads to the offset where it begins. -/
theorem exists_beginsAt {radius : Nat} (isToken : token ∈ (ofText source.toList radius).tokens) :
    BeginsAt source token ((SourceText.ofString source).offsetOf token.location) := by
  rcases List.mem_append.mp isToken with isInside | isLast
  · rcases List.mem_filterMap.mp isInside with ⟨lexeme, isLexeme, gives⟩
    rw [Lexeme.location_of_token? gives, offsetOf_location source isLexeme]
    exact .lexeme isLexeme gives
  · have endOffset : (SourceText.ofString source).offsetOf (endToken source.toList).location =
        source.toList.length :=
      SourceText.offsetOf_afterText (List.append_nil source.toList).symm
    rw [List.mem_singleton.mp isLast, endOffset]
    exact .last

/-- At the offset of a lexeme stands its first character, which is plain unless the lexeme is
blank. -/
theorem exists_first {lexeme : Lexeme} (isLexeme : lexeme ∈ Lexeme.ofText source.toList)
    (notBlanks : lexeme.pattern ≠ some .blanks) :
    ∃ first rest, lexeme.text = first :: rest ∧ source.toList[lexeme.offset]? = some first ∧
      first ∉ Text.flattened := by
  rcases drop_offset source isLexeme with ⟨behind, textEq, cuts⟩
  rcases List.exists_cons_of_ne_nil cuts.ne_nil with ⟨first, rest, consEq⟩
  rw [consEq] at textEq cuts
  refine ⟨first, rest, consEq, ?_, cuts.plain notBlanks⟩
  rw [← List.head?_drop, textEq]
  rfl

/-- The caret in a column below what is shown points at a token: at its first character or, if
it marks the end, behind all that is shown. -/
inductive PointsAt (shown : List Char) (column : Nat) (token : Token) : Prop where
  | first {character : Char} {rest : List Char} :
      token.kind ≠ .endOfFile → token.text.toList = character :: rest →
      shown[column]? = some character → PointsAt shown column token
  | last : token.kind = .endOfFile → column = shown.length → PointsAt shown column token

/-- The excerpt around the offset of a token has a caret that points at the token. -/
theorem BeginsAt.exists_shown (begins : BeginsAt source token offset) {radius : Nat}
    (positive : 1 ≤ radius) :
    ∃ shown column,
      Text.Shows source.toList offset radius shown column
          (Text.excerpt source.toList offset radius) ∧
        PointsAt shown column token := by
  cases begins with
  | @lexeme lexeme _ isLexeme gives =>
      have notBlanks : lexeme.pattern ≠ some .blanks := by
        intro isBlanks
        have none := lexeme.token?_eq_none_iff.mpr (by simp [isBlanks])
        rw [gives] at none
        cases none
      rcases exists_first isLexeme notBlanks with ⟨first, rest, textEq, isHere, isPlain⟩
      rcases Text.exists_shown positive isHere isPlain with ⟨shown, column, shows, points⟩
      have notEnd : token.kind ≠ .endOfFile :=
        fun isEnd => Lexeme.kind_of_token? gives (isEnd ▸ List.mem_cons_self)
      have spelled : token.text.toList = first :: rest := by
        rw [Lexeme.text_of_token? gives, String.toList_ofList, textEq]
      exact ⟨shown, column, shows, .first notEnd spelled points⟩
  | last =>
      have shows := Text.excerpt_shows (Nat.le_refl source.toList.length) radius
      exact ⟨_, _, shows, .last rfl shows.column_at_end⟩

end Lexing

namespace Analysis

open Lexing

/-- Below the report of an unexpected character the caret points at this character. -/
theorem exists_shown_of_stray {settings : Settings} {source : String}
    (positive : 1 ≤ settings.contextRadius) {stray : Diagnostic}
    (isStray : stray ∈ (ofSource settings source).strays) :
    ∃ offset character shown column,
      ⟨none, [character], offset, stray.location⟩ ∈ Lexeme.ofText source.toList ∧
        Text.Shows source.toList offset settings.contextRadius shown column stray.context ∧
        shown[column]? = some character := by
  rw [(strays_and_refusals settings source).1] at isStray
  rcases List.mem_filterMap.mp isStray with
    ⟨⟨pattern, text, offset, location⟩, isLexeme, reported⟩
  rcases drop_offset source isLexeme with ⟨behind, textEq, cuts⟩
  cases cuts with
  | matched => cases reported
  | @unmatched character =>
      rcases exists_first isLexeme (by simp) with ⟨first, rest, consEq, isHere, isPlain⟩
      cases consEq
      rcases Text.exists_shown positive isHere isPlain with ⟨shown, column, shows, points⟩
      cases reported
      exact ⟨offset, character, shown, column, isLexeme, shows, points⟩

/-- Below the report of a fault of the grammar the caret points at the token that is blamed. -/
theorem exists_shown_of_refusal {settings : Settings} {source : String}
    (positive : 1 ≤ settings.contextRadius) {refusal : Diagnostic}
    (isRefusal : refusal ∈ (ofSource settings source).refusals) :
    ∃ position token offset shown column,
      Walk.Blames (input settings source) position refusal ∧
        (lexing settings source).tokens[position]? = some token ∧
        BeginsAt source token offset ∧
        Text.Shows source.toList offset settings.contextRadius shown column refusal.context ∧
        PointsAt shown column token := by
  have isReport :
      refusal ∈ (input settings source).failures.map (input settings source).report := by
    rw [(strays_and_refusals settings source).2] at isRefusal
    split at isRefusal
    · exact isRefusal
    · cases isRefusal
  rcases List.mem_map.mp isReport with ⟨failure, isFailure, rfl⟩
  have blames := (input settings source).blames_of_failure isFailure
  rcases blames.token with ⟨token, isNext, locationEq⟩
  have isToken : token ∈ (lexing settings source).tokens := List.mem_of_getElem? isNext
  have begins := exists_beginsAt isToken
  rcases begins.exists_shown positive with ⟨shown, column, shows, points⟩
  rw [← locationEq] at begins shows
  exact ⟨_, token, _, shown, column, blames, isNext, begins, shows, points⟩

/-- The caret points at the culprit.  Below each reported fault stands an excerpt, with a caret
below the unexpected character or below the first character of the token that is blamed, or
behind all that is shown if the end of the text is blamed. -/
theorem caret_points_at_culprit (settings : Settings) (source : String)
    (positive : 1 ≤ settings.contextRadius) :
    let analysis := ofSource settings source
    let radius := settings.contextRadius
    (∀ stray ∈ analysis.strays, ∃ offset character shown column,
      ⟨none, [character], offset, stray.location⟩ ∈ Lexeme.ofText source.toList ∧
        Text.Shows source.toList offset radius shown column stray.context ∧
        shown[column]? = some character) ∧
      ∀ refusal ∈ analysis.refusals, ∃ position token offset shown column,
        Walk.Blames (input settings source) position refusal ∧
          (lexing settings source).tokens[position]? = some token ∧
          BeginsAt source token offset ∧
          Text.Shows source.toList offset radius shown column refusal.context ∧
          PointsAt shown column token := by
  intro analysis radius
  constructor
  · intro stray isStray
    exact exists_shown_of_stray positive isStray
  · intro refusal isRefusal
    exact exists_shown_of_refusal positive isRefusal

/-- Settings that show six characters on either side. -/
def narrow : Settings := { contextRadius := 6 }

/-- A rule without a condition, with a line end and a tab near the fault. -/
def conditionlessSource : String := "rule R \x7b\n\twhen ;\n\x7d"

/-- The rule is refused at the semicolon, and what is left of it at the brace. -/
theorem caret_at_semicolon_and_brace :
    1 ≤ narrow.contextRadius ∧
      (ofSource narrow conditionlessSource).refusals.map Diagnostic.context =
        [" when ; \x7d\n      ^", "hen ; \x7d\n      ^"] ∧
      ∀ refusal ∈ (ofSource narrow conditionlessSource).refusals,
        ∃ token offset shown column,
          BeginsAt conditionlessSource token offset ∧
            Text.Shows conditionlessSource.toList offset 6 shown column refusal.context ∧
            PointsAt shown column token := by
  have positive : 1 ≤ narrow.contextRadius := by decide
  refine ⟨positive, by decide +kernel, ?_⟩
  intro refusal isRefusal
  rcases (caret_points_at_culprit narrow conditionlessSource positive).2 refusal isRefusal with
    ⟨_, token, offset, shown, column, _, _, begins, shows, points⟩
  exact ⟨token, offset, shown, column, begins, shows, points⟩

end Analysis

end TwinSwarm
