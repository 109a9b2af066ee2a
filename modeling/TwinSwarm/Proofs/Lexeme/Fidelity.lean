import TwinSwarm.Proofs.Grammar.EndMark
import TwinSwarm.Proofs.Lexeme
import TwinSwarm.Proofs.Lexeme.Pattern
import TwinSwarm.Proofs.Text.Offset

/-!
# Nothing is lost between a text and its tokens

The lexemes of a text tile it: each begins where the one before it ends, and at each place
the first pattern that matches decides what is taken.  So tokens and faults can be traced
back to the characters they come from, by the index that diagnostics use.
-/

namespace TwinSwarm

/-- The piece that is cut off in front of a text: what the first pattern that matches takes,
or one character where none matches. -/
inductive Pattern.Cuts : Option Pattern → List Char → List Char → Prop where
  | matched {pattern : Pattern} {taken behind : List Char}
      (found : first? (taken ++ behind) = some (pattern, taken.length)) :
      Cuts (some pattern) taken behind
  | unmatched {character : Char} {behind : List Char}
      (lost : first? (character :: behind) = none) : Cuts none [character] behind

theorem Pattern.Cuts.ne_nil {pattern : Option Pattern} {taken behind : List Char}
    (cuts : Cuts pattern taken behind) : taken ≠ [] := by
  cases cuts with
  | matched found => exact List.ne_nil_of_length_pos (length?_bounds (first?_eq_some found)).1
  | unmatched => exact List.cons_ne_nil _ _

namespace Lexeme

/-- The lexemes tile a text that begins at an offset and a location. -/
inductive Tiles : Nat → Location → List Char → List Lexeme → Prop where
  | nil (offset : Nat) (location : Location) : Tiles offset location [] []
  | cons {offset : Nat} {location : Location} {pattern : Option Pattern}
      {taken behind : List Char} {others : List Lexeme}
      (cuts : Pattern.Cuts pattern taken behind)
      (tiles : Tiles (offset + taken.length) (location.afterText taken) behind others) :
      Tiles offset location (taken ++ behind) (⟨pattern, taken, offset, location⟩ :: others)

/-- The first lexeme is what is cut off in front, and the text behind it is cut in the same
way. -/
theorem ofTextFrom_of_cuts {pattern : Option Pattern} {taken behind : List Char}
    (cuts : Pattern.Cuts pattern taken behind) (offset : Nat) (location : Location) :
    ofTextFrom offset location (taken ++ behind) =
      ⟨pattern, taken, offset, location⟩ ::
        ofTextFrom (offset + taken.length) (location.afterText taken) behind := by
  cases taken with
  | nil => exact absurd rfl cuts.ne_nil
  | cons character rest =>
      rw [List.cons_append, ofTextFrom]
      cases cuts with
      | matched found =>
          rw [List.cons_append] at found
          simp [found]
      | unmatched lost => simp [lost]

/-- Something is cut off in front of every text that is not empty. -/
theorem exists_cuts (character : Char) (rest : List Char) :
    ∃ pattern taken behind, character :: rest = taken ++ behind ∧
      Pattern.Cuts pattern taken behind := by
  cases found : Pattern.first? (character :: rest) with
  | none => exact ⟨none, [character], rest, rfl, .unmatched found⟩
  | some cut =>
      rcases cut with ⟨pattern, length⟩
      have bounds := Pattern.length?_bounds (Pattern.first?_eq_some found)
      refine ⟨some pattern, (character :: rest).take length, (character :: rest).drop length,
        (List.take_append_drop ..).symm, .matched ?_⟩
      rw [List.take_append_drop, List.length_take_of_le bounds.2, found]

/-- Induction on the pieces that are cut off in front of a text. -/
@[elab_as_elim]
theorem cutsInduction {motive : List Char → Prop} (nil : motive [])
    (cut : ∀ pattern taken behind, Pattern.Cuts pattern taken behind → motive behind →
      motive (taken ++ behind)) (text : List Char) : motive text := by
  induction size : text.length using Nat.strongRecOn generalizing text with
  | ind size ih =>
      cases text with
      | nil => exact nil
      | cons character rest =>
          rcases exists_cuts character rest with ⟨pattern, taken, behind, textEq, cuts⟩
          have positive := List.length_pos_iff.mpr cuts.ne_nil
          rw [textEq, List.length_append] at size
          rw [textEq]
          exact cut pattern taken behind cuts (ih behind.length (by omega) behind rfl)

theorem ofTextFrom_tiles (offset : Nat) (location : Location) (text : List Char) :
    Tiles offset location text (ofTextFrom offset location text) := by
  induction text using cutsInduction generalizing offset location with
  | nil =>
      rw [ofTextFrom]
      exact .nil offset location
  | cut pattern taken behind cuts ih =>
      rw [ofTextFrom_of_cuts cuts]
      exact .cons cuts (ih _ _)

namespace Tiles

variable {offset : Nat} {location : Location} {text : List Char} {lexemes : List Lexeme}

theorem flatMap_text (tiles : Tiles offset location text lexemes) :
    lexemes.flatMap Lexeme.text = text := by
  induction tiles with
  | nil => rfl
  | cons cuts tiles ih => rw [List.flatMap_cons, ih]

/-- A lexeme stands where the texts of those before it end, and its text is what is cut off
there. -/
theorem split (tiles : Tiles offset location text lexemes) {before behind : List Lexeme}
    {lexeme : Lexeme} (splitEq : lexemes = before ++ lexeme :: behind) :
    lexeme.offset = offset + (before.flatMap Lexeme.text).length ∧
      lexeme.location = location.afterText (before.flatMap Lexeme.text) ∧
      Pattern.Cuts lexeme.pattern lexeme.text (behind.flatMap Lexeme.text) := by
  induction tiles generalizing before with
  | nil => simp at splitEq
  | cons cuts tiles ih =>
      cases before with
      | nil =>
          rw [List.nil_append, List.cons.injEq] at splitEq
          rcases splitEq with ⟨rfl, rfl⟩
          rw [tiles.flatMap_text]
          exact ⟨rfl, rfl, cuts⟩
      | cons first between =>
          rw [List.cons_append, List.cons.injEq] at splitEq
          rcases splitEq with ⟨rfl, restEq⟩
          rcases ih restEq with ⟨offsetEq, locationEq, cuts⟩
          rw [List.flatMap_cons, List.length_append, Location.afterText_append, ← Nat.add_assoc]
          exact ⟨offsetEq, locationEq, cuts⟩

end Tiles

/-! ## Tokens and faults of a lexeme -/

/-- The kinds that no lexeme gives. -/
def outlandishKinds : List Token.Kind := [.endOfFile, .whitespace, .comment, .unknown]

theorem kind_of_token? {lexeme : Lexeme} {token : Token} (isToken : lexeme.token? = some token) :
    token.kind ∉ outlandishKinds := by
  have ofWord : ∀ word, Token.kindOfWord word ∉ outlandishKinds := by
    intro word
    rw [Token.kindOfWord]
    split
    · decide
    · split <;> decide
  have ofPattern : ∀ pattern kind, Pattern.kind? pattern = some kind → kind ∉ outlandishKinds := by
    intro pattern kind isKind
    cases pattern <;> cases isKind <;> decide
  rcases token?_cases isToken with ⟨kind, rfl, rfl | ⟨pattern, isKind⟩⟩
  · exact ofWord _
  · exact ofPattern pattern kind isKind

/-- Blanks, comments and faults give no token, and everything else does. -/
theorem token?_eq_none_iff (lexeme : Lexeme) :
    lexeme.token? = none ↔
      lexeme.pattern ∈ [none, some .blanks, some .lineComment, some .blockComment] := by
  rw [token?]
  cases lexeme.pattern with
  | none => simp
  | some pattern => cases pattern <;> simp [Pattern.kind?]

/-- The faults among some lexemes stand where the lexemes stand that no pattern matches. -/
theorem locations_of_diagnostic? (source : List Char) (radius : Nat) (lexemes : List Lexeme) :
    (lexemes.filterMap (diagnostic? source radius)).map Diagnostic.location =
      (lexemes.filter fun lexeme => lexeme.pattern.isNone).map Lexeme.location := by
  induction lexemes with
  | nil => rfl
  | cons first others ih =>
      rw [List.filterMap_cons, List.filter_cons, diagnostic?]
      cases first.pattern with
      | none => simp [ih]
      | some pattern => simp [ih]

end Lexeme

namespace Lexing

/-! ## The end of a text -/

/-- No lexeme gives a token that marks the end. -/
theorem inside_not_end {text : List Char} {token : Token}
    (isInside : token ∈ (Lexeme.ofText text).filterMap Lexeme.token?) :
    token.kind ≠ .endOfFile := by
  rcases List.mem_filterMap.mp isInside with ⟨lexeme, _, isToken⟩
  have isKnown := Lexeme.kind_of_token? isToken
  rintro isEnd
  exact isKnown (isEnd ▸ List.mem_cons_self)

theorem beforeEnd_tokens (text : List Char) (radius : Nat) :
    Grammar.beforeEnd (ofText text radius).tokens =
      (Lexeme.ofText text).filterMap Lexeme.token? := by
  rw [ofText, Grammar.beforeEnd_append fun _ => inside_not_end]
  exact List.append_nil _

theorem endLocation_tokens (text : List Char) (radius : Nat) :
    Grammar.endLocation (ofText text radius).tokens = Location.start.afterText text := by
  rw [ofText, Grammar.endLocation_append (fun _ => inside_not_end) (List.cons_ne_nil _ _)]
  rfl

/-! ## The whole text -/

/-- How lexemes, tokens and faults account for a source text. -/
structure Accounts (source : String) (lexemes : List Lexeme) (lexing : Lexing) : Prop where
  /-- The lexemes make up the whole text. -/
  whole : lexemes.flatMap Lexeme.text = source.toList
  /-- Each lexeme begins where the one before it ends, at the place that the index of the
  lines leads to, and is what the first pattern that matches takes there; where none
  matches, it is a single character. -/
  lexeme : ∀ before lexeme behind, lexemes = before ++ lexeme :: behind →
    lexeme.text ≠ [] ∧
      lexeme.offset = (before.flatMap Lexeme.text).length ∧
      (SourceText.ofString source).offsetOf lexeme.location = lexeme.offset ∧
      Pattern.Cuts lexeme.pattern lexeme.text (behind.flatMap Lexeme.text)
  /-- The tokens are those of the lexemes that are neither blanks, comments nor faults,
  and one that marks the end. -/
  tokens : ∃ last : Token,
    lexing.tokens = lexemes.filterMap Lexeme.token? ++ [last] ∧ last.kind = .endOfFile ∧
      (SourceText.ofString source).offsetOf last.location = source.toList.length
  /-- What gives no token is blank, a comment or a fault. -/
  skipped : ∀ lexeme ∈ lexemes, lexeme.token? = none ↔
    lexeme.pattern ∈ [none, some .blanks, some .lineComment, some .blockComment]
  /-- A token is a slice of the text that starts where its place leads to. -/
  slice : ∀ token ∈ lexing.tokens,
    token.text.toList = (source.toList.drop
      ((SourceText.ofString source).offsetOf token.location)).take token.text.toList.length
  /-- No token stands at or before the place of an earlier one. -/
  ascending : lexing.tokens.Pairwise fun first second => first.location.Before second.location
  /-- Before the end there are only tokens that the grammar knows. -/
  known : ∀ token ∈ lexing.tokens.dropLast,
    token.kind ≠ .endOfFile ∧ token.kind ≠ .whitespace ∧ token.kind ≠ .comment ∧
      token.kind ≠ .unknown
  /-- The faults are the lexemes that no pattern matches, in order. -/
  faults : lexing.diagnostics.map
      (fun fault => (SourceText.ofString source).offsetOf fault.location) =
    (lexemes.filter fun lexeme => lexeme.pattern.isNone).map Lexeme.offset
  /-- A fault names the character that its place leads to. -/
  character : ∀ fault ∈ lexing.diagnostics, ∃ character,
    source.toList[(SourceText.ofString source).offsetOf fault.location]? = some character ∧
      fault.kind = .lexical ∧
      fault.message = "Unexpected character: '" ++ String.ofList [character] ++ "'"

section

variable (source : String)

/-- The lexemes of a text at the places where they stand. -/
theorem ofText_split {before behind : List Lexeme} {lexeme : Lexeme}
    (splitEq : Lexeme.ofText source.toList = before ++ lexeme :: behind) :
    source.toList = before.flatMap Lexeme.text ++ (lexeme.text ++ behind.flatMap Lexeme.text) ∧
      lexeme.offset = (before.flatMap Lexeme.text).length ∧
      (SourceText.ofString source).offsetOf lexeme.location = lexeme.offset ∧
      Pattern.Cuts lexeme.pattern lexeme.text (behind.flatMap Lexeme.text) := by
  have tiles := Lexeme.ofTextFrom_tiles 0 .start source.toList
  have textEq := tiles.flatMap_text
  rcases tiles.split splitEq with ⟨offsetEq, locationEq, cuts⟩
  rw [Nat.zero_add] at offsetEq
  rw [Lexeme.ofText] at splitEq
  rw [splitEq, List.flatMap_append, List.flatMap_cons] at textEq
  refine ⟨textEq.symm, offsetEq, ?_, cuts⟩
  rw [locationEq, SourceText.offsetOf_afterText textEq.symm, offsetEq]

theorem offsetOf_location {lexeme : Lexeme} (isLexeme : lexeme ∈ Lexeme.ofText source.toList) :
    (SourceText.ofString source).offsetOf lexeme.location = lexeme.offset := by
  rcases List.append_of_mem isLexeme with ⟨before, behind, splitEq⟩
  exact (ofText_split source splitEq).2.2.1

/-- The text of a lexeme stands at its offset. -/
theorem drop_offset {lexeme : Lexeme} (isLexeme : lexeme ∈ Lexeme.ofText source.toList) :
    ∃ behind, source.toList.drop lexeme.offset = lexeme.text ++ behind ∧
      Pattern.Cuts lexeme.pattern lexeme.text behind := by
  rcases List.append_of_mem isLexeme with ⟨before, behind, splitEq⟩
  rcases ofText_split source splitEq with ⟨textEq, offsetEq, _, cuts⟩
  refine ⟨_, ?_, cuts⟩
  rw [textEq, offsetEq, List.drop_left]

end

/-- Nothing is lost between a text and its tokens: the lexemes take up the whole text, and
every token and every fault can be traced back to the characters it comes from. -/
theorem ofText_accounts (source : String) (radius : Nat) :
    Accounts source (Lexeme.ofText source.toList) (ofText source.toList radius) := by
  have endOffset : (SourceText.ofString source).offsetOf (endToken source.toList).location =
      source.toList.length :=
    SourceText.offsetOf_afterText (List.append_nil source.toList).symm
  constructor
  case whole => exact (Lexeme.ofTextFrom_tiles 0 .start source.toList).flatMap_text
  case lexeme =>
    intro before lexeme behind splitEq
    rcases ofText_split source splitEq with ⟨_, offsetEq, placeEq, cuts⟩
    exact ⟨cuts.ne_nil, offsetEq, placeEq, cuts⟩
  case tokens => exact ⟨endToken source.toList, rfl, rfl, endOffset⟩
  case slice =>
    intro token isMember
    -- The token at the end is the only one that comes from no lexeme; its slice is empty.
    rcases List.mem_append.mp isMember with isInside | isLast
    · rcases List.mem_filterMap.mp isInside with ⟨lexeme, isLexeme, isToken⟩
      rcases drop_offset source isLexeme with ⟨behind, textEq, _⟩
      rw [Lexeme.location_of_token? isToken, offsetOf_location source isLexeme, textEq,
        Lexeme.text_of_token? isToken, String.toList_ofList, List.take_left]
    · rw [List.mem_singleton.mp isLast]
      rfl
  case ascending => exact tokens_ascend source.toList radius
  case known =>
    intro token isMember
    simp only [ofText, List.dropLast_concat] at isMember
    rcases List.mem_filterMap.mp isMember with ⟨lexeme, _, isToken⟩
    have isKnown := Lexeme.kind_of_token? isToken
    simpa [Lexeme.outlandishKinds] using isKnown
  case skipped => exact fun lexeme _ => lexeme.token?_eq_none_iff
  case faults =>
    have offsets : ∀ lexeme ∈ (Lexeme.ofText source.toList).filter (·.pattern.isNone),
        (SourceText.ofString source).offsetOf lexeme.location = lexeme.offset :=
      fun lexeme isFault => offsetOf_location source (List.mem_filter.mp isFault).1
    rw [← Function.comp_def, ← List.map_map, ofText, Lexeme.locations_of_diagnostic?,
      List.map_map]
    exact List.map_congr_left offsets
  case character =>
    intro fault isMember
    rcases List.mem_filterMap.mp isMember with
      ⟨⟨pattern, text, offset, location⟩, isLexeme, isFault⟩
    rcases drop_offset source isLexeme with ⟨behind, textEq, cuts⟩
    cases cuts with
    | matched => cases isFault
    | @unmatched character =>
        cases isFault
        refine ⟨character, ?_, rfl, rfl⟩
        rw [offsetOf_location source isLexeme, ← List.head?_drop, textEq]
        rfl

end Lexing

end TwinSwarm
