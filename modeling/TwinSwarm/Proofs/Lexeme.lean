import TwinSwarm.Lexeme
import TwinSwarm.Grammar.Program

/-!
# The places of tokens

The tokens of a source text stand at places that follow each other strictly, so no two
tokens stand at one place.  No place lies further out than the text is long.
-/

namespace TwinSwarm

namespace Location

/-- One place comes before another. -/
def Before (first second : Location) : Prop :=
  first.line < second.line ∨ first.line = second.line ∧ first.column < second.column

theorem Before.trans {first second third : Location} (left : first.Before second)
    (right : second.Before third) : first.Before third := by
  simp only [Before] at left right ⊢
  omega

theorem Before.ne {first second : Location} (before : first.Before second) : first ≠ second := by
  rintro rfl
  simp [Before] at before

theorem before_after (location : Location) (character : Char) :
    location.Before (location.after character) := by
  rw [after]
  split
  · exact .inl (Nat.lt_succ_self _)
  · exact .inr ⟨rfl, Nat.lt_succ_self _⟩

theorem before_afterText (location : Location) {text : List Char} (nonempty : text ≠ []) :
    location.Before (location.afterText text) := by
  induction text generalizing location with
  | nil => exact absurd rfl nonempty
  | cons character rest ih =>
      rw [afterText_cons]
      by_cases ends : rest = []
      · rw [ends, afterText_nil]
        exact location.before_after character
      · exact (location.before_after character).trans (ih _ ends)

/-- The line and the column of a place are at most so large. -/
structure Within (bound : Nat) (location : Location) : Prop where
  line : location.line ≤ bound
  column : location.column ≤ bound

theorem Within.after {bound : Nat} {location : Location} (within : location.Within bound)
    (character : Char) : (location.after character).Within (bound + 1) := by
  have line := within.line
  have column := within.column
  rw [Location.after]
  split
  · exact ⟨by simp; omega, by simp⟩
  · exact ⟨by simp; omega, by simp; omega⟩

theorem Within.afterText {bound : Nat} {location : Location} (within : location.Within bound)
    (text : List Char) : (location.afterText text).Within (bound + text.length) := by
  induction text generalizing location bound with
  | nil => exact within
  | cons character rest ih =>
      rw [afterText_cons, List.length_cons, Nat.add_comm rest.length, ← Nat.add_assoc]
      exact ih (within.after character)

theorem Within.mono {bound larger : Nat} {location : Location} (within : location.Within bound)
    (atMost : bound ≤ larger) : location.Within larger :=
  ⟨Nat.le_trans within.line atMost, Nat.le_trans within.column atMost⟩

end Location

namespace Lexeme

open Location

/-- A first lexeme is cut off, and the text behind it is cut in the same way. -/
theorem ofTextFrom_cons (offset : Nat) (location : Location) (character : Char)
    (rest : List Char) :
    ∃ pattern taken behind offset', rest = taken ++ behind ∧
      ofTextFrom offset location (character :: rest) =
        ⟨pattern, character :: taken, offset, location⟩ ::
          ofTextFrom offset' (location.afterText (character :: taken)) behind := by
  rw [ofTextFrom]
  cases Pattern.first? (character :: rest) with
  | none => exact ⟨_, _, _, _, (List.take_append_drop 0 rest).symm, rfl⟩
  | some found => exact ⟨_, _, _, _, (List.take_append_drop (found.2 - 1) rest).symm, rfl⟩

/-- Each lexeme stands before those that follow it and before the end of the text, and not
before the start of the text. -/
theorem ofTextFrom_places (offset : Nat) (location : Location) (text : List Char) :
    (∀ lexeme ∈ ofTextFrom offset location text,
      (location = lexeme.location ∨ location.Before lexeme.location) ∧
        lexeme.location.Before (location.afterText text)) ∧
      (ofTextFrom offset location text).Pairwise fun first second =>
        first.location.Before second.location := by
  induction lengthEq : text.length using Nat.strongRecOn generalizing text offset location with
  | ind length ih =>
      cases text with
      | nil => simp [ofTextFrom]
      | cons character rest =>
          rcases ofTextFrom_cons offset location character rest with
            ⟨pattern, taken, behind, offset', rfl, lexemesEq⟩
          have shorter : behind.length < length := by
            rw [← lengthEq, List.length_cons, List.length_append]
            omega
          have moved : location.Before (location.afterText (character :: taken)) :=
            before_afterText location (by simp)
          have wholeEq : location.afterText (character :: (taken ++ behind)) =
              (location.afterText (character :: taken)).afterText behind := by
            rw [← afterText_append, List.cons_append]
          rcases ih _ shorter offset' (location.afterText (character :: taken)) behind rfl with
            ⟨places, ascending⟩
          have later : ∀ lexeme ∈
              ofTextFrom offset' (location.afterText (character :: taken)) behind,
              location.Before lexeme.location := by
            intro lexeme member
            rcases (places lexeme member).1 with same | before
            · exact same ▸ moved
            · exact moved.trans before
          rw [lexemesEq, wholeEq]
          constructor
          · intro lexeme member
            rcases List.mem_cons.mp member with rfl | isLater
            · refine ⟨.inl rfl, ?_⟩
              rw [← wholeEq]
              exact before_afterText location (by simp)
            · exact ⟨.inr (later lexeme isLater), (places lexeme isLater).2⟩
          · exact List.pairwise_cons.mpr ⟨later, ascending⟩

/-- No lexeme stands further out than the text before it is long. -/
theorem ofTextFrom_within {offset bound : Nat} {location : Location} {text : List Char}
    (within : location.Within bound) :
    ∀ lexeme ∈ ofTextFrom offset location text, lexeme.location.Within (bound + text.length) := by
  induction lengthEq : text.length using Nat.strongRecOn
    generalizing text offset location bound with
  | ind length ih =>
      cases text with
      | nil => simp [ofTextFrom]
      | cons character rest =>
          rcases ofTextFrom_cons offset location character rest with
            ⟨pattern, taken, behind, offset', rfl, lexemesEq⟩
          rw [lexemesEq]
          intro lexeme member
          rw [List.length_cons, List.length_append] at lengthEq
          rcases List.mem_cons.mp member with rfl | isLater
          · exact within.mono (Nat.le_add_right _ _)
          · have deeper := ih behind.length (by omega) (within.afterText (character :: taken)) rfl
              lexeme isLater
            rw [List.length_cons] at deeper
            exact deeper.mono (by omega)

/-- A lexeme's token has its text and its place.  Its kind is looked up for a word, and is
otherwise the kind that the lexeme's pattern gives. -/
theorem token?_cases {lexeme : Lexeme} {token : Token} (isToken : lexeme.token? = some token) :
    ∃ kind, token = ⟨kind, String.ofList lexeme.text, lexeme.location⟩ ∧
      (kind = Token.kindOfWord (String.ofList lexeme.text) ∨
        ∃ pattern : Pattern, pattern.kind? = some kind) := by
  simp only [token?] at isToken
  split at isToken
  · cases isToken
  · split at isToken
    · cases isToken
    · exact ⟨_, (Option.some.inj isToken).symm, .inl rfl⟩
    next ofPattern => exact ⟨_, (Option.some.inj isToken).symm, .inr ⟨_, ofPattern⟩⟩

theorem location_of_token? {lexeme : Lexeme} {token : Token}
    (isToken : lexeme.token? = some token) : token.location = lexeme.location := by
  rcases token?_cases isToken with ⟨kind, rfl, -⟩
  rfl

theorem text_of_token? {lexeme : Lexeme} {token : Token} (isToken : lexeme.token? = some token) :
    token.text = String.ofList lexeme.text := by
  rcases token?_cases isToken with ⟨kind, rfl, -⟩
  rfl

end Lexeme

namespace Lexing

open Lexeme Location

/-- The tokens of a source text stand at places that follow each other. -/
theorem tokens_ascend (text : List Char) (radius : Nat) :
    (ofText text radius).tokens.Pairwise fun first second =>
      first.location.Before second.location := by
  rcases ofTextFrom_places 0 .start text with ⟨places, ascending⟩
  simp only [ofText]
  rw [List.pairwise_append]
  refine ⟨?_, List.pairwise_singleton _ _, ?_⟩
  · apply ascending.filterMap
    intro first second before token isToken token' isToken'
    rw [location_of_token? isToken, location_of_token? isToken']
    exact before
  · intro token member last isLast
    rcases List.mem_filterMap.mp member with ⟨lexeme, isLexeme, isToken⟩
    rw [List.mem_singleton.mp isLast, location_of_token? isToken]
    exact (places lexeme isLexeme).2

/-- No two tokens of a source text stand at one place. -/
theorem places_nodup (text : List Char) (radius : Nat) :
    ((Grammar.beforeEnd (ofText text radius).tokens).map Token.location).Nodup := by
  have front : (Grammar.beforeEnd (ofText text radius).tokens).Sublist
      (ofText text radius).tokens := List.takeWhile_sublist _
  have ascending := (tokens_ascend text radius).sublist front
  exact List.pairwise_map.mpr (ascending.imp fun before => before.ne)

/-- No token of a source text stands further out than the text is long. -/
theorem tokens_within (text : List Char) (radius : Nat) :
    ∀ token ∈ (ofText text radius).tokens, token.location.Within (1 + text.length) := by
  have starts : Location.start.Within 1 := ⟨Nat.le_refl 1, Nat.le_refl 1⟩
  intro token member
  rcases List.mem_append.mp member with isInside | isLast
  · rcases List.mem_filterMap.mp isInside with ⟨lexeme, isLexeme, isToken⟩
    rw [location_of_token? isToken]
    exact ofTextFrom_within starts lexeme isLexeme
  · rw [List.mem_singleton.mp isLast]
    exact starts.afterText text

end Lexing

end TwinSwarm
