import TwinSwarm.Proofs.Lexeme.Spacing

/-!
# Blanking out

Unexpected characters and comments can be blanked out: the text then has no faults, and its
tokens are the same and stand at the same places.  A blanked text adds nothing behind a token,
since it goes on with the same characters or with blanks.
-/

namespace TwinSwarm

namespace Pattern

/-- A text is another one in which some characters have become blanks. -/
def Fades (text faded : List Char) : Prop :=
  List.Forall₂ (fun character other => other = character ∨ Text.isBlank other = true) text faded

namespace Fades

variable {text faded : List Char} (fades : Fades text faded)

include fades

/-- A character that is not blank was there before, and so was what stands behind it, but for
blanks. -/
theorem exists_cons {character : Char} {rest : List Char} (fadedEq : faded = character :: rest)
    (notBlank : Text.isBlank character = false) :
    ∃ others, text = character :: others ∧ Fades others rest := by
  subst fadedEq
  cases fades with
  | cons isFirst others =>
      rcases isFirst with rfl | blank
      · exact ⟨_, rfl, others⟩
      · rw [notBlank] at blank
        cases blank

/-- What stands behind some characters was there before, but for blanks. -/
theorem exists_append {front rest : List Char} (fadedEq : faded = front ++ rest) :
    ∃ before others, text = before ++ others ∧ Fades others rest := by
  subst fadedEq
  exact ⟨_, _, (List.take_append_drop front.length text).symm, List.forall₂_drop_append _ _ _ fades⟩

theorem tamer : Tamer text faded := by
  constructor
  case next =>
    intro character isNext
    rcases List.head?_eq_some_iff.mp isNext with ⟨rest, fadedEq⟩
    cases blank : Text.isBlank character with
    | true => exact .inl rfl
    | false =>
        rcases fades.exists_cons fadedEq blank with ⟨others, rfl, _⟩
        exact .inr rfl
  case fraction =>
    intro digit rest isDigit fadedEq
    rcases fades.exists_cons fadedEq (by decide) with ⟨others, rfl, fadesOthers⟩
    have notBlank := isBlank_of_isDigit (isDigit_iff.mpr isDigit)
    rcases fadesOthers.exists_cons rfl notBlank with ⟨further, rfl, _⟩
    exact ⟨further, rfl⟩
  case comment =>
    intro body later fadedEq
    rcases fades.exists_cons fadedEq (by decide) with ⟨others, rfl, fadesOthers⟩
    rcases fadesOthers.exists_append rfl with ⟨before, closing, rfl, fadesClosing⟩
    rcases fadesClosing.exists_cons rfl (by decide) with ⟨slash, rfl, fadesSlash⟩
    rcases fadesSlash.exists_cons rfl (by decide) with ⟨further, rfl, _⟩
    exact ⟨before, further, rfl⟩

end Fades

theorem Fades.refl (text : List Char) : Fades text text :=
  List.forall₂_same.mpr fun _ _ => .inl rfl

/-! ## Pieces that are blanked out -/

/-- A space, but line feeds stay. -/
def blankOut (character : Char) : Char :=
  if character = '\n' then '\n' else ' '

/-- What is left of a piece of a text: an unexpected character is blanked out, and so is a
comment but for its line feeds. -/
def blanked (pattern : Option Pattern) (text : List Char) : List Char :=
  match pattern with
  | none => text.map fun _ => ' '
  | some .lineComment | some .blockComment => text.map blankOut
  | some _ => text

theorem isBlank_blankOut (character : Char) : Text.isBlank (blankOut character) = true := by
  rw [blankOut]
  split <;> decide

theorem afterText_map_blankOut (location : Location) (text : List Char) :
    location.afterText (text.map blankOut) = location.afterText text := by
  induction text generalizing location with
  | nil => rfl
  | cons character rest ih =>
      rw [List.map_cons, Location.afterText_cons, Location.afterText_cons, ih]
      congr 1
      simp only [Location.after, blankOut]
      by_cases isLineFeed : character = '\n' <;> simp [isLineFeed]

theorem fades_map_blankOut (text : List Char) : Fades text (text.map blankOut) :=
  List.forall₂_map_right_iff.mpr
    (List.forall₂_same.mpr fun character _ => .inr (isBlank_blankOut character))

namespace Cuts

variable {pattern : Option Pattern} {taken behind : List Char} (cuts : Cuts pattern taken behind)

include cuts

/-- A piece stays if it gives a token or is blank.  Any other piece gives no token and is blanked
out. -/
theorem blanked_cases (offset : Nat) (location : Location) :
    blanked pattern taken = taken ∧
        ((Lexeme.token? ⟨pattern, taken, offset, location⟩).isSome = true ∨
          pattern = some .blanks ∧ ∀ character ∈ taken, Text.isBlank character = true) ∨
      blanked pattern taken = taken.map blankOut ∧
        pattern ∈ [none, some .lineComment, some .blockComment] := by
  cases cuts with
  | @unmatched character _ lost =>
      refine .inr ⟨?_, List.mem_cons_self⟩
      have notLineFeed : character ≠ '\n' := by
        rintro rfl
        rw [first?_of_blank _ (by decide)] at lost
        cases lost
      simp [blanked, blankOut, notLineFeed]
  | @matched pattern _ _ found =>
      cases pattern with
      | lineComment | blockComment => exact .inr ⟨rfl, by decide⟩
      | blanks =>
          rcases first?_eq_length_iff.mp found with ⟨takes, _⟩
          cases takes with
          | blanks _ inside _ => exact .inl ⟨rfl, .inr ⟨rfl, inside⟩⟩
      | word | decimal | integer | doubleQuoted | singleQuoted | operator | punctuation =>
          exact .inl ⟨rfl, .inl rfl⟩

theorem fades : Fades taken (blanked pattern taken) := by
  rcases cuts.blanked_cases 0 .start with ⟨same, _⟩ | ⟨blankedEq, _⟩
  · rw [same]
    exact .refl taken
  · rw [blankedEq]
    exact fades_map_blankOut taken

theorem afterText_blanked (location : Location) :
    location.afterText (blanked pattern taken) = location.afterText taken := by
  rcases cuts.blanked_cases 0 .start with ⟨same, _⟩ | ⟨blankedEq, _⟩
  · rw [same]
  · rw [blankedEq, afterText_map_blankOut]

/-- A piece that gives a token stays, and of any other piece nothing but blanks is left. -/
theorem blanked_token_or_blank (offset : Nat) (location : Location) :
    blanked pattern taken = taken ∧
        (Lexeme.token? ⟨pattern, taken, offset, location⟩).isSome = true ∨
      (∀ character ∈ blanked pattern taken, Text.isBlank character = true) ∧
        pattern ∈ [none, some .blanks, some .lineComment, some .blockComment] := by
  rcases cuts.blanked_cases offset location with
    ⟨same, isToken | ⟨rfl, blank⟩⟩ | ⟨blankedEq, isLost⟩
  · exact .inl ⟨same, isToken⟩
  · exact .inr ⟨blank, by decide⟩
  · refine .inr ⟨?_, List.subset_def.mp (by decide) isLost⟩
    rw [blankedEq]
    exact List.forall_mem_map.mpr fun character _ => isBlank_blankOut character

end Cuts

end Pattern

namespace Lexeme

open Pattern

/-! ## Texts that are blanked out -/

/-- What is left of the lexemes of a text. -/
def blankedFrom (offset : Nat) (location : Location) (text : List Char) : List Char :=
  (ofTextFrom offset location text).flatMap fun lexeme => blanked lexeme.pattern lexeme.text

theorem blankedFrom_of_cuts {pattern : Option Pattern} {taken behind : List Char}
    (cuts : Cuts pattern taken behind) (offset : Nat) (location : Location) :
    blankedFrom offset location (taken ++ behind) =
      blanked pattern taken ++
        blankedFrom (offset + taken.length) (location.afterText taken) behind := by
  rw [blankedFrom, ofTextFrom_of_cuts cuts, List.flatMap_cons]
  rfl

theorem fades_blankedFrom (offset : Nat) (location : Location) (text : List Char) :
    Fades text (blankedFrom offset location text) := by
  induction text using cutsInduction generalizing offset location with
  | nil =>
      rw [blankedFrom, ofTextFrom]
      exact .nil
  | cut pattern taken behind cuts ih =>
      rw [blankedFrom_of_cuts cuts]
      exact List.rel_append cuts.fades (ih _ _)

/-- Blanking a text out moves no place. -/
theorem afterText_blankedFrom (offset : Nat) (location place : Location) (text : List Char) :
    place.afterText (blankedFrom offset location text) = place.afterText text := by
  induction text using cutsInduction generalizing offset location place with
  | nil =>
      rw [blankedFrom, ofTextFrom]
      rfl
  | cut pattern taken behind cuts ih =>
      rw [blankedFrom_of_cuts cuts, Location.afterText_append, Location.afterText_append,
        cuts.afterText_blanked, ih]

/-- What is neither a token nor unexpected is not seen. -/
theorem filter_visible?_of_lost {pattern : Option Pattern}
    (isLost : pattern ∈ [none, some .blanks, some .lineComment, some .blockComment])
    (text : List Char) (location : Location) :
    ((visible? ⟨pattern, text, 0, location⟩).toList.filter fun lexeme => lexeme.pattern.isSome) =
      [] := by
  simp only [List.mem_cons, List.not_mem_nil, or_false] at isLost
  rcases isLost with rfl | rfl | rfl | rfl <;> rfl

/-- A blanked text shows what the text shows, but for the unexpected characters. -/
theorem shown_blankedFrom (offset : Nat) (location place : Location) (text : List Char) :
    shown place (blankedFrom offset location text) =
      (shown place text).filter fun lexeme => lexeme.pattern.isSome := by
  induction text using cutsInduction generalizing offset location place with
  | nil =>
      rw [blankedFrom, ofTextFrom, shown_nil]
      exact shown_nil place
  | cut pattern taken behind cuts ih =>
      rw [blankedFrom_of_cuts cuts]
      rcases cuts.blanked_token_or_blank 0 place with ⟨same, isToken⟩ | ⟨blank, isLost⟩
      · have calm := (fades_blankedFrom (offset + taken.length) (location.afterText taken)
          behind).tamer
        have isMatch : pattern.isSome = true := by
          cases pattern with
          | none => cases isToken
          | some => rfl
        rw [same, shown_of_token cuts isToken calm,
          shown_of_token cuts isToken (Fades.refl behind).tamer, ih]
        simp [isMatch]
      · rw [shown_of_blanks blank, ih, cuts.afterText_blanked, shown_of_cuts cuts,
          List.filter_append, filter_visible?_of_lost isLost, List.nil_append]

end Lexeme

namespace Lexing

/-- A text with spaces for its unexpected characters and for its comments, but for the line feeds
of comments. -/
def blankedOut (text : List Char) : List Char :=
  (Lexeme.ofText text).flatMap fun lexeme => Pattern.blanked lexeme.pattern lexeme.text

/-- A text that is blanked out has no faults and the same tokens at the same places. -/
theorem blanking_keeps_tokens (source : String) (radius : Nat) :
    (ofText (blankedOut source.toList) radius).diagnostics = [] ∧
      (ofText (blankedOut source.toList) radius).tokens =
        (ofText source.toList radius).tokens := by
  have shownEq : Lexeme.shown .start (blankedOut source.toList) =
      (Lexeme.shown .start source.toList).filter fun lexeme => lexeme.pattern.isSome :=
    Lexeme.shown_blankedFrom 0 .start .start source.toList
  have sameEnd : Location.start.afterText (blankedOut source.toList) =
      Location.start.afterText source.toList :=
    Lexeme.afterText_blankedFrom 0 .start .start source.toList
  constructor
  · refine diagnostics_eq_nil ?_ radius
    rw [shownEq]
    intro lexeme isShown noMatch
    have isMatch := (List.mem_filter.mp isShown).2
    rw [noMatch] at isMatch
    cases isMatch
  · have sameInside : (Lexeme.ofText (blankedOut source.toList)).filterMap Lexeme.token? =
        (Lexeme.ofText source.toList).filterMap Lexeme.token? := by
      rw [Lexeme.ofText, Lexeme.filterMap_token?, Lexeme.ofText, Lexeme.filterMap_token?,
        shownEq, List.filterMap_filter]
      refine congrArg (List.filterMap · _) (funext fun lexeme => ?_)
      rcases lexeme with ⟨pattern, text, offset, location⟩
      -- A lexeme without a pattern gives no token, so it does not matter that it is gone.
      cases pattern <;> rfl
    rw [ofText, ofText, sameInside, endToken, endToken, sameEnd]

end Lexing

end TwinSwarm
