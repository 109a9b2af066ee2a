import TwinSwarm.Proofs.Grammar.Recogniser
import TwinSwarm.Proofs.Lexeme.Fidelity
import TwinSwarm.Proofs.Tree.Relocation

/-!
# Texts one behind the other

Behind a line feed a text is cut as if it stood alone, only further down, unless something
that the text in front has opened is still open.  A quote that is open is a fault, and the
slash and the star of a comment that is open are two operators in succession.
-/

namespace TwinSwarm

namespace Location

theorem after_down (lines : Nat) (location : Location) (character : Char) :
    (location.down lines).after character = (location.after character).down lines := by
  rw [after, after, down]
  split
  · rw [down, Nat.add_right_comm]
  · rfl

theorem afterText_down (lines : Nat) (location : Location) (text : List Char) :
    (location.down lines).afterText text = (location.afterText text).down lines := by
  induction text generalizing location with
  | nil => rfl
  | cons character rest ih => rw [afterText_cons, afterText_cons, after_down, ih]

/-- Behind a text and a line feed a line begins, as many lines further down as the text has line
feeds, and one more. -/
theorem start_afterText_lineFeed (text : List Char) :
    start.afterText (text ++ ['\n']) = start.down (1 + text.count '\n') := by
  rw [afterText_append, afterText_cons, after, if_pos rfl, afterText_nil, line_afterText, down,
    Nat.add_assoc, Nat.add_comm 1]
  rfl

end Location

/-! ## Blanks -/

namespace Pattern

/-- Behind a run nothing more of the run is left. -/
theorem takeWhile_dropWhile (accept : Char → Bool) (text : List Char) :
    (text.dropWhile accept).takeWhile accept = [] := by
  induction text with
  | nil => rfl
  | cons character rest ih =>
      rw [List.dropWhile_cons]
      split
      next => exact ih
      next stops => exact List.takeWhile_cons_of_neg stops

/-- Blanks are cut off in front of anything else. -/
theorem first?_of_blank {character : Char} (rest : List Char)
    (blank : Text.isBlank character = true) :
    first? (character :: rest) =
      some (.blanks, runLength Text.isBlank (character :: rest)) := by
  have positive : runLength Text.isBlank (character :: rest) ≠ 0 := by
    rw [runLength, List.takeWhile_cons_of_pos blank]
    exact Nat.succ_ne_zero _
  rw [first?, table, List.findSome?_cons, length?, positive?, if_neg positive]
  rfl

theorem Cuts.of_blanks {run behind : List Char} (nonempty : run ≠ [])
    (blank : ∀ character ∈ run, Text.isBlank character = true)
    (ends : behind.takeWhile Text.isBlank = []) : Cuts (some .blanks) run behind := by
  cases run with
  | nil => exact absurd rfl nonempty
  | cons character rest =>
      have runEq : runLength Text.isBlank (character :: rest ++ behind) =
          (character :: rest).length := by
        rw [runLength, List.takeWhile_append_of_pos blank, ends, List.append_nil]
      constructor
      rw [List.cons_append, first?_of_blank _ (blank character List.mem_cons_self),
        ← List.cons_append, runEq]

/-- What is cut off in front of a text does not change with what stands behind a line feed. -/
theorem Cuts.append {pattern : Option Pattern} {taken behind : List Char}
    (cuts : Cuts pattern taken behind) (settled : Settled (taken ++ behind))
    (others : List Char) : Cuts pattern taken (behind ++ '\n' :: others) := by
  have sameFirst := settled.first?_append others
  rw [List.append_assoc] at sameFirst
  cases cuts with
  | matched found => exact .matched (sameFirst.trans found)
  | unmatched lost => exact .unmatched (sameFirst.trans lost)

end Pattern

/-! ## What is seen of lexemes -/

namespace Lexeme

open Pattern

/-- What tokens and faults are made of: not the offset, and neither blanks nor comments. -/
def visible? (lexeme : Lexeme) : Option Lexeme :=
  match lexeme.pattern with
  | some .blanks | some .lineComment | some .blockComment => none
  | _ => some { lexeme with offset := 0 }

/-- What is seen of the lexemes of a text that begins at a location. -/
def shown (location : Location) (text : List Char) : List Lexeme :=
  (ofTextFrom 0 location text).filterMap visible?

/-- The offset at which a text begins is not seen. -/
theorem filterMap_visible? (offset : Nat) (location : Location) (text : List Char) :
    (ofTextFrom offset location text).filterMap visible? = shown location text := by
  induction text using cutsInduction generalizing offset location with
  | nil => rw [shown, ofTextFrom, ofTextFrom]
  | cut pattern taken behind cuts ih =>
      rw [shown, ofTextFrom_of_cuts cuts, ofTextFrom_of_cuts cuts, List.filterMap_cons,
        List.filterMap_cons, ih, ih]
      rfl

@[simp] theorem shown_nil (location : Location) : shown location [] = [] := by
  rw [shown, ofTextFrom]
  rfl

/-- What is cut off in front of a text is seen first, if it is seen. -/
theorem shown_of_cuts {pattern : Option Pattern} {taken behind : List Char}
    (cuts : Cuts pattern taken behind) (location : Location) :
    shown location (taken ++ behind) =
      (visible? ⟨pattern, taken, 0, location⟩).toList ++
        shown (location.afterText taken) behind := by
  rw [shown, ofTextFrom_of_cuts cuts, List.filterMap_cons, filterMap_visible?]
  cases visible? ⟨pattern, taken, 0, location⟩ <;> rfl

/-- Blanks in front of a text are not seen. -/
theorem shown_of_blanks {blanks : List Char}
    (blank : ∀ character ∈ blanks, Text.isBlank character = true) (location : Location)
    (rest : List Char) :
    shown location (blanks ++ rest) = shown (location.afterText blanks) rest := by
  -- Both sides go on where the run of blanks ends that goes through both texts.
  have toEnd (run behind : List Char) (place : Location)
      (runBlank : ∀ character ∈ run, Text.isBlank character = true)
      (ends : behind.takeWhile Text.isBlank = []) :
      shown place (run ++ behind) = shown (place.afterText run) behind := by
    by_cases empty : run = []
    · rw [empty]
      rfl
    · rw [shown_of_cuts (.of_blanks empty runBlank ends)]
      rfl
  have restBlank : ∀ character ∈ rest.takeWhile Text.isBlank, Text.isBlank character = true :=
    List.all_eq_true.mp List.all_takeWhile
  have ends : (rest.dropWhile Text.isBlank).takeWhile Text.isBlank = [] :=
    takeWhile_dropWhile Text.isBlank rest
  have splitEq := List.takeWhile_append_dropWhile (p := Text.isBlank) (l := rest)
  rw [← splitEq, ← List.append_assoc, toEnd _ _ _ restBlank ends,
    toEnd _ _ _ (List.forall_mem_append.mpr ⟨blank, restBlank⟩) ends, Location.afterText_append]

/-- The lexeme at its new place. -/
def relocated (move : Location → Location) (lexeme : Lexeme) : Lexeme :=
  { lexeme with location := move lexeme.location }

theorem visible?_relocated (move : Location → Location) (lexeme : Lexeme) :
    visible? (lexeme.relocated move) = (visible? lexeme).map (relocated move) := by
  rcases lexeme with ⟨pattern, text, offset, location⟩
  cases pattern with
  | none => rfl
  | some pattern => cases pattern <;> rfl

/-- A text is cut in the same way some lines further down. -/
theorem shown_down (lines : Nat) (location : Location) (text : List Char) :
    shown (location.down lines) text =
      (shown location text).map (relocated (Location.down lines)) := by
  induction text using cutsInduction generalizing location with
  | nil => rw [shown_nil, shown_nil, List.map_nil]
  | cut pattern taken behind cuts ih =>
      have first := visible?_relocated (Location.down lines) ⟨pattern, taken, 0, location⟩
      rw [shown_of_cuts cuts, shown_of_cuts cuts, Location.afterText_down, ih, List.map_append,
        ← Option.toList_map, ← first]
      rfl

/-! ## A text behind a line feed -/

/-- A text whose first lexeme is a slash that stands before a star shows both as tokens. -/
theorem shown_of_openComment {rest : List Char} (opens : closedCommentLength? rest = none)
    (location : Location) :
    ∃ slash star others, (shown location ('/' :: '*' :: rest)).filterMap token? =
      Token.ofSign "/" slash :: Token.ofSign "*" star :: others := by
  have slash : Cuts (some .operator) ['/'] ('*' :: rest) := .matched (first?_of_openComment opens)
  have star : Cuts (some .operator) ['*'] rest := .matched (first?_star rest)
  have slashSeen := shown_of_cuts slash location
  have starSeen := shown_of_cuts star (location.afterText ['/'])
  rw [List.singleton_append] at slashSeen starSeen
  refine ⟨location, location.afterText ['/'],
    (shown ((location.afterText ['/']).afterText ['*']) rest).filterMap token?, ?_⟩
  rw [slashSeen, starSeen]
  rfl

/-- Nothing in a text is left open: each of its lexemes matches a pattern, and no star stands
directly behind a slash. -/
structure Closed (location : Location) (text : List Char) : Prop where
  faultless : ∀ lexeme ∈ shown location text, lexeme.pattern ≠ none
  signs : ∀ slash star, ¬[Token.ofSign "/" slash, Token.ofSign "*" star] <:+:
    (shown location text).filterMap token?

namespace Closed

variable {location : Location}

theorem settled {text : List Char} (closed : Closed location text)
    (notBlank : ∃ character ∈ text, Text.isBlank character = false) : Settled text := by
  constructor
  case notBlank => exact notBlank
  case comment =>
    rintro rest rfl opens
    rcases shown_of_openComment opens location with ⟨slash, star, behind, tokensEq⟩
    have noStar := closed.signs slash star
    rw [tokensEq] at noStar
    exact noStar ⟨[], behind, rfl⟩
  case quotation =>
    rintro quote rest isQuote rfl opens
    have lost : Cuts none [quote] rest := .unmatched (first?_of_openQuote isQuote opens)
    have faultless := closed.faultless
    rw [← List.singleton_append, shown_of_cuts lost] at faultless
    exact faultless _ List.mem_cons_self rfl

theorem behind {pattern : Option Pattern} {taken behind : List Char}
    (closed : Closed location (taken ++ behind)) (cuts : Cuts pattern taken behind) :
    Closed (location.afterText taken) behind := by
  constructor
  case faultless =>
    intro lexeme isLater
    refine closed.faultless lexeme ?_
    rw [shown_of_cuts cuts]
    exact List.mem_append_right _ isLater
  case signs =>
    intro slash star isLater
    refine closed.signs slash star ?_
    rw [shown_of_cuts cuts, List.filterMap_append]
    exact isLater.trans (List.suffix_append _ _).isInfix

end Closed

/-- Blanks and a line feed behind them are not seen. -/
theorem shown_of_blankLine {text : List Char}
    (blank : ∀ character ∈ text, Text.isBlank character = true) (location : Location)
    (others : List Char) :
    shown location (text ++ '\n' :: others) =
      shown location text ++ shown (location.afterText (text ++ ['\n'])) others := by
  have lineFeed : ∀ character ∈ ['\n'], Text.isBlank character = true :=
    List.forall_mem_singleton.mpr rfl
  have nothing := shown_of_blanks blank location []
  rw [List.append_nil, shown_nil] at nothing
  rw [nothing, List.nil_append, ← List.singleton_append, ← List.append_assoc,
    shown_of_blanks (List.forall_mem_append.mpr ⟨blank, lineFeed⟩)]

/-- If nothing in a text is left open, what stands behind it and a line feed is cut as if it
stood alone. -/
theorem shown_append {location : Location} {text : List Char} (closed : Closed location text)
    (others : List Char) :
    shown location (text ++ '\n' :: others) =
      shown location text ++ shown (location.afterText (text ++ ['\n'])) others := by
  induction text using cutsInduction generalizing location with
  | nil => exact shown_of_blankLine (List.forall_mem_nil _) location others
  | cut pattern taken behind cuts ih =>
      -- The last run of blanks goes on behind the line feed, so it is not cut off as it is alone.
      by_cases blank : ∀ character ∈ taken ++ behind, Text.isBlank character = true
      · exact shown_of_blankLine blank location others
      · have settled : Settled (taken ++ behind) := closed.settled (by simpa using blank)
        have placeEq : location.afterText (taken ++ behind ++ ['\n']) =
            (location.afterText taken).afterText (behind ++ ['\n']) := by
          rw [List.append_assoc, Location.afterText_append]
        rw [placeEq, List.append_assoc, shown_of_cuts (cuts.append settled others),
          shown_of_cuts cuts, ih (closed.behind cuts), List.append_assoc]

/-! ## Tokens and faults -/

theorem filterMap_token? (location : Location) (text : List Char) :
    (ofTextFrom 0 location text).filterMap token? = (shown location text).filterMap token? := by
  have seen (lexeme : Lexeme) : lexeme.token? = (visible? lexeme).bind token? := by
    rcases lexeme with ⟨pattern, text, offset, location⟩
    cases pattern with
    | none => rfl
    | some pattern => cases pattern <;> rfl
  rw [shown, List.filterMap_filterMap]
  exact congrArg (List.filterMap · _) (funext seen)

theorem token?_relocated (move : Location → Location) (lexeme : Lexeme) :
    (lexeme.relocated move).token? = lexeme.token?.map (Token.relocated move) := by
  rcases lexeme with ⟨pattern, text, offset, location⟩
  cases pattern with
  | none => rfl
  | some pattern => cases pattern <;> rfl

end Lexeme

namespace Diagnostic

/-- The diagnostic at its new place. -/
def relocated (move : Location → Location) (diagnostic : Diagnostic) : Diagnostic :=
  { diagnostic with location := move diagnostic.location }

/-- The diagnostic without the text around its place. -/
def bare (diagnostic : Diagnostic) : Diagnostic :=
  { diagnostic with context := "" }

end Diagnostic

namespace Lexeme

/-- The fault that the lexeme is, without the text around it. -/
def fault? (lexeme : Lexeme) : Option Diagnostic :=
  (lexeme.diagnostic? [] 0).map Diagnostic.bare

theorem map_bare_filterMap (source : List Char) (radius : Nat) (location : Location)
    (text : List Char) :
    ((ofTextFrom 0 location text).filterMap (diagnostic? source radius)).map Diagnostic.bare =
      (shown location text).filterMap fault? := by
  have seen (lexeme : Lexeme) : (lexeme.diagnostic? source radius).map Diagnostic.bare =
      (visible? lexeme).bind fault? := by
    rcases lexeme with ⟨pattern, text, offset, location⟩
    cases pattern with
    | none => rfl
    | some pattern => cases pattern <;> rfl
  rw [shown, List.filterMap_filterMap, List.map_filterMap]
  exact congrArg (List.filterMap · _) (funext seen)

theorem fault?_relocated (move : Location → Location) (lexeme : Lexeme) :
    (lexeme.relocated move).fault? = lexeme.fault?.map (Diagnostic.relocated move) := by
  rcases lexeme with ⟨pattern, text, offset, location⟩
  cases pattern <;> rfl

/-- A text without faults shows no lexeme that no pattern matches. -/
theorem pattern_of_faultless {location : Location} {text : List Char}
    (faultless : (shown location text).filterMap fault? = []) :
    ∀ lexeme ∈ shown location text, lexeme.pattern ≠ none := by
  intro lexeme isShown isFault
  have nothing := List.filterMap_eq_nil_iff.mp faultless lexeme isShown
  rw [fault?, diagnostic?, isFault] at nothing
  cases nothing

end Lexeme

namespace Lexing

open Lexeme

/-- If nothing in a text is left open, a text behind it and a line feed gives the same tokens and
faults as it gives alone, only further down. -/
theorem ofText_concatenation (radius : Nat) {first second : List Char}
    (faultless : (ofText first radius).diagnostics = [])
    (closed : ∀ slash star, ¬[Token.ofSign "/" slash, Token.ofSign "*" star] <:+:
      Grammar.beforeEnd (ofText first radius).tokens) :
    let whole := ofText (first ++ '\n' :: second) radius
    let move := Location.down (1 + first.count '\n')
    Grammar.beforeEnd whole.tokens = Grammar.beforeEnd (ofText first radius).tokens ++
        (Grammar.beforeEnd (ofText second radius).tokens).map (Token.relocated move) ∧
      Grammar.endLocation whole.tokens =
        move (Grammar.endLocation (ofText second radius).tokens) ∧
      whole.diagnostics.map Diagnostic.bare =
        ((ofText second radius).diagnostics.map Diagnostic.bare).map
          (Diagnostic.relocated move) := by
  intro whole move
  have firstFaultless : (shown .start first).filterMap fault? = [] := by
    rw [← map_bare_filterMap first radius]
    exact List.map_eq_nil_iff.mpr faultless
  have textEq : first ++ '\n' :: second = (first ++ ['\n']) ++ second := by simp
  -- But for blanks and comments the lexemes are those of both texts; all else is mapped from them.
  have shownEq : shown .start (first ++ '\n' :: second) =
      shown .start first ++ (shown .start second).map (Lexeme.relocated move) := by
    rw [beforeEnd_tokens, Lexeme.ofText, filterMap_token?] at closed
    have firstClosed : Closed .start first := ⟨pattern_of_faultless firstFaultless, closed⟩
    rw [shown_append firstClosed, Location.start_afterText_lineFeed, shown_down]
  refine ⟨?_, ?_, ?_⟩
  · simp only [whole, beforeEnd_tokens, Lexeme.ofText, filterMap_token?]
    rw [shownEq, List.filterMap_append, List.filterMap_map, List.map_filterMap]
    exact congrArg (_ ++ List.filterMap · _) (funext (token?_relocated move))
  · simp only [whole, endLocation_tokens]
    rw [textEq, Location.afterText_append, Location.start_afterText_lineFeed,
      Location.afterText_down]
  · simp only [whole, ofText, Lexeme.ofText, map_bare_filterMap]
    rw [shownEq, List.filterMap_append, firstFaultless, List.filterMap_map, List.map_filterMap]
    exact congrArg (List.filterMap · _) (funext (fault?_relocated move))

end Lexing

end TwinSwarm
