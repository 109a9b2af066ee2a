import TwinSwarm.Proofs.Json.Drawn

/-!
# What readers give and why they stop

Whatever a reader is given, what it gives and the cause for which it stops satisfy conditions that
depend on the text alone.  The values that are kept do not nest deeper than is allowed, and their
strings stand in the text.  A reader that keeps or passes over values stops only because of the
form of the text; what a value means is looked at by decoders.
-/

namespace TwinSwarm.Json

variable {α β σ : Type} {types : List Type}

/-! ## Passages -/

namespace Passage

theorem rest_advance_suffix (passage : Passage) : passage.advance.rest <:+ passage.rest := by
  rcases passage with ⟨_ | ⟨character, rest⟩, offset, size, isSize⟩
  · exact List.suffix_refl []
  · exact List.suffix_cons character rest

theorem rest_dropAscii_suffix (accept : Char → Bool) (passage : Passage) :
    (passage.dropAscii accept).rest <:+ passage.rest :=
  List.dropWhile_suffix accept

theorem rest_dropUnit_suffix (passage : Passage) : passage.dropUnit.rest <:+ passage.rest :=
  List.drop_suffix 4 passage.rest

theorem rest_dropSpace_suffix (passage : Passage) : passage.dropSpace.rest <:+ passage.rest :=
  rest_dropAscii_suffix isSpace passage

end Passage

namespace Reading

/-! ## Conditions on outcomes -/

/-- A value that is given behind some of the text satisfies one condition, and the cause of a stop
another one. -/
def Outcome (text : List Char) (gives : α → Prop) (stops : Cause → Prop) :
    Except Stop (α × Passage) → Prop
  | .ok (value, next) => next.rest <:+ text ∧ gives value
  | .error stop => stops stop.fault.cause

/-- Wherever the reader begins in a text, its outcome satisfies the conditions. -/
def Meets (reading : Reading α) (levels : Nat) (text : List Char) (gives : α → Prop)
    (stops : Cause → Prop) : Prop :=
  ∀ passage : Passage, passage.rest <:+ text → Outcome text gives stops (reading levels passage)

/-- The string stands in quotes in the text. -/
def Spelt (text : List Char) (name : String) : Prop :=
  ∃ (levels : Nat) (passage next : Passage), passage.rest <:+ text ∧
    key .keep levels passage = .ok (name, next)

/-- The strings of the value stand in the text, and the value does not nest too deeply. -/
structure IsKept (levels : Nat) (text : List Char) (value : Json) : Prop where
  nesting : value.nesting ≤ levels
  strings : ∀ name ∈ value.strings, Spelt text name

variable {reading : Reading α} {levels : Nat} {text : List Char} {gives others : α → Prop}
variable {stops : Cause → Prop}

namespace Meets

theorem mono (meets : Meets reading levels text gives stops)
    (weaker : ∀ value, gives value → others value) : Meets reading levels text others stops := by
  intro passage inside
  have outcome := meets passage inside
  cases isOutcome : reading levels passage with
  | error stop =>
      rw [isOutcome] at outcome
      exact outcome
  | ok result =>
      rw [isOutcome] at outcome
      exact ⟨outcome.1, weaker result.1 outcome.2⟩

theorem of_pure {value : α} (isGiven : gives value) :
    Meets (pure value) levels text gives stops :=
  fun _ inside => ⟨inside, isGiven⟩

theorem of_bind {next : α → Reading β} {gives' : β → Prop}
    (first : Meets reading levels text gives stops)
    (second : ∀ value, gives value → Meets (next value) levels text gives' stops) :
    Meets (reading >>= next) levels text gives' stops := by
  intro passage inside
  have outcome := first passage inside
  rw [bind_apply]
  cases isOutcome : reading levels passage with
  | error stop =>
      rw [isOutcome] at outcome
      exact outcome
  | ok result =>
      rw [isOutcome] at outcome
      exact second result.1 outcome.2 result.2 outcome.1

/-- A reader behind one of which nothing is known but why it stops. -/
theorem of_after {next : α → Reading β} {gives' : β → Prop}
    (first : Meets reading levels text (fun _ => True) stops)
    (second : ∀ value, Meets (next value) levels text gives' stops) :
    Meets (reading >>= next) levels text gives' stops :=
  of_bind first fun value _ => second value

theorem of_map {gives' : β → Prop} (make : α → β) (first : Meets reading levels text gives stops)
    (made : ∀ value, gives value → gives' (make value)) :
    Meets (reading >>= fun value => pure (make value)) levels text gives' stops :=
  of_bind first fun value isGiven => of_pure (made value isGiven)

theorem of_refuse {cause : Cause} (stopped : stops cause) :
    Meets (refuse cause) levels text gives stops :=
  fun _ _ => stopped

theorem of_halt {cause : Cause} (stopped : stops cause) :
    Meets (halt cause) levels text gives stops :=
  fun _ _ => stopped

theorem of_object {cause : Cause} (stopped : stops cause) :
    Meets (Reading.object cause) levels text gives stops :=
  fun _ _ => stopped

theorem of_peek : Meets peek levels text (fun _ => True) stops :=
  fun _ inside => ⟨inside, trivial⟩

theorem of_pass : Meets pass levels text (fun _ => True) stops :=
  fun passage inside => ⟨passage.rest_advance_suffix.trans inside, trivial⟩

theorem of_peekBehindSpace : Meets peekBehindSpace levels text (fun _ => True) stops :=
  fun passage inside => ⟨passage.rest_dropSpace_suffix.trans inside, trivial⟩

/-- A reader that goes by the next character. -/
theorem of_next {next : Option Char → Reading β} {gives' : β → Prop}
    (meets : ∀ character, Meets (next character) levels text gives' stops) :
    Meets (peek >>= next) levels text gives' stops :=
  of_after of_peek meets

/-- A reader that goes by the next character behind space. -/
theorem of_behindSpace {next : Option Char → Reading β} {gives' : β → Prop}
    (meets : ∀ character, Meets (next character) levels text gives' stops) :
    Meets (peekBehindSpace >>= next) levels text gives' stops :=
  of_after of_peekBehindSpace meets

/-- A reader that goes by the next character behind space, from there. -/
theorem of_behindSpace_at {next : Option Char → Reading β} {gives' : β → Prop}
    (meets : ∀ character (passage : Passage), passage.rest <:+ text →
      passage.rest.head? = character →
        Outcome text gives' stops (next character levels passage)) :
    Meets (peekBehindSpace >>= next) levels text gives' stops :=
  fun passage inside =>
    meets _ passage.dropSpace (passage.rest_dropSpace_suffix.trans inside) rfl

/-- A reader behind the next character. -/
theorem of_passed {next : Unit → Reading β} {gives' : β → Prop}
    (meets : Meets (next ()) levels text gives' stops) :
    Meets (pass >>= next) levels text gives' stops :=
  of_after of_pass fun _ => meets

end Meets

/-! ## Words and numbers -/

section Forms

variable (faults : ∀ cause : Cause, cause.category ≠ .data → stops cause) (manner : Manner)

include faults

theorem word_meets (expected : List Char) :
    Meets (word expected) levels text (fun _ => True) stops := by
  induction expected with
  | nil => exact .of_pure trivial
  | cons wanted rest fromRest =>
      apply Meets.of_next
      rintro (_ | character)
      · exact .of_halt (faults _ (by decide))
      · show Meets (if character = wanted then _ else _) levels text _ _
        split
        · exact .of_passed fromRest
        · exact .of_refuse (faults _ (by decide))

omit faults in
theorem digits_meets : Meets digits levels text (fun _ => True) stops :=
  fun passage inside => ⟨(passage.rest_dropAscii_suffix Char.isDigit).trans inside, trivial⟩

theorem wholeDigits_meets : Meets (wholeDigits manner) levels text (fun _ => True) stops := by
  apply Meets.of_next
  rintro (_ | character)
  · exact .of_halt (faults _ (by cases manner <;> decide))
  · show Meets (if character = '0' then _ else _) levels text _ _
    split
    · apply Meets.of_passed
      apply Meets.of_next
      intro next
      split
      · exact .of_after (.of_refuse (faults _ (by decide))) fun _ => .of_pure trivial
      · exact .of_after (.of_pure trivial) fun _ => .of_pure trivial
    · split
      · exact digits_meets
      · exact .of_refuse (faults _ (by decide))

theorem fractionDigits_meets : Meets (fractionDigits manner) levels text (fun _ => True) stops := by
  have atEnd : stops manner.endInNumber := faults _ (by cases manner <;> decide)
  apply Meets.of_next
  intro character
  split
  · apply Meets.of_passed
    apply Meets.of_bind digits_meets
    intro found _
    split
    · apply Meets.of_next
      rintro (_ | next)
      · exact .of_after (.of_refuse atEnd) fun _ => .of_pure trivial
      · exact .of_after (.of_refuse (faults _ (by decide))) fun _ => .of_pure trivial
    · exact .of_after (.of_pure trivial) fun _ => .of_pure trivial
  · exact .of_pure trivial

omit faults in
theorem exponentSign_meets : Meets exponentSign levels text (fun _ => True) stops := by
  apply Meets.of_next
  intro character
  split
  · exact .of_passed (.of_pure trivial)
  · exact .of_passed (.of_pure trivial)
  · exact .of_pure trivial

theorem exponentDigits_meets : Meets (exponentDigits manner) levels text (fun _ => True) stops := by
  apply Meets.of_next
  intro character
  split
  case h_3 => exact .of_pure trivial
  -- Both marks of an exponent are passed, and the same follows.
  all_goals
    apply Meets.of_passed
    apply Meets.of_after exponentSign_meets
    intro negative
    apply Meets.of_next
    rintro (_ | character)
    · exact .of_halt (faults _ (by cases manner <;> decide))
    · show Meets (if character.isDigit then _ else _) levels text _ _
      split
      · exact .of_after digits_meets fun _ => .of_pure trivial
      · exact .of_refuse (faults _ (by decide))

omit faults in
/-- The value of a number is a number. -/
theorem isNumber_of_value {numeral : Numeral} {value : Json} (isValue : numeral.value = .ok value) :
    (∃ number, value = .integer number) ∨ ∃ double, value = .float double := by
  unfold Numeral.value at isValue
  split at isValue
  · split at isValue
    next found isInteger =>
      cases isValue
      unfold Numeral.integerValue? at isInteger
      split at isInteger
      · cases isInteger
        exact .inl ⟨_, rfl⟩
      · split at isInteger
        · cases isInteger
          exact .inl ⟨_, rfl⟩
        · rcases Option.map_eq_some_iff.mp isInteger with ⟨_, _, rfl⟩
          exact .inr ⟨_, rfl⟩
    next => cases isValue
  · cases isDouble : numeral.doubleValue with
    | error unread =>
        rw [isDouble] at isValue
        cases isValue
    | ok double =>
        rw [isDouble] at isValue
        cases isValue
        exact .inr ⟨_, rfl⟩

omit faults in
theorem isKept_of_value {numeral : Numeral} {value : Json} (isValue : numeral.value = .ok value) :
    IsKept levels text value := by
  rcases isNumber_of_value isValue with ⟨_, rfl⟩ | ⟨_, rfl⟩ <;>
    exact ⟨Nat.zero_le _, List.forall_mem_nil _⟩

theorem number_meets (negative : Bool) :
    Meets (number manner negative) levels text (fun value => IsKept levels text value) stops := by
  apply Meets.of_after (wholeDigits_meets faults manner)
  intro whole
  apply Meets.of_after (fractionDigits_meets faults manner)
  intro fraction
  apply Meets.of_after (exponentDigits_meets faults manner)
  intro exponent
  cases manner with
  | keep =>
      intro passage inside
      show Outcome text _ stops (valueOf ⟨negative, whole, fraction, exponent⟩ levels passage)
      rw [valueOf]
      split
      next value isValue => exact ⟨inside, isKept_of_value isValue⟩
      next => exact faults .numberOutOfRange (by decide)
  | skip => exact .of_pure ⟨Nat.zero_le _, List.forall_mem_nil _⟩

/-! ## Strings -/

theorem hexUnit_meets : Meets hexUnit levels text (fun _ => True) stops := by
  intro passage inside
  rw [hexUnit]
  split
  · exact ⟨passage.rest_dropUnit_suffix.trans inside, trivial⟩
  · split
    · exact faults .invalidEscape (by decide)
    · exact faults .endInString (by decide)

theorem surrogateMark_meets (mark : Char) :
    Meets (surrogateMark mark) levels text (fun _ => True) stops := by
  apply Meets.of_next
  rintro (_ | character)
  · exact .of_halt (faults _ (by decide))
  · show Meets (if character = mark then _ else _) levels text _ _
    split
    · exact .of_pass
    · exact .of_refuse (faults _ (by decide))

theorem numberedEscape_meets : Meets (numberedEscape manner) levels text (fun _ => True) stops := by
  apply Meets.of_after (hexUnit_meets faults)
  intro unit
  cases manner with
  | skip => exact .of_pure trivial
  | keep =>
      show Meets (if isLowSurrogate unit then _ else _) levels text _ _
      split
      · exact .of_halt (faults _ (by decide))
      · split
        · apply Meets.of_after (surrogateMark_meets faults '\\')
          intro _
          apply Meets.of_after (surrogateMark_meets faults 'u')
          intro _
          apply Meets.of_after (hexUnit_meets faults)
          intro low
          split
          · exact .of_pure trivial
          · exact .of_halt (faults _ (by decide))
        · exact .of_pure trivial

theorem escape_meets : Meets (escape manner) levels text (fun _ => True) stops := by
  apply Meets.of_next
  rintro (_ | letter)
  · exact .of_halt (faults _ (by decide))
  · show Meets (if letter = 'u' then _ else _) levels text _ _
    split
    · exact .of_passed (numberedEscape_meets faults manner)
    · split
      · exact .of_passed (.of_pure trivial)
      · exact .of_refuse (faults _ (by decide))

theorem stringCharacter_meets :
    Meets (stringCharacter manner) levels text (fun _ => True) stops := by
  apply Meets.of_next
  rintro (_ | character)
  · exact .of_halt (faults _ (by decide))
  · show Meets (if character = '\\' then _ else _) levels text _ _
    split
    · exact .of_passed (escape_meets faults manner)
    · split
      · cases manner with
        | keep => exact .of_refuse (faults _ (by decide))
        | skip => exact .of_halt (faults _ (by decide))
      · exact .of_passed (.of_pure trivial)

theorem characters_meets : Meets (characters manner) levels text (fun _ => True) stops := by
  intro passage inside
  induction size : passage.size using Nat.strongRecOn generalizing passage with
  | ind size ih =>
      rw [characters]
      split
      · exact ⟨passage.rest_advance_suffix.trans inside, trivial⟩
      · have first : Meets (stringCharacter manner) levels text _ stops :=
          stringCharacter_meets faults manner
        have outcome := first passage inside
        split
        next stop isStop =>
          rw [isStop] at outcome
          exact outcome
        next character next isNext =>
          rw [isNext] at outcome
          split
          next shorter =>
            have others := ih next.size (size ▸ shorter) next outcome.1 rfl
            split
            next stop isStop =>
              rw [isStop] at others
              exact others
            next isLast =>
              rw [isLast] at others
              exact ⟨others.1, trivial⟩
          next => exact ⟨outcome.1, trivial⟩

theorem stringBody_meets : Meets (stringBody manner) levels text (fun _ => True) stops :=
  .of_after (characters_meets faults manner) fun _ => .of_pure trivial

/-- A key that is kept stands in the text. -/
theorem key_meets :
    Meets (key manner) levels text (fun name => manner = .keep → Spelt text name) stops := by
  have read : Meets (key manner) levels text (fun _ => True) stops := by
    apply Meets.of_next
    intro character
    split
    · exact .of_passed (stringBody_meets faults manner)
    · exact .of_refuse (faults _ (by decide))
  intro passage inside
  have outcome := read passage inside
  cases isOutcome : key manner levels passage with
  | error stop =>
      rw [isOutcome] at outcome
      exact outcome
  | ok result =>
      rw [isOutcome] at outcome
      refine ⟨outcome.1, ?_⟩
      rintro rfl
      exact ⟨levels, passage, result.2, inside, isOutcome⟩

/-! ## Lists and objects -/

theorem nextItem_meets (first : Bool) :
    Meets (nextItem manner first) levels text (fun _ => True) stops := by
  apply Meets.of_behindSpace
  rintro (_ | character)
  · exact .of_refuse (faults _ (by decide))
  · show Meets (if character = ']' then _ else _) levels text _ _
    split
    · exact .of_pure trivial
    · split
      · exact .of_pure trivial
      · split
        · apply Meets.of_passed
          apply Meets.of_behindSpace
          intro next
          split
          · exact .of_refuse (faults _ (by decide))
          · exact .of_refuse (faults _ (by cases manner <;> decide))
          · exact .of_pure trivial
        · exact .of_refuse (faults _ (by decide))

theorem nextKey_meets (first : Bool) :
    Meets (nextKey manner first) levels text
      (fun found => ∀ name ∈ found, manner = .keep → Spelt text name) stops := by
  have isKey : Meets (key manner >>= fun name => pure (some name)) levels text
      (fun found => ∀ name ∈ found, manner = .keep → Spelt text name) stops := by
    apply Meets.of_map some (key_meets faults manner)
    rintro name spelt _ ⟨⟩
    exact spelt
  apply Meets.of_behindSpace
  rintro (_ | character)
  · exact .of_refuse (faults _ (by decide))
  · show Meets (if character = '\x7d' then _ else _) levels text _ _
    split
    · exact .of_pure fun _ isNone => (Option.not_mem_none _ isNone).elim
    · split
      · exact isKey
      · split
        · apply Meets.of_passed
          apply Meets.of_behindSpace
          intro next
          split
          · exact .of_refuse (faults _ (by cases manner <;> decide))
          · exact .of_refuse (faults _ (by cases manner <;> decide))
          · exact isKey
        · exact .of_refuse (faults _ (by decide))

theorem colon_meets : Meets colon levels text (fun _ => True) stops := by
  apply Meets.of_behindSpace
  intro character
  split
  · exact .of_refuse (faults _ (by decide))
  · exact .of_pass
  · exact .of_refuse (faults _ (by decide))

/-- Each item is what a reader of items gives. -/
theorem items_meets {item : Reading α} (meets : Meets item levels text gives stops)
    (first : Bool) :
    Meets (items manner item first) levels text (fun values => ∀ value ∈ values, gives value)
      stops := by
  intro passage inside
  -- The reader goes on only if a passage got shorter, so its size carries the induction.
  induction size : passage.size using Nat.strongRecOn generalizing passage first with
  | ind size ih =>
      rw [items]
      have moves : Meets (nextItem manner first) levels text _ stops :=
        nextItem_meets faults manner first
      have moved := moves passage inside
      split
      next stop isStop =>
        rw [isStop] at moved
        exact moved
      next next isEnd =>
        rw [isEnd] at moved
        exact ⟨moved.1, List.forall_mem_nil _⟩
      next next isItem =>
        rw [isItem] at moved
        have outcome := meets next moved.1
        split
        next stop isStop =>
          rw [isStop] at outcome
          exact outcome
        next value next isValue =>
          rw [isValue] at outcome
          split
          next shorter =>
            have others := ih next.size (size ▸ shorter) false next outcome.1 rfl
            split
            next stop isStop =>
              rw [isStop] at others
              exact others
            next isLast =>
              rw [isLast] at others
              exact ⟨others.1, List.forall_mem_cons.mpr ⟨outcome.2, others.2⟩⟩
          next => exact ⟨outcome.1, List.forall_mem_singleton.mpr outcome.2⟩

/-- What each member preserves holds when all have been taken. -/
theorem foldMembers_meets {take : σ → String → Reading σ} {keeps : σ → Prop}
    (meets : ∀ state name, keeps state → (manner = .keep → Spelt text name) →
      Meets (take state name) levels text keeps stops) (first : Bool) {state : σ}
    (holds : keeps state) :
    Meets (foldMembers manner take first state) levels text keeps stops := by
  intro passage inside
  induction size : passage.size using Nat.strongRecOn generalizing passage first state with
  | ind size ih =>
      rw [foldMembers]
      have moves : Meets (nextKey manner first) levels text _ stops :=
        nextKey_meets faults manner first
      have moved := moves passage inside
      split
      next stop isStop =>
        rw [isStop] at moved
        exact moved
      next next isEnd =>
        rw [isEnd] at moved
        exact ⟨moved.1, holds⟩
      next name next isKey =>
        rw [isKey] at moved
        have outcome := meets state name holds (moved.2 name rfl) next moved.1
        split
        next stop isStop =>
          rw [isStop] at outcome
          exact outcome
        next state next isTaken =>
          rw [isTaken] at outcome
          split
          next shorter => exact ih next.size (size ▸ shorter) false outcome.2 next outcome.1 rfl
          next => exact outcome

omit faults in
theorem isKept_array {deeper : Nat} {values : List Json}
    (areKept : ∀ value ∈ values, IsKept deeper text value) :
    IsKept (deeper + 1) text (.array values) where
  nesting := Nat.succ_le_succ (nestingOfAll_le_iff.mpr fun value isMember =>
    (areKept value isMember).nesting)
  strings := by
    intro name isString
    rcases mem_stringsOfAll.mp isString with ⟨value, isMember, isInside⟩
    exact (areKept value isMember).strings name isInside

omit faults in
theorem isKept_object {deeper : Nat} {members : List (Entry Json)}
    (areKept : ∀ member ∈ members, Spelt text member.key ∧ IsKept deeper text member.value) :
    IsKept (deeper + 1) text (.object members) where
  nesting := by
    rw [nesting_eq_of_object, Nat.add_le_add_iff_right, nestingOfAll_le_iff, List.forall_mem_map]
    exact fun member isMember => (areKept member isMember).2.nesting
  strings := by
    intro name isString
    rcases mem_stringsOfMembers.mp isString with ⟨member, isMember, rfl | isInside⟩
    · exact (areKept member isMember).1
    · exact (areKept member isMember).2.strings name isInside

/-- Leaving a container moves on in the text, and what may keep a reader from leaving is no
matter of what a value means. -/
def MovesOn (leave : Passage → Passage × Option Cause) : Prop :=
  ∀ passage, (leave passage).1.rest <:+ passage.rest ∧
    ∀ cause ∈ (leave passage).2, cause.category ≠ .data

omit faults in
theorem leaveList_moves : MovesOn leaveList := by
  intro passage
  have behindSpace := passage.rest_dropSpace_suffix
  have behindMark := passage.dropSpace.rest_advance_suffix.trans behindSpace
  have behindComma := passage.dropSpace.advance.rest_dropSpace_suffix.trans behindMark
  unfold leaveList
  dsimp only
  split
  · exact ⟨behindSpace, by rintro _ ⟨⟩; decide⟩
  · exact ⟨behindMark, fun _ isNone => (Option.not_mem_none _ isNone).elim⟩
  · split
    · exact ⟨behindComma, by rintro _ ⟨⟩; decide⟩
    · exact ⟨behindComma, by rintro _ ⟨⟩; decide⟩
  · exact ⟨behindSpace, by rintro _ ⟨⟩; decide⟩

omit faults in
theorem leaveObject_moves : MovesOn leaveObject := by
  intro passage
  have behindSpace := passage.rest_dropSpace_suffix
  have behindMark := passage.dropSpace.rest_advance_suffix.trans behindSpace
  unfold leaveObject
  dsimp only
  split
  · exact ⟨behindSpace, by rintro _ ⟨⟩; decide⟩
  · exact ⟨behindMark, fun _ isNone => (Option.not_mem_none _ isNone).elim⟩
  · exact ⟨behindSpace, by rintro _ ⟨⟩; decide⟩
  · exact ⟨behindSpace, by rintro _ ⟨⟩; decide⟩

/-- A container is read by the reader of its inside, for which there is one level less. -/
theorem enclosed_meets {leave : Passage → Passage × Option Cause} (leaves : MovesOn leave)
    {inside : Reading α}
    (meets : ∀ deeper, levels = deeper + 1 → Meets inside deeper text gives stops) :
    Meets (enclosed leave inside) levels text gives stops := by
  intro passage isInside
  cases levels with
  | zero => exact faults .nestedTooDeeply (by decide)
  | succ deeper =>
      have outcome := meets deeper rfl passage.advance
        (passage.rest_advance_suffix.trans isInside)
      rw [enclosed]
      split
      next cause offset isStop =>
        rw [isStop] at outcome
        exact outcome
      next cause stand isStop =>
        rw [isStop] at outcome
        exact outcome
      next value stand isValue =>
        rw [isValue] at outcome
        have left := leaves stand
        split
        next next isLeft =>
          rw [isLeft] at left
          exact ⟨left.1.trans outcome.1, outcome.2⟩
        next next cause isHeld =>
          rw [isHeld] at left
          exact faults cause (left.2 cause rfl)

/-! ## Values -/

/-- A value, if the values inside it meet the same condition one level deeper. -/
theorem valueAround_meets {inner : Reading Json}
    (meets : ∀ deeper, levels = deeper + 1 → Meets inner deeper text
      (fun value => manner = .keep → IsKept deeper text value) stops) :
    Meets (valueAround manner inner) levels text
      (fun value => manner = .keep → IsKept levels text value) stops := by
  have ofWord (rest : List Char) {value : Json} (noParts : value.nesting = 0)
      (noStrings : value.strings = []) :
      Meets (pass >>= fun _ => word rest >>= fun _ => pure value) levels text
        (fun value => manner = .keep → IsKept levels text value) stops := by
    have isKept : IsKept levels text value := by
      refine ⟨by omega, ?_⟩
      rw [noStrings]
      exact List.forall_mem_nil _
    exact Meets.of_passed (.of_after (word_meets faults rest) fun _ => .of_pure fun _ => isKept)
  apply Meets.of_behindSpace_at
  intro character passage inside isNext
  split
  · exact faults .endInValue (by decide)
  · exact ofWord ['u', 'l', 'l'] rfl rfl passage inside
  · exact ofWord ['r', 'u', 'e'] rfl rfl passage inside
  · exact ofWord ['a', 'l', 's', 'e'] rfl rfl passage inside
  · refine Meets.of_passed ?_ passage inside
    exact (number_meets faults manner true).mono fun _ isKept _ => isKept
  next =>
    -- From its quote on, a string is read like a key.
    have isKey :
        key manner levels passage = (pass >>= fun _ => stringBody manner) levels passage := by
      show (if passage.rest.head? = some '"' then _ else _ : Reading String) levels passage = _
      rw [if_pos isNext]
    have outcome : Outcome text (fun name => manner = .keep → Spelt text name) stops
        (key manner levels passage) := key_meets faults manner passage inside
    rw [isKey] at outcome
    show Outcome text _ stops (((pass >>= fun _ => stringBody manner) >>= fun name =>
      pure (Json.string name)) levels passage)
    rw [bind_apply]
    cases isOutcome : (pass >>= fun _ => stringBody manner) levels passage with
    | error stop =>
        rw [isOutcome] at outcome
        exact outcome
    | ok result =>
        rw [isOutcome] at outcome
        refine ⟨outcome.1, fun isKeep => ⟨Nat.zero_le _, ?_⟩⟩
        exact List.forall_mem_singleton.mpr (outcome.2 isKeep)
  · refine Meets.of_map Json.array (enclosed_meets faults leaveList_moves ?_)
      (fun _ isKept => isKept) passage inside
    rintro deeper rfl
    refine (items_meets faults manner (meets deeper rfl) true).mono ?_
    intro values areKept isKeep
    exact isKept_array fun value isMember => areKept value isMember isKeep
  · refine Meets.of_map Json.object (enclosed_meets faults leaveObject_moves ?_)
      (fun _ isKept => isKept) passage inside
    rintro deeper rfl
    let areKept (members : List (Entry Json)) : Prop := manner = .keep →
      ∀ member ∈ members, Spelt text member.key ∧ IsKept deeper text member.value
    suffices taken : Meets _ deeper text areKept stops from
      taken.mono fun members areKept isKeep => isKept_object (areKept isKeep)
    refine foldMembers_meets faults manner ?_ true fun _ => List.forall_mem_nil _
    intro members name areKept spelt
    apply Meets.of_after (colon_meets faults)
    intro _
    apply Meets.of_map _ (meets deeper rfl)
    intro value isKept isKeep
    have isMember : Spelt text name ∧ IsKept deeper text value := ⟨spelt isKeep, isKept isKeep⟩
    exact List.forall_mem_append.mpr ⟨areKept isKeep, List.forall_mem_singleton.mpr isMember⟩
  next next _ _ _ _ _ _ _ =>
    show Outcome text _ stops ((if next.isDigit then _ else _ : Reading Json) levels passage)
    split
    · exact ((number_meets faults manner false).mono fun _ isKept _ => isKept) passage inside
    · exact faults .expectedValue (by decide)

theorem value_meets : Meets (value manner) levels text
    (fun value => manner = .keep → IsKept levels text value) stops := by
  induction levels with
  | zero =>
      apply valueAround_meets faults manner
      intro deeper isDeeper
      cases isDeeper
  | succ levels fromBelow =>
      apply valueAround_meets faults manner
      rintro deeper ⟨⟩
      exact fromBelow

theorem kept_meets : Meets kept levels text (IsKept levels text) stops :=
  (value_meets faults .keep).mono fun _ isKept => isKept rfl

theorem skipped_meets : Meets skipped levels text (fun _ => True) stops := by
  intro passage inside
  have read : Meets (value .skip) passage.size text _ stops := value_meets faults .skip
  have outcome := read passage inside
  rw [skipped]
  split
  next isRead =>
    rw [isRead] at outcome
    exact ⟨outcome.1, trivial⟩
  next stop isStop =>
    rw [isStop] at outcome
    exact outcome

end Forms

end Reading

end TwinSwarm.Json
