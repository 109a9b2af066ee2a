import TwinSwarm.Proofs.Json.Outcome

/-!
# What is kept could be passed over

Where a value can be read to be kept, it can be passed over as well, and the same text is left
behind it.  What is passed over need not mean the same: half of a surrogate pair counts as a
character then, and numbers have no value.
-/

namespace TwinSwarm.Json.Reading

variable {α β γ δ σ τ : Type} {levels others : Nat} {text : List Char}

/-! ## Two readers on one text -/

/-- Wherever the first reader gives a value, the second one gives a related value and leaves the
same text behind it. -/
def Shadows (first : Reading α) (second : Reading β) (levels others : Nat) (text : List Char)
    (same : α → β → Prop) : Prop :=
  ∀ (passage next : Passage) (value : α), passage.rest <:+ text →
    first levels passage = .ok (value, next) →
      next.rest <:+ text ∧ ∃ other, second others passage = .ok (other, next) ∧ same value other

namespace Shadows

variable {first : Reading α} {second : Reading β} {same : α → β → Prop}

theorem of_pure {value : α} {other : β} (isSame : same value other) :
    Shadows (pure value) (pure other) levels others text same := by
  intro passage next read inside isRead
  cases isRead
  exact ⟨inside, other, rfl, isSame⟩

theorem of_bind {third : α → Reading γ} {fourth : β → Reading δ} {same' : γ → δ → Prop}
    (ofFirst : Shadows first second levels others text same)
    (ofThird : ∀ value other, same value other →
      Shadows (third value) (fourth other) levels others text same') :
    Shadows (first >>= third) (second >>= fourth) levels others text same' := by
  intro passage next value inside isRead
  rw [bind_apply] at isRead
  split at isRead
  next read stand isFirst =>
    rcases ofFirst passage stand read inside isFirst with ⟨isInside, other, isSecond, isSame⟩
    rw [bind_apply, isSecond]
    exact ofThird read other isSame stand next value isInside isRead
  next => cases isRead

theorem mono {same' : α → β → Prop} (shadows : Shadows first second levels others text same)
    (weaker : ∀ value other, same value other → same' value other) :
    Shadows first second levels others text same' := by
  intro passage next value inside isRead
  rcases shadows passage next value inside isRead with ⟨isInside, other, isOther, isSame⟩
  exact ⟨isInside, other, isOther, weaker _ _ isSame⟩

theorem of_refuse (cause : Cause) (second : Reading β) :
    Shadows (refuse cause : Reading α) second levels others text same := by
  intro passage next value _ isRead
  cases isRead

theorem of_refused (cause : Cause) (third : α → Reading γ) (second : Reading β)
    {same' : γ → β → Prop} :
    Shadows ((refuse cause : Reading α) >>= third) second levels others text same' := by
  intro passage next value _ isRead
  cases isRead

theorem of_halt (cause : Cause) (second : Reading β) :
    Shadows (halt cause : Reading α) second levels others text same := by
  intro passage next value _ isRead
  cases isRead

/-- A reader that does not depend on how deep it is. -/
theorem of_same {reading : Reading α} (same : reading levels = reading others)
    (meets : Meets reading levels text (fun _ => True) fun _ => True) :
    Shadows reading reading levels others text Eq := by
  intro passage next value inside isRead
  have outcome := meets passage inside
  rw [isRead] at outcome
  exact ⟨outcome.1, value, same ▸ isRead, rfl⟩

theorem of_next {third : Option Char → Reading γ} {fourth : Option Char → Reading δ}
    {same' : γ → δ → Prop}
    (shadows : ∀ character, Shadows (third character) (fourth character) levels others text same') :
    Shadows (peek >>= third) (peek >>= fourth) levels others text same' :=
  of_bind (of_same rfl .of_peek) fun _ _ isSame => isSame ▸ shadows _

theorem of_behindSpace {third : Option Char → Reading γ} {fourth : Option Char → Reading δ}
    {same' : γ → δ → Prop}
    (shadows : ∀ character, Shadows (third character) (fourth character) levels others text same') :
    Shadows (peekBehindSpace >>= third) (peekBehindSpace >>= fourth) levels others text same' :=
  of_bind (of_same rfl .of_peekBehindSpace) fun _ _ isSame => isSame ▸ shadows _

/-- Readers that go by the next character behind space, from there. -/
theorem of_behindSpace_at {third : Option Char → Reading γ} {fourth : Option Char → Reading δ}
    {same' : γ → δ → Prop}
    (shadows : ∀ character (passage next : Passage) (value : γ), passage.rest <:+ text →
      passage.rest.head? = character → third character levels passage = .ok (value, next) →
        next.rest <:+ text ∧ ∃ other, fourth character others passage = .ok (other, next) ∧
          same' value other) :
    Shadows (peekBehindSpace >>= third) (peekBehindSpace >>= fourth) levels others text same' :=
  fun passage next value inside isRead =>
    shadows _ passage.dropSpace next value (passage.rest_dropSpace_suffix.trans inside) rfl isRead

theorem of_passed {third : Unit → Reading γ} {fourth : Unit → Reading δ} {same' : γ → δ → Prop}
    (shadows : Shadows (third ()) (fourth ()) levels others text same') :
    Shadows (pass >>= third) (pass >>= fourth) levels others text same' :=
  of_bind (of_same rfl .of_pass) fun _ _ _ => shadows

theorem of_map {make : α → γ} {makeOther : β → δ} {same' : γ → δ → Prop}
    (shadows : Shadows first second levels others text same)
    (made : ∀ value other, same value other → same' (make value) (makeOther other)) :
    Shadows (first >>= fun value => pure (make value))
      (second >>= fun other => pure (makeOther other)) levels others text same' :=
  of_bind shadows fun value other isSame => of_pure (made value other isSame)

end Shadows

/-! ## Words and numbers -/

theorem word_shadows (expected : List Char) :
    Shadows (word expected) (word expected) levels others text Eq := by
  induction expected with
  | nil => exact .of_pure rfl
  | cons wanted rest fromRest =>
      apply Shadows.of_next
      rintro (_ | character)
      · exact .of_halt _ _
      · show Shadows (if character = wanted then _ else _) (if character = wanted then _ else _)
          levels others text _
        split
        · exact .of_passed fromRest
        · exact .of_refuse _ _

theorem digits_shadows : Shadows digits digits levels others text Eq :=
  .of_same rfl digits_meets

theorem wholeDigits_shadows :
    Shadows (wholeDigits .keep) (wholeDigits .skip) levels others text Eq := by
  apply Shadows.of_next
  rintro (_ | character)
  · exact .of_halt _ _
  · show Shadows (if character = '0' then _ else _) (if character = '0' then _ else _) levels others
      text _
    split
    · apply Shadows.of_passed
      apply Shadows.of_next
      intro next
      split
      · exact .of_refused _ _ _
      · show Shadows (pure ['0']) (pure ['0']) levels others text Eq
        exact .of_pure rfl
    · split
      · exact digits_shadows
      · exact .of_refuse _ _

theorem fractionDigits_shadows :
    Shadows (fractionDigits .keep) (fractionDigits .skip) levels others text Eq := by
  apply Shadows.of_next
  intro character
  split
  · apply Shadows.of_passed
    apply Shadows.of_bind digits_shadows
    rintro found _ rfl
    split
    · apply Shadows.of_next
      rintro (_ | next)
      · exact .of_refused _ _ _
      · exact .of_refused _ _ _
    · show Shadows (pure (some found)) (pure (some found)) levels others text Eq
      exact .of_pure rfl
  · exact .of_pure rfl

theorem exponentSign_shadows : Shadows exponentSign exponentSign levels others text Eq := by
  apply Shadows.of_next
  intro character
  split
  · exact .of_passed (.of_pure rfl)
  · exact .of_passed (.of_pure rfl)
  · exact .of_pure rfl

theorem exponentDigits_shadows :
    Shadows (exponentDigits .keep) (exponentDigits .skip) levels others text Eq := by
  apply Shadows.of_next
  intro character
  split
  case h_3 => exact .of_pure rfl
  -- Both marks of an exponent are passed, and the same follows.
  all_goals
    apply Shadows.of_passed
    apply Shadows.of_bind exponentSign_shadows
    rintro negative _ rfl
    apply Shadows.of_next
    rintro (_ | character)
    · exact .of_halt _ _
    · show Shadows (if character.isDigit then _ else _) (if character.isDigit then _ else _) levels
        others text _
      split
      · exact .of_bind digits_shadows fun _ _ isSame => .of_pure (by rw [isSame])
      · exact .of_refuse _ _

theorem valueOf_shadows (numeral : Numeral) :
    Shadows (valueOf numeral) (pure Json.null) levels others text fun _ _ => True := by
  intro passage next value inside isRead
  rw [valueOf] at isRead
  split at isRead
  · cases isRead
    exact ⟨inside, .null, rfl, trivial⟩
  · cases isRead

theorem number_shadows (negative : Bool) :
    Shadows (number .keep negative) (number .skip negative) levels others text
      fun _ _ => True := by
  apply Shadows.of_bind wholeDigits_shadows
  rintro whole _ rfl
  apply Shadows.of_bind fractionDigits_shadows
  rintro fraction _ rfl
  apply Shadows.of_bind exponentDigits_shadows
  rintro exponent _ rfl
  exact valueOf_shadows _

/-! ## Strings -/

variable {passage next stand : Passage} {character : Char}

theorem size_advance_lt (isNext : passage.rest.head? = some character) :
    passage.advance.size < passage.size := by
  rcases passage with ⟨_ | ⟨first, rest⟩, offset, size, isSize⟩
  · cases isNext
  · have positive : 0 < size := isSize ▸ Nat.succ_pos _
    exact Nat.sub_lt positive Nat.one_pos

theorem size_le_of_suffix (inside : next.rest <:+ passage.rest) : next.size ≤ passage.size := by
  rw [next.size_eq, passage.size_eq]
  exact inside.length_le

/-- A reader that begins by passing a character takes some of the text. -/
theorem size_lt_of_passed {reading : Reading α} {value : α} {gives : α → Prop}
    (isNext : passage.rest.head? = some character)
    (meets : Meets reading levels passage.advance.rest gives fun _ => True)
    (isRead : reading levels passage.advance = .ok (value, next)) : next.size < passage.size := by
  have outcome := meets passage.advance (List.suffix_refl _)
  rw [isRead] at outcome
  exact Nat.lt_of_le_of_lt (size_le_of_suffix outcome.1) (size_advance_lt isNext)

theorem size_lt_of_stringCharacter {manner : Manner}
    (isRead : stringCharacter manner levels passage = .ok (character, next)) :
    next.size < passage.size := by
  cases isNext : passage.rest.head? with
  | none =>
      simp only [stringCharacter, bind_apply, peek, isNext] at isRead
      cases isRead
  | some first =>
      simp only [stringCharacter, bind_apply, peek, isNext] at isRead
      split at isRead
      · exact size_lt_of_passed isNext (escape_meets (fun _ _ => trivial) manner) isRead
      · split at isRead
        · cases manner <;> cases isRead
        · cases isRead
          exact size_advance_lt isNext

theorem surrogateMark_eq_ok {mark : Char} (isRead : surrogateMark mark levels passage =
    .ok ((), next)) : passage.rest.head? = some mark ∧ next = passage.advance := by
  simp only [surrogateMark, bind_apply, peek] at isRead
  cases isNext : passage.rest.head? with
  | none =>
      rw [isNext] at isRead
      cases isRead
  | some first =>
      rw [isNext] at isRead
      dsimp only at isRead
      split at isRead
      next isMark =>
        cases isRead
        exact ⟨congrArg some isMark, rfl⟩
      next => cases isRead

theorem stringCharacter_of_mark {manner : Manner} (isMark : passage.rest.head? = some '\\') :
    stringCharacter manner levels passage = escape manner levels passage.advance := by
  simp only [stringCharacter, bind_apply, peek, isMark]
  rfl

theorem escape_of_letter {manner : Manner} (isLetter : passage.rest.head? = some 'u') :
    escape manner levels passage = numberedEscape manner levels passage.advance := by
  simp only [escape, bind_apply, peek, isLetter]
  rfl

theorem numberedEscape_of_unit {unit : Nat} (isUnit : hexUnit levels passage = .ok (unit, next)) :
    numberedEscape .skip levels passage = .ok (Char.ofNat unit, next) := by
  simp only [numberedEscape, bind_apply, isUnit]
  rfl

/-- A numbered escape is passed over at once, or as two halves of a pair. -/
theorem numberedEscape_skip (isRead : numberedEscape .keep levels passage = .ok (character, next)) :
    ∃ half stand, numberedEscape .skip others passage = .ok (half, stand) ∧ (stand = next ∨
      stand.rest.head? = some '\\' ∧ ∃ other, stringCharacter .skip others stand =
        .ok (other, next)) := by
  simp only [numberedEscape, bind_apply] at isRead
  split at isRead
  case h_2 => cases isRead
  next unit stand isUnit =>
    have isUnit : hexUnit others passage = .ok (unit, stand) := isUnit
    refine ⟨Char.ofNat unit, stand, numberedEscape_of_unit isUnit, ?_⟩
    split at isRead
    · cases isRead
    · split at isRead
      next isHigh =>
        -- The second half has been read behind its own mark, so it is an escape as well.
        simp only [bind_apply] at isRead
        split at isRead
        case h_2 => cases isRead
        next behindMark isMark =>
          rcases surrogateMark_eq_ok isMark with ⟨isNext, rfl⟩
          split at isRead
          case h_2 => cases isRead
          next behindLetter isLetter =>
            rcases surrogateMark_eq_ok isLetter with ⟨isNextLetter, rfl⟩
            split at isRead
            case h_2 => cases isRead
            next low last isLow =>
              have isLow : hexUnit others stand.advance.advance = .ok (low, last) := isLow
              have isLast : last = next := by
                split at isRead
                · exact congrArg Prod.snd (Except.ok.inj isRead)
                · cases isRead
              subst isLast
              refine .inr ⟨isNext, Char.ofNat low, ?_⟩
              rw [stringCharacter_of_mark isNext, escape_of_letter isNextLetter,
                numberedEscape_of_unit isLow]
      next =>
        cases isRead
        exact .inl rfl

/-- A character is passed over at once, or as two halves of a pair. -/
theorem stringCharacter_skip
    (isRead : stringCharacter .keep levels passage = .ok (character, next)) :
    ∃ half stand, stringCharacter .skip others passage = .ok (half, stand) ∧ (stand = next ∨
      stand.rest.head? = some '\\' ∧ ∃ other, stringCharacter .skip others stand =
        .ok (other, next)) := by
  by_cases isMark : passage.rest.head? = some '\\'
  · rw [stringCharacter_of_mark isMark] at isRead ⊢
    -- Only an escape by its number can be one half of a pair.
    by_cases isLetter : passage.advance.rest.head? = some 'u'
    · rw [escape_of_letter isLetter] at isRead ⊢
      exact numberedEscape_skip isRead
    · refine ⟨character, next, ?_, .inl rfl⟩
      simp only [escape, bind_apply, peek] at isRead ⊢
      cases isNext : passage.advance.rest.head? with
      | none =>
          rw [isNext] at isRead
          cases isRead
      | some letter =>
          rw [isNext] at isLetter isRead
          have notLetter : letter ≠ 'u' := fun isLetter' => isLetter (congrArg some isLetter')
          dsimp only at isRead ⊢
          rw [if_neg notLetter] at isRead ⊢
          cases isEscaped : escapedLetter? letter with
          | none =>
              rw [isEscaped] at isRead
              cases isRead
          | some escaped =>
              rw [isEscaped] at isRead
              exact isRead
  · refine ⟨character, next, ?_, .inl rfl⟩
    simp only [stringCharacter, bind_apply, peek] at isRead ⊢
    cases isNext : passage.rest.head? with
    | none =>
        rw [isNext] at isRead
        cases isRead
    | some first =>
        rw [isNext] at isMark isRead
        have notMark : first ≠ '\\' := fun isMark' => isMark (congrArg some isMark')
        dsimp only at isRead ⊢
        rw [if_neg notMark] at isRead ⊢
        split at isRead
        · cases isRead
        next notControl =>
          rw [if_neg notControl]
          exact isRead

theorem characters_skip_step {found : List Char} {last : Passage}
    (notEnd : passage.rest.head? ≠ some '"')
    (isRead : stringCharacter .skip others passage = .ok (character, stand))
    (isRest : characters .skip others stand = .ok (found, last)) :
    characters .skip others passage = .ok (character :: found, last) := by
  rw [characters, if_neg notEnd]
  simp only [isRead, dif_pos (size_lt_of_stringCharacter isRead), isRest]

/-- The characters of a string can be passed over. -/
theorem characters_skip {found : List Char}
    (isRead : characters .keep levels passage = .ok (found, next)) :
    ∃ skipped, characters .skip others passage = .ok (skipped, next) := by
  induction size : passage.size using Nat.strongRecOn generalizing passage found with
  | ind size ih =>
      rw [characters] at isRead
      split at isRead
      next isEnd =>
        cases isRead
        exact ⟨[], by rw [characters, if_pos isEnd]⟩
      next notEnd =>
        split at isRead
        case h_1 => cases isRead
        next character stand isCharacter =>
          have shorter := size_lt_of_stringCharacter isCharacter
          rw [dif_pos shorter] at isRead
          split at isRead
          case h_1 => cases isRead
          next rest last isRest =>
            cases isRead
            rcases ih stand.size (size ▸ shorter) isRest rfl with ⟨skipped, isSkipped⟩
            rcases stringCharacter_skip isCharacter with
              ⟨half, middle, isHalf, rfl | ⟨isMark, other, isOther⟩⟩
            · exact ⟨_, characters_skip_step notEnd isHalf isSkipped⟩
            · -- The second half begins with a mark, so the string does not end between the halves.
              have notEndInside : middle.rest.head? ≠ some '"' := by
                rw [isMark]
                decide
              exact ⟨_, characters_skip_step notEnd isHalf
                (characters_skip_step notEndInside isOther isSkipped)⟩

theorem stringBody_shadows :
    Shadows (stringBody .keep) (stringBody .skip) levels others text fun _ _ => True := by
  have ofCharacters : Shadows (characters .keep) (characters .skip) levels others text
      fun _ _ => True := by
    intro passage next found inside isRead
    have meets : Meets (characters .keep) levels text (fun _ => True) fun _ => True :=
      characters_meets (fun _ _ => trivial) .keep
    have outcome := meets passage inside
    rw [isRead] at outcome
    rcases characters_skip isRead with ⟨skipped, isSkipped⟩
    exact ⟨outcome.1, skipped, isSkipped, trivial⟩
  exact .of_map ofCharacters fun _ _ _ => trivial

theorem key_shadows : Shadows (key .keep) (key .skip) levels others text fun _ _ => True := by
  apply Shadows.of_next
  intro character
  split
  · exact .of_passed stringBody_shadows
  · exact .of_refuse _ _

/-! ## Lists and objects -/

theorem nextItem_shadows (first : Bool) :
    Shadows (nextItem .keep first) (nextItem .skip first) levels others text Eq := by
  apply Shadows.of_behindSpace
  rintro (_ | character)
  · exact .of_refuse _ _
  · show Shadows (if character = ']' then _ else _) (if character = ']' then _ else _) levels others
      text _
    split
    · exact .of_pure rfl
    · split
      · exact .of_pure rfl
      · split
        · apply Shadows.of_passed
          apply Shadows.of_behindSpace
          intro next
          split
          · exact .of_refuse _ _
          · exact .of_refuse _ _
          · exact .of_pure rfl
        · exact .of_refuse _ _

theorem nextKey_shadows (first : Bool) :
    Shadows (nextKey .keep first) (nextKey .skip first) levels others text
      fun found skipped => found.isSome = skipped.isSome := by
  have isKey : Shadows (key .keep >>= fun name => pure (some name))
      (key .skip >>= fun name => pure (some name)) levels others text
      fun found skipped => found.isSome = skipped.isSome :=
    .of_map key_shadows fun _ _ _ => rfl
  apply Shadows.of_behindSpace
  rintro (_ | character)
  · exact .of_refuse _ _
  · show Shadows (if character = '\x7d' then _ else _) (if character = '\x7d' then _ else _) levels
      others text _
    split
    · exact .of_pure rfl
    · split
      · exact isKey
      · split
        · apply Shadows.of_passed
          apply Shadows.of_behindSpace
          intro next
          split
          · exact .of_refuse _ _
          · exact .of_refuse _ _
          · exact isKey
        · exact .of_refuse _ _

theorem colon_shadows : Shadows colon colon levels others text fun _ _ => True := by
  apply Shadows.of_behindSpace
  intro character
  split
  · exact .of_refuse _ _
  · exact (Shadows.of_same rfl .of_pass).mono fun _ _ _ => trivial
  · exact .of_refuse _ _

theorem items_shadows {item : Reading α} {other : Reading β}
    (ofItem : Shadows item other levels others text fun _ _ => True) (first : Bool) :
    Shadows (items .keep item first) (items .skip other first) levels others text
      fun _ _ => True := by
  intro passage next values inside isRead
  -- Both readers stop at the same places, so one size carries the induction for both.
  induction size : passage.size using Nat.strongRecOn generalizing passage first values with
  | ind size ih =>
      have moves : Shadows (nextItem .keep first) (nextItem .skip first) levels others text Eq :=
        nextItem_shadows first
      rw [items] at isRead
      split at isRead
      case h_1 => cases isRead
      next stand isEnd =>
        rcases moves passage stand false inside isEnd with
          ⟨isInside, _, isEnd, rfl⟩
        cases isRead
        exact ⟨isInside, [], by rw [items]; simp only [isEnd], trivial⟩
      next stand isItem =>
        rcases moves passage stand true inside isItem with
          ⟨isInside, _, isItem, rfl⟩
        split at isRead
        case h_1 => cases isRead
        next value behind isValue =>
          rcases ofItem stand behind value isInside isValue with ⟨isBehind, skipped, isSkipped, _⟩
          split at isRead
          next shorter =>
            split at isRead
            case h_1 => cases isRead
            next rest last isRest =>
              cases isRead
              rcases ih behind.size (size ▸ shorter) false behind rest isBehind isRest rfl with
                ⟨isLast, passed, arePassed, _⟩
              refine ⟨isLast, skipped :: passed, ?_, trivial⟩
              rw [items]
              simp only [isItem, isSkipped, dif_pos shorter, arePassed]
          next notShorter =>
            cases isRead
            refine ⟨isBehind, [skipped], ?_, trivial⟩
            rw [items]
            simp only [isItem, isSkipped, dif_neg notShorter]

theorem foldMembers_shadows {take : σ → String → Reading σ} {other : τ → String → Reading τ}
    (ofMember : ∀ state passed name skipped,
      Shadows (take state name) (other passed skipped) levels others text fun _ _ => True)
    (first : Bool) (state : σ) (passed : τ) :
    Shadows (foldMembers .keep take first state) (foldMembers .skip other first passed) levels
      others text fun _ _ => True := by
  intro passage next value inside isRead
  induction size : passage.size using Nat.strongRecOn generalizing passage first state passed with
  | ind size ih =>
      have moves : Shadows (nextKey .keep first) (nextKey .skip first) levels others text _ :=
        nextKey_shadows first
      rw [foldMembers] at isRead
      split at isRead
      case h_1 => cases isRead
      next stand isEnd =>
        rcases moves passage stand none inside isEnd with
          ⟨isInside, _ | skipped, isEnd, isNone⟩
        · cases isRead
          exact ⟨isInside, passed, by rw [foldMembers]; simp only [isEnd], trivial⟩
        · cases isNone
      next name stand isKey =>
        rcases moves passage stand (some name) inside isKey with
          ⟨isInside, _ | skipped, isKey, isSome⟩
        · cases isSome
        · split at isRead
          case h_1 => cases isRead
          next taken behind isTaken =>
            rcases ofMember state passed name skipped stand behind taken isInside isTaken with
              ⟨isBehind, passedOn, isPassed, _⟩
            split at isRead
            next shorter =>
              rcases ih behind.size (size ▸ shorter) false taken passedOn behind isBehind isRead rfl
                with ⟨isLast, last, arePassed, _⟩
              refine ⟨isLast, last, ?_, trivial⟩
              rw [foldMembers]
              simp only [isKey, isPassed, dif_pos shorter, arePassed]
            next notShorter =>
              cases isRead
              refine ⟨isBehind, passedOn, ?_, trivial⟩
              rw [foldMembers]
              simp only [isKey, isPassed, dif_neg notShorter]

/-- A container can be passed over with as many levels as there are characters. -/
theorem enclosed_skip {leave : Passage → Passage × Option Cause} {inside : Reading α}
    {other : Reading β} {value : α} (moves : MovesOn leave)
    (isNext : passage.rest.head? = some character) (short : passage.rest.length ≤ others)
    (ofInside : ∀ deeper fewer, levels = deeper + 1 → others = fewer + 1 →
      passage.advance.rest.length ≤ fewer →
        Shadows inside other deeper fewer passage.advance.rest fun _ _ => True)
    (isRead : enclosed leave inside levels passage = .ok (value, next)) :
    next.rest <:+ passage.rest ∧
      ∃ skipped, enclosed leave other others passage = .ok (skipped, next) := by
  have shorter := size_advance_lt isNext
  rw [passage.size_eq, passage.advance.size_eq] at shorter
  cases levels with
  | zero => cases isRead
  | succ deeper =>
      cases others with
      | zero => omega
      | succ fewer =>
          -- The bracket is one character, and pays for the level that is taken inside.
          rw [enclosed] at isRead ⊢
          split at isRead
          case h_1 | h_2 => cases isRead
          next value stand isInside =>
            rcases ofInside deeper fewer rfl rfl (by omega) passage.advance stand value
              (List.suffix_refl _) isInside with ⟨isBehind, skipped, isSkipped, _⟩
            split at isRead
            case h_2 => cases isRead
            next last isLeft =>
              have isLast : last = next := congrArg Prod.snd (Except.ok.inj isRead)
              subst isLast
              have moved := (moves stand).1
              rw [isLeft] at moved
              exact ⟨(moved.trans isBehind).trans passage.rest_advance_suffix, skipped, by
                simp only [isSkipped, isLeft]⟩

/-! ## Values -/

theorem valueAround_shadows {inner other : Reading Json} (short : text.length ≤ others)
    (ofInner : ∀ deeper fewer text, levels = deeper + 1 → others = fewer + 1 →
      text.length ≤ fewer → Shadows inner other deeper fewer text fun _ _ => True) :
    Shadows (valueAround .keep inner) (valueAround .skip other) levels others text
      fun _ _ => True := by
  apply Shadows.of_behindSpace_at
  intro character passage next value inside isNext
  have ofPassed {third fourth : Unit → Reading Json}
      (shadows : Shadows (third ()) (fourth ()) levels others text fun _ _ => True) :
      (pass >>= third) levels passage = .ok (value, next) → next.rest <:+ text ∧
        ∃ skipped, (pass >>= fourth) others passage = .ok (skipped, next) ∧ True :=
    Shadows.of_passed shadows passage next value inside
  -- Lists and objects differ in what is read inside the brackets and in nothing else.
  have ofEnclosed {α β : Type} {leave : Passage → Passage × Option Cause} {first : Reading α}
      {second : Reading β} {make : α → Json} {makeOther : β → Json} {bracket : Char}
      (moves : MovesOn leave) (isNext : passage.rest.head? = some bracket)
      (ofInside : ∀ deeper fewer, levels = deeper + 1 → others = fewer + 1 →
        passage.advance.rest.length ≤ fewer →
          Shadows first second deeper fewer passage.advance.rest fun _ _ => True) :
      (enclosed leave first >>= fun value => pure (make value)) levels passage =
        .ok (value, next) → next.rest <:+ text ∧
          ∃ skipped, (enclosed leave second >>= fun value => pure (makeOther value)) others
            passage = .ok (skipped, next) ∧ True := by
    intro isRead
    rw [bind_apply] at isRead
    split at isRead
    case h_2 => cases isRead
    next read stand isEnclosed =>
      rcases enclosed_skip moves isNext (Nat.le_trans inside.length_le short) ofInside isEnclosed
        with ⟨isBehind, skipped, isSkipped⟩
      cases isRead
      exact ⟨isBehind.trans inside, makeOther skipped, by rw [bind_apply, isSkipped]; rfl, trivial⟩
  split
  · intro isRead
    cases isRead
  · exact ofPassed (.of_bind (word_shadows ['u', 'l', 'l']) fun _ _ _ => .of_pure trivial)
  · exact ofPassed (.of_bind (word_shadows ['r', 'u', 'e']) fun _ _ _ => .of_pure trivial)
  · exact ofPassed (.of_bind (word_shadows ['a', 'l', 's', 'e']) fun _ _ _ => .of_pure trivial)
  · exact ofPassed (number_shadows true)
  · exact ofPassed (.of_map stringBody_shadows fun _ _ _ => trivial)
  · exact ofEnclosed leaveList_moves isNext fun deeper fewer isDeeper isFewer isShort =>
      items_shadows (ofInner deeper fewer _ isDeeper isFewer isShort) true
  · refine ofEnclosed leaveObject_moves isNext fun deeper fewer isDeeper isFewer isShort =>
      foldMembers_shadows (fun members passed name skipped => ?_) true [] []
    apply Shadows.of_bind colon_shadows
    intro _ _ _
    exact .of_map (ofInner deeper fewer _ isDeeper isFewer isShort) fun _ _ _ => trivial
  next first _ _ _ _ _ _ _ =>
    intro isRead
    show _ ∧ ∃ skipped, (if first.isDigit then _ else _ : Reading Json) others passage = _ ∧ _
    split at isRead
    next isDigit =>
      rw [if_pos isDigit]
      exact number_shadows false passage next value inside isRead
    next => cases isRead

/-- How the values inside a value are read. -/
def innerValue (manner : Manner) : Nat → Reading Json
  | 0 => refuse .nestedTooDeeply
  | levels + 1 => fun _ => value manner levels

theorem value_eq_valueAround (manner : Manner) (levels : Nat) :
    value manner levels = valueAround manner (innerValue manner levels) levels := by
  cases levels <;> rfl

theorem value_shadows_step (short : text.length ≤ others)
    (ofBelow : ∀ deeper fewer text, levels = deeper + 1 → others = fewer + 1 →
      text.length ≤ fewer → Shadows (value .keep) (value .skip) deeper fewer text
        fun _ _ => True) :
    Shadows (value .keep) (value .skip) levels others text fun _ _ => True := by
  intro passage next read inside isRead
  rw [value_eq_valueAround] at isRead ⊢
  refine valueAround_shadows short ?_ passage next read inside isRead
  rintro deeper fewer text rfl rfl isShort
  exact ofBelow deeper fewer text rfl rfl isShort

/-- A value that can be kept can be passed over with as many levels as there are characters. -/
theorem value_shadows (short : text.length ≤ others) :
    Shadows (value .keep) (value .skip) levels others text fun _ _ => True := by
  induction levels generalizing others text with
  | zero =>
      apply value_shadows_step short
      intro deeper fewer text isDeeper
      cases isDeeper
  | succ levels fromBelow =>
      apply value_shadows_step short
      rintro deeper fewer text ⟨⟩ _ isShort
      exact fromBelow isShort

/-- What can be kept can be passed over. -/
theorem skipped_of_kept {document : Json} (isRead : kept levels passage = .ok (document, next)) :
    skipped levels passage = .ok ((), next) := by
  have shadows : Shadows (value .keep) (value .skip) levels passage.size passage.rest
      fun _ _ => True := value_shadows (Nat.le_of_eq passage.size_eq.symm)
  rcases shadows passage next document (List.suffix_refl _) isRead with ⟨_, other, isSkipped, _⟩
  rw [skipped, isSkipped]

end TwinSwarm.Json.Reading
