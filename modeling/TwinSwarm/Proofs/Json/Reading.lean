import TwinSwarm.Json.Decoder

/-!
# What readers do with texts

A reader answers a text in front of another one if it takes the first and leaves the
second, or if it stops.  Which of the two it does, and with which value, is its outcome.
The outcomes of composed readers are composed from the outcomes of their parts, so a
reader of a whole document can be followed from the inside to the outside.
-/

namespace TwinSwarm.Json

variable {α β σ : Type}

theorem Passage.rest_advance (passage : Passage) {character : Char} {rest : List Char}
    (isText : passage.rest = character :: rest) : passage.advance.rest = rest := by
  rcases passage with ⟨text, offset, size, sizeEq⟩
  subst isText
  rfl

namespace Reading

/-- The reader takes a text up to what comes after and gives a value, or it stops. -/
def Answers (reading : Reading α) (levels : Nat) (text after : List Char)
    (outcome : Option α) : Prop :=
  ∀ passage : Passage, passage.rest = text →
    match outcome with
    | some value => ∃ next, reading levels passage = .ok (value, next) ∧ next.rest = after
    | none => ∃ stop, reading levels passage = .error stop

namespace Answers

variable {reading : Reading α} {levels : Nat} {text middle after : List Char}

/-! ## Composition -/

theorem of_pure (value : α) (levels : Nat) (text : List Char) :
    (pure value : Reading α).Answers levels text text (some value) :=
  fun passage isText => ⟨passage, rfl, isText⟩

theorem of_bind {next : α → Reading β} {first : Option α} {second : α → Option β}
    (answersFirst : reading.Answers levels text middle first)
    (answersSecond : ∀ value, first = some value →
      (next value).Answers levels middle after (second value)) :
    (reading >>= next).Answers levels text after (first.bind second) := by
  intro passage isText
  have found := answersFirst passage isText
  cases first with
  | none =>
      rcases found with ⟨stop, stopped⟩
      exact ⟨stop, by rw [bind_apply, stopped]⟩
  | some value =>
      rcases found with ⟨stand, taken, isMiddle⟩
      have continued := answersSecond value rfl stand isMiddle
      rw [Option.bind_some, bind_apply, taken]
      exact continued

/-- A reader behind one whose outcome is made of another one. -/
theorem of_mapped {make : σ → α} {next : α → Reading β} {first : Option σ}
    {second : σ → Option β} (answersFirst : reading.Answers levels text middle (first.map make))
    (answersSecond : ∀ value, (next (make value)).Answers levels middle after (second value)) :
    (reading >>= next).Answers levels text after (first.bind second) := by
  cases first with
  | none =>
      intro passage isText
      rcases answersFirst passage isText with ⟨stop, stopped⟩
      exact ⟨stop, by rw [bind_apply, stopped]⟩
  | some value =>
      intro passage isText
      rcases answersFirst passage isText with ⟨stand, taken, isMiddle⟩
      have continued := answersSecond value stand isMiddle
      rw [Option.bind_some, bind_apply, taken]
      exact continued

/-- A reader behind one that always takes its text. -/
theorem of_taken {next : α → Reading β} {value : α} {outcome : Option β}
    (taken : reading.Answers levels text middle (some value))
    (answers : (next value).Answers levels middle after outcome) :
    (reading >>= next).Answers levels text after outcome := by
  have continued : ∀ read, some value = some read →
      (next read).Answers levels middle after outcome := by
    intro read isRead
    cases isRead
    exact answers
  exact of_bind taken continued

theorem of_map {outcome : Option α} (make : α → β)
    (answers : reading.Answers levels text after outcome) :
    (reading >>= fun value => pure (make value)).Answers levels text after
      (outcome.map make) := by
  rw [Option.map_eq_bind]
  exact of_bind answers fun value _ => of_pure (make value) levels after

/-! ## Single characters -/

theorem of_pass (character : Char) (levels : Nat) (rest : List Char) :
    pass.Answers levels (character :: rest) rest (some ()) :=
  fun passage isText => ⟨passage.advance, rfl, passage.rest_advance isText⟩

theorem of_peek (levels : Nat) (text : List Char) :
    peek.Answers levels text text (some text.head?) := by
  intro passage isText
  exact ⟨passage, by rw [peek, isText], isText⟩

theorem of_peekBehindSpace (levels : Nat) (text : List Char) :
    peekBehindSpace.Answers levels text (text.dropWhile Passage.isSpace)
      (some (text.dropWhile Passage.isSpace).head?) := by
  intro passage isText
  refine ⟨passage.dropSpace, ?_, ?_⟩
  · simp [peekBehindSpace, space, peek, Passage.dropSpace, Passage.dropAscii, isText]
  · simp [Passage.dropSpace, Passage.dropAscii, isText]

/-- A reader that goes by the next character behind space. -/
theorem of_behindSpace {next : Option Char → Reading β} {outcome : Option β}
    (isMiddle : text.dropWhile Passage.isSpace = middle)
    (answers : (next middle.head?).Answers levels middle after outcome) :
    (peekBehindSpace >>= next).Answers levels text after outcome := by
  subst isMiddle
  exact of_taken (of_peekBehindSpace levels text) answers

/-- A reader that goes by the next character. -/
theorem of_next {next : Option Char → Reading β} {outcome : Option β}
    (answers : (next text.head?).Answers levels text after outcome) :
    (peek >>= next).Answers levels text after outcome :=
  of_taken (of_peek levels text) answers

/-- A reader behind the next character, which is passed. -/
theorem of_passed {next : Unit → Reading β} {outcome : Option β} {character : Char}
    (answers : (next ()).Answers levels text after outcome) :
    (pass >>= next).Answers levels (character :: text) after outcome :=
  of_taken (of_pass character levels text) answers

theorem of_settledLater (result : Except Cause α) (levels : Nat) (text : List Char) :
    (settledLater result).Answers levels text text result.toOption := by
  cases result with
  | ok value => exact of_pure value levels text
  | error cause => exact fun _ _ => ⟨_, rfl⟩

end Answers

/-! ## Whole texts -/

theorem toOption_wholeText {reading : Reading α} {text : List Char} {outcome : Option α}
    (answers : reading.Answers levelLimit text [] outcome) :
    (wholeText reading (String.ofList text)).toOption = outcome := by
  have found := answers (.start text) rfl
  unfold wholeText
  rw [String.toList_ofList]
  cases outcome with
  | none =>
      rcases found with ⟨stop, stopped⟩
      rw [stopped]
      rfl
  | some value =>
      rcases found with ⟨next, taken, isEnd⟩
      have nothingBehind : next.dropSpace.rest = [] := by
        show next.rest.dropWhile Passage.isSpace = []
        rw [isEnd]
        rfl
      simp only [taken, if_pos nothingBehind]
      rfl

theorem toOption_report (reading : Reading α) (text : String) :
    (report reading text).toOption = (wholeText reading text).toOption := by
  unfold report
  cases wholeText reading text with
  | ok value => rfl
  | error fault => rfl

end Reading

end TwinSwarm.Json
