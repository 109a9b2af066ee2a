import Mathlib.Data.List.DropRight
import TwinSwarm.Proofs.Json.Numeral
import TwinSwarm.Proofs.Json.Strings

/-!
# Lists and objects are taken apart as they are written

The items of a list stand on lines of their own and so do the members of an object.
If each of them is answered in its place, the loop over all of them is answered as well,
and leaving the container passes its closing bracket.
-/

namespace TwinSwarm.Json

variable {α β σ : Type} {levels depth : Nat} {text after : List Char}

/-- A text that begins with a value: its first character is no space and closes
nothing. -/
def Opens (text : List Char) : Prop :=
  ∃ first rest, text = first :: rest ∧ Passage.isSpace first = false ∧ first ≠ ']' ∧
    first ≠ '\x7d'

theorem opens_stringText (value : String) (after : List Char) : Opens (stringText value after) :=
  ⟨'"', _, rfl, rfl, by decide, by decide⟩

theorem Opens.dropWhile_eq (opens : Opens text) : text.dropWhile Passage.isSpace = text := by
  rcases opens with ⟨first, rest, rfl, noSpace, _, _⟩
  exact List.dropWhile_cons_of_neg (by rw [noSpace]; exact Bool.false_ne_true)

theorem Opens.dropWhile_space (opens : Opens text) :
    (' ' :: text).dropWhile Passage.isSpace = text :=
  opens.dropWhile_eq

/-- The indentation of a line is space. -/
theorem dropWhile_lineText (solid : text.dropWhile Passage.isSpace = text) :
    (lineText depth text).dropWhile Passage.isSpace = text := by
  have indentation : ∀ character ∈ List.replicate (2 * depth) ' ',
      Passage.isSpace character = true := by
    intro character isMember
    rw [List.eq_of_mem_replicate isMember]
    rfl
  show (List.replicate (2 * depth) ' ' ++ text).dropWhile Passage.isSpace = text
  rw [List.dropWhile_append_of_pos indentation, solid]

namespace Reading

/-! ## Readers that begin with space -/

/-- The reader passes over leading space. -/
def SkipsSpace (reading : Reading α) : Prop :=
  ∀ levels passage, reading levels passage = reading levels passage.dropSpace

theorem dropSpace_dropSpace (passage : Passage) :
    passage.dropSpace.dropSpace = passage.dropSpace := by
  have settled : (passage.rest.dropWhile Passage.isSpace).dropWhile Passage.isSpace =
      passage.rest.dropWhile Passage.isSpace := List.dropWhile_idempotent _ _
  have noneLeft : (passage.rest.dropWhile Passage.isSpace).takeWhile Passage.isSpace = [] := by
    have parts := List.takeWhile_append_dropWhile (p := Passage.isSpace)
      (l := passage.rest.dropWhile Passage.isSpace)
    rw [settled] at parts
    exact List.append_left_eq_self.mp parts
  simp only [Passage.dropSpace, Passage.dropAscii, noneLeft, settled, List.length_nil,
    Nat.add_zero, Nat.sub_zero]

theorem skipsSpace_bind (next : Option Char → Reading β) :
    SkipsSpace (peekBehindSpace >>= next) := by
  intro levels passage
  rw [bind_apply, bind_apply]
  simp only [peekBehindSpace, bind_apply, space, peek, dropSpace_dropSpace]

theorem kept_skipsSpace : SkipsSpace kept := by
  intro levels passage
  cases levels with
  | zero => exact skipsSpace_bind _ 0 passage
  | succ levels => exact skipsSpace_bind _ (levels + 1) passage

theorem Answers.of_skipsSpace {reading : Reading α} {outcome : Option α} {middle : List Char}
    (skips : SkipsSpace reading) (isMiddle : text.dropWhile Passage.isSpace = middle)
    (answers : reading.Answers levels middle after outcome) :
    reading.Answers levels text after outcome := by
  intro passage isText
  rw [skips levels passage]
  apply answers
  rw [← isMiddle, ← isText]
  rfl

/-! ## Items -/

theorem nextItem_answers_first (manner : Manner) (opens : Opens text) :
    (nextItem manner true).Answers levels (lineText depth text) text (some true) := by
  apply Answers.of_behindSpace (dropWhile_lineText opens.dropWhile_eq)
  rcases opens with ⟨first, rest, rfl, _, notEnd, _⟩
  show Answers (if first = ']' then _ else if true then _ else _) levels _ _ _
  rw [if_neg notEnd, if_pos rfl]
  exact Answers.of_pure true levels _

theorem nextItem_answers_comma (manner : Manner) (opens : Opens text) :
    (nextItem manner false).Answers levels (',' :: lineText depth text) text (some true) := by
  apply Answers.of_behindSpace rfl
  apply Answers.of_passed
  apply Answers.of_behindSpace (dropWhile_lineText opens.dropWhile_eq)
  rcases opens with ⟨first, rest, rfl, _, notEnd, _⟩
  rw [List.head?_cons]
  split
  case h_1 isEnd => cases isEnd
  case h_2 isEnd => exact absurd (Option.some.inj isEnd) notEnd
  case h_3 => exact Answers.of_pure true levels _

theorem nextItem_answers_end (manner : Manner) (first : Bool) {text : List Char}
    (isEnd : text.dropWhile Passage.isSpace = ']' :: after) :
    (nextItem manner first).Answers levels text (']' :: after) (some false) := by
  apply Answers.of_behindSpace isEnd
  exact Answers.of_pure false levels _

/-- One item and the items behind it. -/
theorem items_answers_step {item : Reading α} {manner : Manner} {first : Bool}
    {middle tail : List Char} {found : Option α} {others : Option (List α)}
    (moves : (nextItem manner first).Answers levels text middle (some true))
    (itemAnswers : item.Answers levels middle tail found) (shorter : tail.length < text.length)
    (othersAnswer : (items manner item false).Answers levels tail after others) :
    (items manner item first).Answers levels text after (do
      let value ← found
      let values ← others
      pure (value :: values)) := by
  intro passage isText
  rcases moves passage isText with ⟨stand, moved, isMiddle⟩
  have itemFound := itemAnswers stand isMiddle
  -- If the item or a later one is refused, so is the list.
  cases found with
  | none =>
      rcases itemFound with ⟨stop, stopped⟩
      exact ⟨stop, by rw [items]; simp only [moved, stopped]⟩
  | some value =>
      rcases itemFound with ⟨next, taken, isTail⟩
      have shrinks : next.size < passage.size := by
        rw [next.size_eq, passage.size_eq, isTail, isText]
        exact shorter
      have othersFound := othersAnswer next isTail
      cases others with
      | none =>
          rcases othersFound with ⟨stop, stopped⟩
          exact ⟨stop, by rw [items]; simp only [moved, taken, dif_pos shrinks, stopped]⟩
      | some values =>
          rcases othersFound with ⟨last, othersTaken, isAfter⟩
          refine ⟨last, ?_, isAfter⟩
          rw [items]
          simp only [moved, taken, dif_pos shrinks, othersTaken]

theorem items_answers_end {item : Reading α} {manner : Manner} {first : Bool}
    (isEnd : text.dropWhile Passage.isSpace = ']' :: after) :
    (items manner item first).Answers levels text (']' :: after) (some []) := by
  intro passage isText
  have ends : (nextItem manner first).Answers levels text (']' :: after) _ :=
    nextItem_answers_end manner first isEnd
  rcases ends passage isText with ⟨next, moved, isClose⟩
  refine ⟨next, ?_, isClose⟩
  rw [items]
  simp only [moved]

/-! ## Members -/

theorem nextKey_answers_first (manner : Manner) (name : String) :
    (nextKey manner true).Answers levels (lineText depth (keyText name text))
      (':' :: ' ' :: text) (some (some name)) := by
  apply Answers.of_behindSpace (dropWhile_lineText (opens_stringText _ _).dropWhile_eq)
  exact Answers.of_map some (key_answers manner name)

theorem nextKey_answers_comma (manner : Manner) (name : String) :
    (nextKey manner false).Answers levels (',' :: lineText depth (keyText name text))
      (':' :: ' ' :: text) (some (some name)) := by
  apply Answers.of_behindSpace rfl
  apply Answers.of_passed
  apply Answers.of_behindSpace (dropWhile_lineText (opens_stringText _ _).dropWhile_eq)
  exact Answers.of_map some (key_answers manner name)

theorem nextKey_answers_end (manner : Manner) (first : Bool)
    (isEnd : text.dropWhile Passage.isSpace = '\x7d' :: after) :
    (nextKey manner first).Answers levels text ('\x7d' :: after) (some none) := by
  apply Answers.of_behindSpace isEnd
  exact Answers.of_pure none levels _

theorem colon_answers : colon.Answers levels (':' :: after) after (some ()) := by
  apply Answers.of_behindSpace rfl
  exact Answers.of_pass ':' levels after

/-- One member and the members behind it. -/
theorem foldMembers_answers_step {take : σ → String → Reading σ} {manner : Manner} {first : Bool}
    {state : σ} {name : String} {middle tail : List Char} {found : Option σ}
    {others : σ → Option σ}
    (moves : (nextKey manner first).Answers levels text middle (some (some name)))
    (memberAnswers : (take state name).Answers levels middle tail found)
    (shorter : tail.length < text.length)
    (othersAnswer : ∀ next, found = some next →
      (foldMembers manner take false next).Answers levels tail after (others next)) :
    (foldMembers manner take first state).Answers levels text after (found.bind others) := by
  intro passage isText
  rcases moves passage isText with ⟨stand, moved, isMiddle⟩
  have memberFound := memberAnswers stand isMiddle
  cases found with
  | none =>
      rcases memberFound with ⟨stop, stopped⟩
      exact ⟨stop, by rw [foldMembers]; simp only [moved, stopped]⟩
  | some value =>
      rcases memberFound with ⟨next, taken, isTail⟩
      have shrinks : next.size < passage.size := by
        rw [next.size_eq, passage.size_eq, isTail, isText]
        exact shorter
      have othersFound := othersAnswer value rfl next isTail
      rw [foldMembers]
      simp only [moved, taken, dif_pos shrinks]
      exact othersFound

theorem foldMembers_answers_end {take : σ → String → Reading σ} {manner : Manner} {first : Bool}
    {state : σ} (isEnd : text.dropWhile Passage.isSpace = '\x7d' :: after) :
    (foldMembers manner take first state).Answers levels text ('\x7d' :: after) (some state) := by
  intro passage isText
  have ends : (nextKey manner first).Answers levels text ('\x7d' :: after) _ :=
    nextKey_answers_end manner first isEnd
  rcases ends passage isText with ⟨next, moved, isClose⟩
  refine ⟨next, ?_, isClose⟩
  rw [foldMembers]
  simp only [moved]

/-! ## Brackets -/

/-- A way to leave a container passes its closing bracket. -/
def Leaves (leave : Passage → Passage × Option Cause) (bracket : Char) : Prop :=
  ∀ passage after, passage.rest = bracket :: after →
    ∃ next, leave passage = (next, none) ∧ next.rest = after

theorem leaveList_leaves : Leaves leaveList ']' := by
  intro passage after isClose
  have isClose : passage.dropSpace.rest = ']' :: after := by
    show passage.rest.dropWhile Passage.isSpace = _
    rw [isClose]
    rfl
  refine ⟨passage.dropSpace.advance, ?_, passage.dropSpace.rest_advance isClose⟩
  simp only [leaveList, isClose]

theorem leaveObject_leaves : Leaves leaveObject '\x7d' := by
  intro passage after isClose
  have isClose : passage.dropSpace.rest = '\x7d' :: after := by
    show passage.rest.dropWhile Passage.isSpace = _
    rw [isClose]
    rfl
  refine ⟨passage.dropSpace.advance, ?_, passage.dropSpace.rest_advance isClose⟩
  simp only [leaveObject, isClose]

/-- The inside of a container is read with one level less. -/
theorem enclosed_answers {leave : Passage → Passage × Option Cause} {inside : Reading α}
    {opening bracket : Char} {outcome : Option α} (leaves : Leaves leave bracket)
    (answers : inside.Answers levels text (bracket :: after) outcome) :
    (enclosed leave inside).Answers (levels + 1) (opening :: text) after outcome := by
  intro passage isText
  have found := answers passage.advance (passage.rest_advance isText)
  rw [enclosed]
  cases outcome with
  | none =>
      rcases found with ⟨stop, stopped⟩
      rw [stopped]
      cases stop with
      | placed cause offset => exact ⟨_, rfl⟩
      | loose cause stand => exact ⟨_, rfl⟩
  | some value =>
      rcases found with ⟨stand, taken, isClose⟩
      rcases leaves stand after isClose with ⟨next, left, isAfter⟩
      refine ⟨next, ?_, isAfter⟩
      simp only [taken, left]

/-- Where no level is left, no container is opened. -/
theorem enclosed_answers_none (leave : Passage → Passage × Option Cause) (inside : Reading α)
    (text after : List Char) : (enclosed leave inside).Answers 0 text after none :=
  fun _ _ => ⟨_, rfl⟩

end Reading

end TwinSwarm.Json
