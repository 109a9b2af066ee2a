import TwinSwarm.Proofs.Json.Container
import TwinSwarm.Proofs.Json.Number

/-!
# Documents are read back

What is read where a document has been written is again a document of the same shape,
as long as its arrays and objects do not nest too deeply.  Everything in it is the same
except for doubles, each of which is replaced by the double that its text is read as.
-/

namespace TwinSwarm.Json

variable {α β σ : Type} {levels depth : Nat} {after : List Char}

/-! ## Texts of values -/

theorem Numeral.opens_text {numeral : Numeral} (isWritten : numeral.IsWritten)
    (after : List Char) : Opens (numeral.text ++ after) := by
  unfold Numeral.text
  cases numeral.negative with
  | true => exact ⟨'-', _, rfl, rfl, by decide, by decide⟩
  | false =>
      rw [if_neg Bool.false_ne_true, Numeral.magnitudeText]
      have isWhole := isWritten.whole
      generalize numeral.whole = whole at isWhole ⊢
      cases isWhole with
      | zero => exact ⟨'0', _, rfl, rfl, by decide, by decide⟩
      | @digits first rest notZero areDigits =>
          have isDigit := areDigits first List.mem_cons_self
          refine ⟨first, _, rfl, Reading.isSpace_of_isDigit isDigit, ?_, ?_⟩
          · rintro rfl
            exact absurd isDigit (by decide)
          · rintro rfl
            exact absurd isDigit (by decide)

theorem opens_textAt (depth : Nat) (value : Json) (after : List Char) :
    Opens (textAt depth value after) := by
  match value with
  | .null | .boolean true | .boolean false | .array [] | .array (_ :: _) | .object []
  | .object (_ :: _) => exact ⟨_, _, rfl, rfl, by decide, by decide⟩
  | .integer value =>
      rw [textAt, integerText, ← Numeral.text_ofInteger]
      exact Numeral.opens_text (Numeral.ofInteger_isWritten value) after
  | .float value =>
      rcases value.exists_numeral with ⟨numeral, isWritten, _, isText⟩
      rw [textAt, ← isText]
      exact Numeral.opens_text isWritten after
  | .string value => exact opens_stringText value after

theorem length_le_textAt (depth : Nat) (value : Json) (after : List Char) :
    after.length ≤ (textAt depth value after).length := by
  have split := textAt_append depth value [] after
  rw [List.nil_append] at split
  rw [split, List.length_append]
  exact Nat.le_add_left _ _

/-- A line is longer than what follows the value on it. -/
theorem length_lt_item (depth : Nat) (value : Json) (after : List Char) :
    after.length < (lineText depth (textAt depth value after)).length := by
  have shorter := length_le_textAt depth value after
  rw [lineText, List.length_cons, List.length_append]
  omega

/-- A line is longer than what follows the member on it. -/
theorem length_lt_member (depth : Nat) (key : String) (value : Json) (after : List Char) :
    after.length < (lineText depth (keyText key (textAt depth value after))).length := by
  have shorter := length_le_textAt depth value after
  simp only [lineText, keyText, stringText, List.length_cons, List.length_append]
  omega

theorem Delimits.itemsText (delimits : Delimits after) (depth : Nat) (values : List Json) :
    Delimits (itemsText depth values after) := by
  cases values with
  | nil => exact delimits
  | cons first rest => exact .comma _

theorem Delimits.membersText (delimits : Delimits after) (depth : Nat)
    (members : List (Entry Json)) : Delimits (membersText depth members after) := by
  cases members with
  | nil => exact delimits
  | cons first rest => exact .comma _

namespace Reading

/-! ## Lists and objects -/

section Lists

variable {item : Reading α} {encode : β → Json} {outcome : β → Option α} {values : List β}

/-- If each of several values is answered where it stands, so are all of them. -/
theorem items_answers {outer : Nat}
    (answers : ∀ value ∈ values, ∀ tail, Delimits tail →
      item.Answers levels (textAt depth (encode value) tail) tail (outcome value)) :
    (items .keep item false).Answers levels
      (itemsText depth (values.map encode) (lineText outer (']' :: after))) (']' :: after)
      (values.mapM outcome) := by
  induction values with
  | nil => exact items_answers_end (dropWhile_lineText rfl)
  | cons first rest fromNext =>
      rw [List.map_cons, itemsText, List.mapM_cons]
      apply items_answers_step (nextItem_answers_comma .keep (opens_textAt depth (encode first) _))
      · apply answers first List.mem_cons_self
        exact (Delimits.line outer _).itemsText depth (rest.map encode)
      · exact Nat.lt_succ_of_lt (length_lt_item depth (encode first) _)
      · exact fromNext fun value isMember =>
          answers value (List.mem_cons_of_mem first isMember)

/-- A list is taken apart into its values. -/
theorem list_answers
    (answers : ∀ value ∈ values, ∀ tail, Delimits tail →
      item.Answers levels (textAt (depth + 1) (encode value) tail) tail (outcome value)) :
    (enclosed leaveList (items .keep item true)).Answers (levels + 1)
      (textAt depth (.array (values.map encode)) after) after (values.mapM outcome) := by
  cases values with
  | nil => exact enclosed_answers leaveList_leaves (items_answers_end rfl)
  | cons first rest =>
      rw [List.map_cons, textAt, List.mapM_cons]
      apply enclosed_answers leaveList_leaves
      apply items_answers_step
        (nextItem_answers_first .keep (opens_textAt (depth + 1) (encode first) _))
      · apply answers first List.mem_cons_self
        exact (Delimits.line depth _).itemsText (depth + 1) (rest.map encode)
      · exact length_lt_item (depth + 1) (encode first) _
      · exact items_answers fun value isMember =>
          answers value (List.mem_cons_of_mem first isMember)

end Lists

section Objects

variable {take : σ → String → Reading σ} {step : σ → Entry Json → Option σ}
variable {members : List (Entry Json)} {state : σ}

/-- If each of several members is answered where it stands, so are all of them. -/
theorem foldMembers_answers {outer : Nat}
    (answers : ∀ member ∈ members, ∀ state tail, Delimits tail →
      (take state member.key).Answers levels (':' :: ' ' :: textAt depth member.value tail) tail
        (step state member)) :
    (foldMembers .keep take false state).Answers levels
      (membersText depth members (lineText outer ('\x7d' :: after))) ('\x7d' :: after)
      (members.foldlM step state) := by
  induction members generalizing state with
  | nil => exact foldMembers_answers_end (dropWhile_lineText rfl)
  | cons first rest fromNext =>
      rw [membersText, List.foldlM_cons]
      apply foldMembers_answers_step (nextKey_answers_comma .keep first.key)
      · apply answers first List.mem_cons_self state
        exact (Delimits.line outer _).membersText depth rest
      · exact Nat.lt_succ_of_lt (length_lt_member depth first.key first.value _)
      · intro next _
        exact fromNext fun member isMember =>
          answers member (List.mem_cons_of_mem first isMember)

/-- The members of an object are taken apart behind its opening brace. -/
theorem foldMembers_answers_inside
    (answers : ∀ member ∈ members, ∀ state tail, Delimits tail →
      (take state member.key).Answers levels
        (':' :: ' ' :: textAt (depth + 1) member.value tail) tail (step state member)) :
    (foldMembers .keep take true state).Answers levels (textAt depth (.object members) after).tail
      ('\x7d' :: after) (members.foldlM step state) := by
  cases members with
  | nil => exact foldMembers_answers_end rfl
  | cons first rest =>
      rw [textAt, List.tail_cons, List.foldlM_cons]
      apply foldMembers_answers_step (nextKey_answers_first .keep first.key)
      · apply answers first List.mem_cons_self state
        exact (Delimits.line depth _).membersText (depth + 1) rest
      · exact length_lt_member (depth + 1) first.key first.value _
      · intro next _
        exact foldMembers_answers fun member isMember =>
          answers member (List.mem_cons_of_mem first isMember)

/-- An object is read by the reader of its inside. -/
theorem object_answers {inside : Reading α} {outcome : Option α}
    (answers : inside.Answers levels (textAt depth (.object members) after).tail
      ('\x7d' :: after) outcome) :
    (enclosed leaveObject inside).Answers (levels + 1) (textAt depth (.object members) after) after
      outcome := by
  cases members with
  | nil => exact enclosed_answers leaveObject_leaves answers
  | cons first rest =>
      rw [textAt]
      exact enclosed_answers leaveObject_leaves answers

end Objects

end Reading

/-! ## What is read back -/

mutual

/-- What is read where a value has been written, if no more than so many containers may be
open at a time. -/
def reread? : (levels : Nat) → Json → Option Json
  | _, .null => some .null
  | _, .boolean value => some (.boolean value)
  | _, .integer value => (Numeral.ofInteger value).value.toOption
  | _, .float value => value.reread?.map .float
  | _, .string value => some (.string value)
  | 0, .array _ | 0, .object _ => none
  | levels + 1, .array items => (rereadAll? levels items).map .array
  | levels + 1, .object members => (rereadMembers? levels members).map .object

/-- What is read where the items of an array have been written. -/
def rereadAll? : (levels : Nat) → List Json → Option (List Json)
  | _, [] => some []
  | levels, first :: rest => do
      let value ← reread? levels first
      let values ← rereadAll? levels rest
      return value :: values

/-- What is read where the members of an object have been written. -/
def rereadMembers? : (levels : Nat) → List (Entry Json) → Option (List (Entry Json))
  | _, [] => some []
  | levels, ⟨key, value⟩ :: rest => do
      let value ← reread? levels value
      let members ← rereadMembers? levels rest
      return ⟨key, value⟩ :: members

end

theorem rereadAll?_eq_mapM (levels : Nat) (values : List Json) :
    rereadAll? levels values = values.mapM (reread? levels) := by
  induction values with
  | nil => rfl
  | cons first rest fromNext => rw [rereadAll?, fromNext, List.mapM_cons]

theorem foldl_snoc (members read : List α) :
    members.foldl (fun read member => read ++ [member]) read = read ++ members := by
  induction members generalizing read with
  | nil => rw [List.foldl_nil, List.append_nil]
  | cons first rest fromNext => rw [List.foldl_cons, fromNext, List.append_assoc]; rfl

/-- Members that are read one by one are read as all of them are. -/
theorem foldlM_reread? (put : σ → Entry Json → σ) (levels : Nat) (members : List (Entry Json))
    (state : σ) :
    (members.foldlM (fun state member =>
      (reread? levels member.value).map fun value => put state ⟨member.key, value⟩) state) =
      (rereadMembers? levels members).map (·.foldl put state) := by
  induction members generalizing state with
  | nil => rfl
  | cons first rest fromNext =>
      rw [List.foldlM_cons, rereadMembers?]
      cases reread? levels first.value with
      | none => rfl
      | some value =>
          rw [Option.map_some, Option.bind_eq_bind, Option.bind_some, fromNext]
          cases rereadMembers? levels rest with
          | none => rfl
          | some members => rfl

namespace Reading

theorem word_answers (expected : List Char) :
    (word expected).Answers levels (expected ++ after) after (some ()) := by
  induction expected with
  | nil => exact Answers.of_pure () levels after
  | cons first rest fromNext =>
      apply Answers.of_next
      show Answers (if first = first then _ else _) levels _ after _
      rw [if_pos rfl]
      exact Answers.of_passed fromNext

theorem valueAround_answers_array {inner : Reading Json} {items : List Json}
    {outcome : Option (List Json)}
    (answers : (enclosed leaveList (Reading.items .keep inner true)).Answers levels
      (textAt depth (.array items) after) after outcome) :
    (valueAround .keep inner).Answers levels (textAt depth (.array items) after) after
      (outcome.map .array) := by
  apply Answers.of_behindSpace (opens_textAt depth _ after).dropWhile_eq
  cases items with
  | nil => exact Answers.of_map Json.array answers
  | cons first rest => exact Answers.of_map Json.array answers

theorem valueAround_answers_object {inner : Reading Json} {members : List (Entry Json)}
    {outcome : Option (List (Entry Json))}
    (answers : (enclosed leaveObject (foldMembers .keep (fun members key => do
        colon
        return members ++ [⟨key, ← inner⟩]) true [])).Answers levels
      (textAt depth (.object members) after) after outcome) :
    (valueAround .keep inner).Answers levels (textAt depth (.object members) after) after
      (outcome.map .object) := by
  apply Answers.of_behindSpace (opens_textAt depth _ after).dropWhile_eq
  cases members with
  | nil => exact Answers.of_map Json.object answers
  | cons first rest => exact Answers.of_map Json.object answers

/-- A value is read as what is read back where it has been written. -/
theorem kept_answers_textAt (value : Json) {levels depth : Nat} {after : List Char}
    (delimits : Delimits after) :
    kept.Answers levels (textAt depth value after) after (value.reread? levels) := by
  match value with
  | .null =>
      apply kept_answers
      intro inner
      apply Answers.of_behindSpace rfl
      apply Answers.of_passed
      exact Answers.of_map (fun _ => Json.null) (word_answers ['u', 'l', 'l'])
  | .boolean true =>
      apply kept_answers
      intro inner
      apply Answers.of_behindSpace rfl
      apply Answers.of_passed
      exact Answers.of_map (fun _ => Json.boolean true) (word_answers ['r', 'u', 'e'])
  | .boolean false =>
      apply kept_answers
      intro inner
      apply Answers.of_behindSpace rfl
      apply Answers.of_passed
      exact Answers.of_map (fun _ => Json.boolean false) (word_answers ['a', 'l', 's', 'e'])
  | .integer value =>
      rw [textAt, reread?]
      exact kept_integer_answers value delimits
  | .float value =>
      rw [textAt, reread?]
      exact kept_float_answers value delimits
  | .string value =>
      rw [textAt, reread?]
      apply kept_answers
      intro inner
      apply Answers.of_behindSpace rfl
      apply Answers.of_passed
      exact Answers.of_map Json.string (stringBody_answers .keep value)
  | .array items =>
      cases levels with
      | zero => exact valueAround_answers_array (enclosed_answers_none _ _ _ after)
      | succ levels =>
          rw [reread?, rereadAll?_eq_mapM]
          -- The items inside are read one level deeper, which is where the recursion goes on.
          have answers : (enclosed leaveList
              (Reading.items .keep (fun _ => Reading.value .keep levels) true)).Answers (levels + 1)
              (textAt depth (.array (items.map fun item => item)) after) after _ :=
            list_answers fun item isMember tail delimits => kept_answers_textAt item delimits
          rw [List.map_id'] at answers
          exact valueAround_answers_array answers
  | .object members =>
      cases levels with
      | zero => exact valueAround_answers_object (enclosed_answers_none _ _ _ after)
      | succ levels =>
          have read := foldlM_reread? (fun read member => read ++ [member]) levels members []
          simp only [foldl_snoc, List.nil_append, Option.map_id'] at read
          rw [reread?, ← read]
          apply valueAround_answers_object
          apply object_answers
          apply foldMembers_answers_inside
          intro member isMember state tail delimits
          apply Answers.of_taken colon_answers
          have answers : kept.Answers levels (' ' :: textAt (depth + 1) member.value tail) tail _ :=
            Answers.of_skipsSpace kept_skipsSpace (opens_textAt _ _ _).dropWhile_space
              (kept_answers_textAt member.value delimits)
          change Answers (fun _ => Reading.value .keep levels) levels _ tail _ at answers
          exact Answers.of_map (fun value => state ++ [⟨member.key, value⟩]) answers
  termination_by sizeOf value
  decreasing_by
    · have smaller := List.sizeOf_lt_of_mem isMember
      simp only [Json.array.sizeOf_spec]
      omega
    · have smaller := List.sizeOf_lt_of_mem isMember
      cases member
      simp only [Json.object.sizeOf_spec, Entry.mk.sizeOf_spec] at *
      omega

/-- A string that belongs to no field is passed over. -/
theorem skipped_answers_string (text : String) :
    skipped.Answers levels (' ' :: stringText text after) after (some ()) := by
  have valueSkipped (inner : Reading Json) (levels : Nat) :
      (valueAround .skip inner).Answers levels (' ' :: stringText text after) after
        (some (.string text)) := by
    apply Answers.of_behindSpace rfl
    apply Answers.of_passed
    exact Answers.of_map Json.string (stringBody_answers .skip text)
  intro passage isText
  have found : ∃ next, Reading.value .skip passage.size passage = .ok (.string text, next) ∧
      next.rest = after := by
    cases passage.size with
    | zero => exact valueSkipped _ 0 passage isText
    | succ size => exact valueSkipped _ (size + 1) passage isText
  rcases found with ⟨next, taken, isAfter⟩
  refine ⟨next, ?_, isAfter⟩
  rw [skipped, taken]

end Reading

end TwinSwarm.Json
