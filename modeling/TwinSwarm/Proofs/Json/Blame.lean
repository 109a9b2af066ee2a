import TwinSwarm.Proofs.Json.Outcome

/-!
# What decoders of texts give and why they stop

A decoder of a text gives what its tests accept of the values that it reads, and it stops because of
the form of the text or because a test refuses a value.  The strings of each such value stand in the
text.
-/

namespace TwinSwarm.Json.Reading

variable {α : Type} {types : List Type} {levels : Nat} {text : List Char} {gives : α → Prop}
variable {stops : Cause → Prop} {wanted description : String} {variants : List (Variant α)}

/-- All strings of the value stand in the text. -/
def AllSpelt (text : List Char) (value : Json) : Prop :=
  ∀ name ∈ value.strings, Spelt text name

namespace Meets

theorem of_settled {outcome : Except Cause α} (given : ∀ value, outcome = .ok value → gives value)
    (stopped : ∀ cause, outcome = .error cause → stops cause) :
    Meets (settled outcome) levels text gives stops := by
  cases outcome with
  | ok value => exact .of_pure (given value rfl)
  | error cause => exact .of_halt (stopped cause rfl)

theorem of_settledLater {outcome : Except Cause α}
    (given : ∀ value, outcome = .ok value → gives value)
    (stopped : ∀ cause, outcome = .error cause → stops cause) :
    Meets (settledLater outcome) levels text gives stops := by
  cases outcome with
  | ok value => exact .of_pure (given value rfl)
  | error cause => exact .of_object (stopped cause rfl)

end Meets

section Decoders

variable (faults : ∀ cause : Cause, cause.category ≠ .data → stops cause)

include faults

theorem scalar_meets {test : Json → Except Cause α}
    (given : ∀ document value, AllSpelt text document → test document = .ok value → gives value)
    (stopped : ∀ document cause, AllSpelt text document → test document = .error cause →
      stops cause) : Meets (scalar test) levels text gives stops := by
  have settles (document : Json) (spelt : AllSpelt text document) :
      Meets (settled (test document)) levels text gives stops :=
    .of_settled (fun value => given document value spelt)
      fun cause => stopped document cause spelt
  apply Meets.of_behindSpace
  intro character
  split
  · exact settles (.array []) (List.forall_mem_nil _)
  · exact settles (.object []) (List.forall_mem_nil _)
  · exact .of_bind (kept_meets faults) fun document isKept => settles document isKept.strings

/-- Something of the wrong form is refused. -/
theorem mismatch_meets
    (stopped : ∀ document, AllSpelt text document → stops (.wrongType document.found wanted)) :
    Meets (mismatch wanted : Reading α) levels text gives stops := by
  apply scalar_meets faults
  · intro document value _ isGiven
    cases isGiven
  · rintro document _ spelt ⟨⟩
    exact stopped document spelt

theorem list_meets {item : Reading α}
    (meets : ∀ deeper, levels = deeper + 1 → Meets item deeper text gives stops)
    (stopped : ∀ document, AllSpelt text document →
      stops (.wrongType document.found "a sequence")) :
    Meets (list item) levels text (fun values => ∀ value ∈ values, gives value) stops := by
  apply Meets.of_behindSpace
  intro character
  split
  · exact enclosed_meets faults leaveList_moves fun deeper isDeeper =>
      items_meets faults .keep (meets deeper isDeeper) true
  · exact mismatch_meets faults stopped

/-! ## Nodes -/

/-- A kind is one of those that are known. -/
theorem tag_meets
    (stopped : ∀ document cause, AllSpelt text document →
      Buffered.TagFails (variants.map Variant.tag) document cause → stops cause) :
    Meets (tag variants) levels text (fun variant => variant ∈ variants) stops := by
  apply scalar_meets faults
  · intro document variant _ chosen
    cases document with
    | string name =>
        rcases List.mem_map.mp (Buffered.choose_eq_ok chosen) with ⟨other, isVariant, isSame⟩
        cases isSame
        exact isVariant
    | _ => cases chosen
  · intro document cause spelt refused
    apply stopped document cause spelt
    cases document with
    | string name =>
        rcases Buffered.choose_eq_error refused with ⟨rfl, unknown⟩
        rw [Buffered.map_key_entries] at unknown ⊢
        exact .name unknown
    | _ =>
        cases refused
        exact .form fun _ => Json.noConfusion

/-- What is known of a node that is being read: its kind is known, and its parts are kept. -/
def IsNodeState (variants : List (Variant α)) (levels : Nat) (text : List Char)
    (state : Option (Variant α) × List (Entry Json)) : Prop :=
  (∀ variant ∈ state.1, variant ∈ variants) ∧
    ∀ member ∈ state.2, Spelt text member.key ∧ IsKept levels text member.value

theorem splitMember_meets (repeated : stops (.duplicateField tagKey))
    (stopped : ∀ document cause, AllSpelt text document →
      Buffered.TagFails (variants.map Variant.tag) document cause → stops cause)
    {state : Option (Variant α) × List (Entry Json)} {name : String}
    (holds : IsNodeState variants levels text state) (spelt : Spelt text name) :
    Meets (splitMember variants state name) levels text (IsNodeState variants levels text)
      stops := by
  rcases state with ⟨found, others⟩
  show Meets (if name = tagKey then _ else _) levels text _ stops
  split
  · cases found with
    | some variant => exact .of_object repeated
    | none =>
        apply Meets.of_after (colon_meets faults)
        intro _
        apply Meets.of_map _ (tag_meets faults stopped)
        intro variant isVariant
        refine ⟨?_, holds.2⟩
        rintro _ ⟨⟩
        exact isVariant
  · apply Meets.of_after (colon_meets faults)
    intro _
    apply Meets.of_map _ (kept_meets faults)
    intro value isKept
    have isMember : Spelt text name ∧ IsKept levels text value := ⟨spelt, isKept⟩
    exact ⟨holds.1, List.forall_mem_append.mpr ⟨holds.2, List.forall_mem_singleton.mpr isMember⟩⟩

/-- A node is decoded from parts that are kept, as one of the known kinds. -/
theorem node_meets (missing : stops (.missingField tagKey))
    (repeated : stops (.duplicateField tagKey))
    (tagStopped : ∀ document cause, AllSpelt text document →
      Buffered.TagFails (variants.map Variant.tag) document cause → stops cause)
    (formStopped : ∀ document, AllSpelt text document →
      stops (.wrongType document.found (nodeWanted description)))
    (bodyGiven : ∀ variant ∈ variants, ∀ rest value, IsKept levels text rest →
      variant.body rest = .ok value → gives value)
    (bodyStopped : ∀ variant ∈ variants, ∀ rest cause, IsKept levels text rest →
      variant.body rest = .error cause → stops cause) :
    Meets (node description variants) levels text gives stops := by
  have body (found : Variant α × Json)
      (isFound : found.1 ∈ variants ∧ IsKept levels text found.2) :
      Meets (settledLater (found.1.body found.2)) levels text gives stops :=
    .of_settledLater (fun value => bodyGiven found.1 isFound.1 found.2 value isFound.2)
      fun cause => bodyStopped found.1 isFound.1 found.2 cause isFound.2
  apply Meets.of_behindSpace
  intro character
  split
  · refine .of_bind (enclosed_meets faults leaveList_moves ?_) body
    rintro deeper rfl
    apply Meets.of_after (nextItem_meets faults .keep true)
    -- The first item of an array is the tag, and what is left of the node is the array behind it.
    rintro (_ | _)
    · exact .of_object missing
    · apply Meets.of_bind (tag_meets faults tagStopped)
      intro variant isVariant
      apply Meets.of_map _ (items_meets faults .keep (kept_meets faults) false)
      intro values areKept
      exact ⟨isVariant, isKept_array areKept⟩
  · refine .of_bind (enclosed_meets faults leaveObject_moves ?_) body
    rintro deeper rfl
    have taken : Meets (foldMembers .keep (splitMember variants) true (none, [])) deeper text
        (IsNodeState variants deeper text) stops := by
      apply foldMembers_meets faults .keep
      · intro state name holds spelt
        exact splitMember_meets faults repeated tagStopped holds (spelt rfl)
      · exact ⟨fun _ isNone => (Option.not_mem_none _ isNone).elim, List.forall_mem_nil _⟩
    apply Meets.of_bind taken
    rintro ⟨_ | variant, others⟩ holds
    · exact .of_object missing
    · exact .of_pure ⟨holds.1 variant rfl, isKept_object holds.2⟩
  · exact mismatch_meets faults formStopped

/-! ## Records with one field -/

variable {β : Type} {decoder : Reading α} {name : String} {build : Values [α] → β}

theorem fill_meets (repeated : stops (.duplicateField name))
    (meets : Meets decoder levels text gives stops) {slots : Slots [α]} (key : String)
    (holds : ∀ value ∈ slots.1, gives value) :
    Meets (fill (.required name decoder .nil) slots key) levels text
      (fun slots => ∀ value ∈ slots.1, gives value) stops := by
  rcases slots with ⟨slot, ⟨⟩⟩
  show Meets (if key = name then _ else _) levels text _ stops
  split
  · cases slot with
    | some value => exact .of_object repeated
    | none =>
        apply Meets.of_after (colon_meets faults)
        intro _
        apply Meets.of_map _ meets
        rintro value isGiven _ ⟨⟩
        exact isGiven
  · refine .of_after ?_ fun _ => .of_pure holds
    apply Meets.of_after (colon_meets faults)
    intro _
    exact .of_after (skipped_meets faults) fun _ => .of_pure trivial

/-- A record with one field that has to be there is made of its value. -/
theorem record_meets (missing : stops (.missingField name))
    (repeated : stops (.duplicateField name))
    (short : stops (.wrongLength 0 (elementsWanted description 1)))
    (formStopped : ∀ document, AllSpelt text document →
      stops (.wrongType document.found description))
    (meets : ∀ deeper, levels = deeper + 1 → Meets decoder deeper text gives stops) :
    Meets (record description (.required name decoder .nil) build) levels text
      (fun made => ∃ value, gives value ∧ build (value, ()) = made) stops := by
  have made (values : Values [α]) (isGiven : gives values.1) :
      ∃ value, gives value ∧ build (value, ()) = build values := ⟨values.1, isGiven, rfl⟩
  apply Meets.of_behindSpace
  intro character
  split
  · refine Meets.of_map build (enclosed_meets faults leaveList_moves ?_) made
    rintro deeper rfl
    apply Meets.of_after (nextItem_meets faults .keep _)
    rintro (_ | _)
    · exact .of_object short
    · exact .of_bind (meets deeper rfl) fun value isGiven => .of_pure isGiven
  · refine Meets.of_map build (enclosed_meets faults leaveObject_moves ?_) made
    rintro deeper rfl
    have taken : Meets (foldMembers .keep (fill (.required name decoder .nil)) true
        (Slots.empty [α])) deeper text (fun slots => ∀ value ∈ slots.1, gives value) stops := by
      apply foldMembers_meets faults .keep
      · intro slots key holds _
        exact fill_meets faults repeated (meets deeper rfl) key holds
      · exact fun _ isNone => (Option.not_mem_none _ isNone).elim
    apply Meets.of_bind taken
    rintro ⟨_ | value, ⟨⟩⟩ holds
    · exact .of_object missing
    · exact .of_pure (holds value rfl)
  · exact mismatch_meets faults formStopped

/-! ## Whole texts -/

theorem wholeText_meets {reading : Reading α} {text : String}
    (meets : Meets reading levelLimit text.toList gives stops) :
    match wholeText reading text with
    | .ok value => gives value
    | .error fault => stops fault.cause := by
  have outcome := meets (.start text.toList) (List.suffix_refl _)
  unfold wholeText
  cases isOutcome : reading levelLimit (.start text.toList) with
  | error stop =>
      rw [isOutcome] at outcome
      exact outcome
  | ok result =>
      rw [isOutcome] at outcome
      dsimp only
      split
      next value isOk =>
        split at isOk
        · cases isOk
          exact outcome.2
        · cases isOk
      next fault isError =>
        split at isError
        · cases isError
        · cases isError
          exact faults .trailingCharacters (by decide)

end Decoders

end TwinSwarm.Json.Reading
