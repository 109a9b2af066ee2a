import TwinSwarm.Proofs.Json.Decoder

/-!
# Members in any order

A record is decoded from members in any order, and members that belong to no field do not change
what it is decoded to.  A node is decoded as the kind that it names, wherever the name of the kind
stands among its members.
-/

namespace TwinSwarm.Json

variable {α : Type} {types : List Type} {members : List (Entry Json)}

/-- A name that none of the members has, in any order. -/
theorem notMem_keys_of_perm {name : String} {shown added : List (Entry Json)}
    (reordered : shown.Perm (members ++ added)) (unknown : name ∉ members.map Entry.key)
    (foreign : ∀ member ∈ added, member.key ≠ name) : name ∉ shown.map Entry.key := by
  rw [(reordered.map Entry.key).mem_iff, List.map_append, List.mem_append, not_or]
  refine ⟨unknown, fun isAdded => ?_⟩
  rcases List.mem_map.mp isAdded with ⟨member, isAdded, isName⟩
  exact foreign member isAdded isName

/-! ## Records -/

/-- The members hold some of the fields in order, and each is decoded to its value.  The other
fields may be absent. -/
inductive Fields.HoldsSome : {types : List Type} → Fields Buffered types → List (Entry Json) →
    Values types → Prop where
  | nil : HoldsSome .nil [] ()
  | given {α : Type} {types : List Type} {field : Field Buffered α} {rest : Fields Buffered types}
      {document : Json} {members : List (Entry Json)} {value : α} {values : Values types} :
      field.decoder document = .ok value → HoldsSome rest members values →
        HoldsSome (.cons field rest) (⟨field.name, document⟩ :: members) (value, values)
  | absent {α : Type} {types : List Type} {field : Field Buffered α} {rest : Fields Buffered types}
      {members : List (Entry Json)} {value : α} {values : Values types} :
      field.absent = some value → HoldsSome rest members values →
        HoldsSome (.cons field rest) members (value, values)

theorem Fields.HoldsSome.keys_subset {fields : Fields Buffered types} {values : Values types}
    (holds : fields.HoldsSome members values) : members.map Entry.key ⊆ fields.names := by
  induction holds with
  | nil => exact List.Subset.refl _
  | given _ _ fromRest => exact List.cons_subset_cons _ fromRest
  | absent _ _ fromRest => exact List.subset_cons_of_subset _ fromRest

namespace Buffered

/-- The one member that belongs to the first field fills its slot. -/
theorem fillAll_cons_of_member {field : Field Buffered α} {rest : Fields Buffered types}
    {before after : List (Entry Json)} {document : Json} {value : α}
    (decodes : field.decoder document = .ok value) (distinct : field.name ∉ rest.names)
    (others : field.name ∉ (before ++ after).map Entry.key) (slots : Slots types) :
    fillAll (.cons field rest) (before ++ ⟨field.name, document⟩ :: after) (none, slots) =
      (fillAll rest (before ++ ⟨field.name, document⟩ :: after) slots).map (some value, ·) := by
  induction before generalizing slots with
  | nil =>
      have ignored : fill rest ⟨field.name, document⟩ slots = .ok slots :=
        fill_of_notMem rest slots distinct
      simp only [List.nil_append, fillAll, fill, if_pos, decodes, ignored]
      exact fillAll_cons field rest others (some value) slots
  | cons member before fromNext =>
      rw [List.cons_append, List.map_cons, List.mem_cons, not_or] at others
      simp only [List.cons_append, fillAll, fill, if_neg (Ne.symm others.1)]
      cases fill rest member slots with
      | error cause => rfl
      | ok next => exact fromNext others.2 next

theorem fillAll_nil (members : List (Entry Json)) : fillAll .nil members () = .ok () := by
  induction members with
  | nil => rfl
  | cons member members fromNext => exact fromNext

/-- The slots are filled from members in any order. -/
theorem exists_fillAll {fields : Fields Buffered types} {values : Values types}
    {shown added : List (Entry Json)} (holds : fields.HoldsSome members values)
    (distinct : fields.names.Nodup) (foreign : ∀ member ∈ added, member.key ∉ fields.names)
    (reordered : shown.Perm (members ++ added)) :
    ∃ slots, fillAll fields shown (.empty types) = .ok slots ∧
      fields.finish slots = .ok values := by
  induction holds generalizing added with
  | nil => exact ⟨(), fillAll_nil shown, rfl⟩
  | @given α types field rest document members value values decodes holds fromRest =>
      have distinct := List.nodup_cons.mp distinct
      have foreign (member : Entry Json) (isAdded : member ∈ added) :=
        not_or.mp (List.mem_cons.not.mp (foreign member isAdded))
      have isMember : ⟨field.name, document⟩ ∈ shown :=
        reordered.mem_iff.mpr List.mem_cons_self
      -- Wherever the member of the first field stands, the rest are filled from what is around it.
      rcases List.append_of_mem isMember with ⟨before, after, rfl⟩
      have reordered : (before ++ after).Perm (members ++ added) :=
        (List.perm_middle.symm.trans reordered).cons_inv
      have others : field.name ∉ (before ++ after).map Entry.key :=
        notMem_keys_of_perm reordered (fun isKept => distinct.1 (holds.keys_subset isKept))
          fun member isAdded => (foreign member isAdded).1
      -- For the other fields this member is one more of an unknown name.
      rcases fromRest distinct.2
        (List.forall_mem_cons.mpr ⟨distinct.1, fun member isAdded => (foreign member isAdded).2⟩)
        (List.perm_middle.trans ((reordered.cons _).trans List.perm_middle.symm)) with
        ⟨slots, areFilled, areFinished⟩
      refine ⟨(some value, slots), ?_, ?_⟩
      · rw [Slots.empty, fillAll_cons_of_member decodes distinct.1 others, areFilled]
        rfl
      · simp [Fields.finish, areFinished]
  | @absent α types field rest members value values isAbsent holds fromRest =>
      have distinct := List.nodup_cons.mp distinct
      have foreign (member : Entry Json) (isAdded : member ∈ added) :=
        not_or.mp (List.mem_cons.not.mp (foreign member isAdded))
      have others : field.name ∉ shown.map Entry.key :=
        notMem_keys_of_perm reordered (fun isKept => distinct.1 (holds.keys_subset isKept))
          fun member isAdded => (foreign member isAdded).1
      rcases fromRest distinct.2 (fun member isAdded => (foreign member isAdded).2) reordered with
        ⟨slots, areFilled, areFinished⟩
      refine ⟨(none, slots), ?_, ?_⟩
      · rw [Slots.empty, fillAll_cons field rest others, areFilled]
        rfl
      · simp [Fields.finish, isAbsent, areFinished]

/-- A record is decoded from members in any order. -/
theorem record_of_holdsSome {fields : Fields Buffered types} {build : Values types → α}
    {values : Values types} {shown added : List (Entry Json)} (description : String)
    (holds : fields.HoldsSome members values) (distinct : fields.names.Nodup)
    (foreign : ∀ member ∈ added, member.key ∉ fields.names)
    (reordered : shown.Perm (members ++ added)) :
    record description fields build (.object shown) = .ok (build values) := by
  rcases exists_fillAll holds distinct foreign reordered with ⟨slots, areFilled, areFinished⟩
  simp only [record, areFilled, areFinished]
  rfl

/-! ## Nodes -/

/-- Behind members beside the kind of a node, the split goes on. -/
theorem splitMembers_append (variants : List (Variant α)) {before : List (Entry Json)}
    (plain : tagKey ∉ before.map Entry.key) (after : List (Entry Json))
    (found : Option (Variant α)) (others : List (Entry Json)) :
    splitMembers variants (before ++ after) found others =
      splitMembers variants after found (others ++ before) := by
  induction before generalizing others with
  | nil => rw [List.nil_append, List.append_nil]
  | cons member before fromNext =>
      rw [List.map_cons, List.mem_cons, not_or] at plain
      simp only [List.cons_append, splitMembers, if_neg (Ne.symm plain.1), fromNext plain.2,
        List.append_assoc, List.nil_append]

/-- A node is decoded as the kind that it names, wherever the name stands. -/
theorem node_of_member {variants : List (Variant α)} {typeName : String} {variant : Variant α}
    {before after : List (Entry Json)} (description : String)
    (chosen : choose (Variant.entries variants) typeName = .ok variant)
    (plain : tagKey ∉ (before ++ after).map Entry.key) :
    node description variants (.object (before ++ ⟨tagKey, .string typeName⟩ :: after)) =
      variant.body (.object (before ++ after)) := by
  rw [List.map_append, List.mem_append, not_or] at plain
  have named : tag variants (.string typeName) = .ok variant := chosen
  have split : splitMembers variants (before ++ ⟨tagKey, .string typeName⟩ :: after) none [] =
      .ok (some variant, before ++ after) := by
    rw [splitMembers_append variants plain.1]
    simp only [splitMembers, if_pos, named, List.nil_append]
    exact splitMembers_of_plain variants plain.2 (some variant) before
  simp only [node, split]

/-! ## Lists -/

theorem list_of_forall₂ {item : Buffered α} {documents : List Json} {values : List α}
    (decode : List.Forall₂ (fun document value => item document = .ok value) documents values) :
    list item (.array documents) = .ok values := by
  show listItems item documents = .ok values
  induction decode with
  | nil => rfl
  | cons decodes _ fromRest => simp only [listItems, decodes, fromRest]

end Buffered

end TwinSwarm.Json
