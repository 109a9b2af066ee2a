import TwinSwarm.Proofs.Json.Document
import TwinSwarm.Tree.ToJson

/-!
# Records and nodes are decoded as they are written

A record that is written with its fields in order is decoded field by field, and so is
the rest of a node once the name of its kind has been taken out.  What remains to be
shown for each kind is that the fields are the ones that are written.
-/

namespace TwinSwarm.Json

variable {α : Type} {types : List Type}

/-! ## Heights -/

theorem height_le_heightOfAll {value : Json} {values : List Json} (isMember : value ∈ values) :
    value.height ≤ heightOfAll values := by
  induction isMember with
  | head rest => exact Nat.le_max_left _ _
  | tail first _ fromRest => exact Nat.le_trans fromRest (Nat.le_max_right _ _)

theorem height_le_heightOfMembers {key : String} {value : Json} {members : List (Entry Json)}
    (isMember : ⟨key, value⟩ ∈ members) : value.height ≤ heightOfMembers members := by
  induction isMember with
  | head rest => exact Nat.le_max_left _ _
  | tail first _ fromRest => exact Nat.le_trans fromRest (Nat.le_max_right _ _)

/-- A part of a node is not as high as the node. -/
theorem height_lt_node {typeName key : String} {value : Json} {parts : List (Entry Json)}
    (isPart : ⟨key, value⟩ ∈ parts) : value.height < (Json.node typeName parts).height :=
  Nat.lt_succ_of_le (height_le_heightOfMembers (List.mem_cons_of_mem _ isPart))

/-- An item of a list that is a part of a node is not as high as the node either. -/
theorem height_lt_node_of_item {typeName key : String} {item : Json} {items : List Json}
    {parts : List (Entry Json)} (isItem : item ∈ items) (isPart : ⟨key, .array items⟩ ∈ parts) :
    item.height < (Json.node typeName parts).height :=
  calc item.height ≤ heightOfAll items := height_le_heightOfAll isItem
    _ < (Json.array items).height := Nat.lt_succ_self _
    _ < (Json.node typeName parts).height := height_lt_node isPart

/-! ## Records -/

namespace Fields

/-- The names of the fields. -/
def names {D : Type → Type} : {types : List Type} → Fields D types → List String
  | _, .nil => []
  | _, .cons field rest => field.name :: rest.names

/-- The members hold the fields in order, and each is decoded to its value. -/
inductive Holds : {types : List Type} → Fields Buffered types → List (Entry Json) →
    Values types → Prop where
  | nil : Holds .nil [] ()
  | cons {α : Type} {types : List Type} {field : Field Buffered α}
      {rest : Fields Buffered types} {document : Json} {members : List (Entry Json)} {value : α}
      {values : Values types} :
      field.decoder document = .ok value → Holds rest members values →
        Holds (.cons field rest) (⟨field.name, document⟩ :: members) (value, values)

theorem Holds.keys {fields : Fields Buffered types} {members : List (Entry Json)}
    {values : Values types} (holds : fields.Holds members values) :
    members.map Entry.key = fields.names := by
  induction holds with
  | nil => rfl
  | cons _ _ fromRest => rw [List.map_cons, names, fromRest]

/-- The slots of fields that have all been found. -/
def filled : {types : List Type} → Values types → Slots types
  | [], () => ()
  | _ :: _, (value, values) => (some value, filled values)

theorem finish_filled {D : Type → Type} : {types : List Type} → (fields : Fields D types) →
    (values : Values types) → fields.finish (filled values) = .ok values
  | _, .nil, () => rfl
  | _, .cons field rest, (value, values) => by
      rw [filled, finish, finish_filled rest values]
      rfl

end Fields

namespace Buffered

/-- A member that belongs to no field changes nothing. -/
theorem fill_of_notMem : {types : List Type} → (fields : Fields Buffered types) →
    {member : Entry Json} → (slots : Slots types) → member.key ∉ fields.names →
      fill fields member slots = .ok slots
  | _, .nil, _, _, _ => rfl
  | _, .cons field rest, member, (slot, slots), unknown => by
      rw [Fields.names, List.mem_cons, not_or] at unknown
      simp only [fill, if_neg unknown.1, fill_of_notMem rest slots unknown.2]

/-- Members that do not belong to the first field leave its slot alone. -/
theorem fillAll_cons (field : Field Buffered α) (rest : Fields Buffered types)
    {members : List (Entry Json)} (others : field.name ∉ members.map Entry.key)
    (slot : Option α) (slots : Slots types) :
    fillAll (.cons field rest) members (slot, slots) =
      (fillAll rest members slots).map (slot, ·) := by
  induction members generalizing slots with
  | nil => rfl
  | cons member members fromNext =>
      rw [List.map_cons, List.mem_cons, not_or] at others
      simp only [fillAll, fill, if_neg (Ne.symm others.1)]
      cases fill rest member slots with
      | error cause => rfl
      | ok next => exact fromNext others.2 next

theorem fillAll_of_holds {fields : Fields Buffered types} {members : List (Entry Json)}
    {values : Values types} (holds : fields.Holds members values)
    (distinct : fields.names.Nodup) :
    fillAll fields members (.empty types) = .ok (Fields.filled values) := by
  induction holds with
  | nil => rfl
  | @cons α types field rest document members value values decoded holds fromRest =>
      rw [Fields.names, List.nodup_cons, ← holds.keys] at distinct
      simp only [fillAll, Slots.empty, fill, if_pos, decoded]
      rw [fillAll_cons field rest distinct.1, fromRest (holds.keys ▸ distinct.2)]
      rfl

/-- A record is decoded from its fields. -/
theorem record_of_holds {fields : Fields Buffered types} {build : Values types → α}
    {members : List (Entry Json)} {values : Values types} {result : α} (description : String)
    (names : List String) (named : fields.names = names) (distinct : names.Nodup)
    (holds : fields.Holds members values) (built : build values = result) :
    record description fields build (.object members) = .ok result := by
  subst named built
  rw [record]
  simp only [fillAll_of_holds holds distinct, Fields.finish_filled]
  rfl

/-- A record whose kind is not looked at is decoded from its fields as well. -/
theorem record_of_node {fields : Fields Buffered types} {build : Values types → α}
    {members : List (Entry Json)} {values : Values types} {result : α}
    (description typeName : String) (names : List String) (named : fields.names = names)
    (distinct : (tagKey :: names).Nodup) (holds : fields.Holds members values)
    (built : build values = result) :
    record description fields build (.node typeName members) = .ok result := by
  subst named built
  rw [List.nodup_cons] at distinct
  have ignored : fill fields ⟨tagKey, .string typeName⟩ (.empty types) = .ok (.empty types) :=
    fill_of_notMem fields _ distinct.1
  have filled := fillAll_of_holds holds distinct.2
  rw [tagKey] at ignored
  simp only [Json.node, record, fillAll, ignored, filled, Fields.finish_filled]
  rfl

/-! ## Nodes -/

/-- Members beside the kind of a node are kept in order. -/
theorem splitMembers_of_plain (variants : List (Variant α)) {members : List (Entry Json)}
    (plain : tagKey ∉ members.map Entry.key) (found : Option (Variant α))
    (others : List (Entry Json)) :
    splitMembers variants members found others = .ok (found, others ++ members) := by
  induction members generalizing others with
  | nil => rw [splitMembers, List.append_nil]
  | cons member members fromNext =>
      rw [List.map_cons, List.mem_cons, not_or] at plain
      simp only [splitMembers, if_neg (Ne.symm plain.1), fromNext plain.2, List.append_assoc]
      rfl

/-- A node is decoded as the kind that it names. -/
theorem node_of_choose {variants : List (Variant α)} {typeName : String} {variant : Variant α}
    {members : List (Entry Json)} (description : String)
    (chosen : choose (Variant.entries variants) typeName = .ok variant)
    (plain : tagKey ∉ members.map Entry.key) :
    node description variants (.node typeName members) = variant.body (.object members) := by
  have named : tag variants (.string typeName) = .ok variant := chosen
  have split := splitMembers_of_plain variants plain (some variant) []
  rw [List.nil_append] at split
  have isTag : (⟨"type", .string typeName⟩ : Entry Json).key = tagKey := rfl
  simp only [Json.node, node, splitMembers, if_pos isTag, named, split]

/-- A node whose kind is a record is decoded from the fields of the record. -/
theorem node_of_holds {variants : List (Variant α)} {typeName described : String}
    {fields : Fields Buffered types} {build : Values types → α} {members : List (Entry Json)}
    {values : Values types} {result : α} (description : String) (names : List String)
    (chosen : choose (Variant.entries variants) typeName =
      .ok ⟨typeName, record described fields build⟩)
    (named : fields.names = names) (distinct : (tagKey :: names).Nodup)
    (holds : fields.Holds members values) (built : build values = result) :
    node description variants (.node typeName members) = .ok result := by
  subst named built
  rw [List.nodup_cons] at distinct
  have plain : tagKey ∉ members.map Entry.key := by
    rw [holds.keys]
    exact distinct.1
  rw [node_of_choose description chosen plain]
  exact record_of_holds described fields.names rfl distinct.2 holds rfl

/-! ## Numbers, lists and optional values -/

theorem natural_integer {number : Nat} (fits : number < 2 ^ 64) :
    (Medium.natural : Buffered Nat) (.integer number) = .ok number := by
  have inRange : 0 ≤ (number : Int) ∧ (number : Int) < UInt64.size := by
    rw [UInt64.size]
    omega
  simp only [Medium.natural, Medium.scalar, if_pos inRange, Int.toNat_natCast]

theorem list_of_decodes {item : Buffered α} {encode : α → Json} {values : List α}
    (decodes : ∀ value ∈ values, item (encode value) = .ok value) :
    list item (.array (values.map encode)) = .ok values := by
  show listItems item (values.map encode) = .ok values
  induction values with
  | nil => rfl
  | cons first rest fromNext =>
      have others := fromNext fun value isMember =>
        decodes value (List.mem_cons_of_mem first isMember)
      simp only [List.map_cons, listItems, decodes first List.mem_cons_self, others]

theorem optional_of_decodes {decoder : Buffered α} {document : Json} {value : α}
    (notNull : document ≠ .null) (decodes : decoder document = .ok value) :
    optional decoder document = .ok (some value) := by
  cases document with
  | null => exact absurd rfl notNull
  | _ => simp only [optional, decodes]

end Buffered

/-! ## Nodes in texts -/

namespace Reading

variable {levels depth : Nat} {after : List Char} {variants : List (Variant α)}
variable {typeName : String} {kind : Variant α} {parts : List (Entry Json)}

/-- The name of a kind is read behind the colon. -/
theorem tag_answers (chosen : choose (Variant.entries variants) typeName = .ok kind)
    (delimits : Delimits after) :
    (tag variants).Answers levels (' ' :: textAt depth (.string typeName) after) after
      (some kind) := by
  have read : kept.Answers levels (textAt depth (.string typeName) after) after _ :=
    kept_answers_textAt (.string typeName) delimits
  apply Answers.of_behindSpace rfl
  apply Answers.of_taken read
  rw [chooseString, chosen]
  exact Answers.of_pure kind levels after

theorem foldl_snoc_others (found : Option (Variant α)) (read others : List (Entry Json)) :
    read.foldl (fun state member => (state.1, state.2 ++ [member])) (found, others) =
      (found, others ++ read) := by
  induction read generalizing others with
  | nil => rw [List.foldl_nil, List.append_nil]
  | cons first rest fromNext => rw [List.foldl_cons, fromNext, List.append_assoc]; rfl

/-- Behind the kind of a node, its parts are kept in order. -/
theorem foldMembers_answers_parts {found : Option (Variant α)} {outer : Nat}
    (plain : tagKey ∉ parts.map Entry.key) :
    (foldMembers .keep (splitMember variants) false (found, [])).Answers levels
      (membersText depth parts (lineText outer ('\x7d' :: after))) ('\x7d' :: after)
      ((rereadMembers? levels parts).map fun read => (found, read)) := by
  have read := foldlM_reread? (fun state member => (state.1, state.2 ++ [member])) levels parts
    (found, [])
  simp only [foldl_snoc_others, List.nil_append] at read
  rw [← read]
  apply foldMembers_answers
  rintro member isMember ⟨found, others⟩ tail delimits
  have notTag : member.key ≠ tagKey := fun isTag => plain (isTag ▸ List.mem_map_of_mem isMember)
  show Answers (if member.key = tagKey then _ else _) levels _ tail _
  rw [if_neg notTag]
  apply Answers.of_taken colon_answers
  have answers : kept.Answers levels (' ' :: textAt depth member.value tail) tail _ :=
    Answers.of_skipsSpace kept_skipsSpace (opens_textAt _ _ _).dropWhile_space
      (kept_answers_textAt member.value delimits)
  exact Answers.of_map (fun value => (found, others ++ [⟨member.key, value⟩])) answers

/-- The members of a node are its kind and, kept in order, its parts. -/
theorem foldMembers_answers_node (chosen : choose (Variant.entries variants) typeName = .ok kind)
    (plain : tagKey ∉ parts.map Entry.key) :
    (foldMembers .keep (splitMember variants) true (none, [])).Answers levels
      (textAt depth (.node typeName parts) after).tail ('\x7d' :: after)
      ((rereadMembers? levels parts).map fun read => (some kind, read)) := by
  have tagTaken : (splitMember variants (none, []) tagKey).Answers levels
      (':' :: ' ' :: textAt (depth + 1) (.string typeName)
        (membersText (depth + 1) parts (lineText depth ('\x7d' :: after))))
      (membersText (depth + 1) parts (lineText depth ('\x7d' :: after)))
      (some (some kind, [])) := by
    rw [splitMember, if_pos rfl]
    apply Answers.of_taken colon_answers
    apply Answers.of_taken
      (tag_answers chosen ((Delimits.line depth _).membersText (depth + 1) parts))
    exact Answers.of_pure _ levels _
  have partsTaken : (foldMembers .keep (splitMember variants) false (some kind, [])).Answers levels
      (membersText (depth + 1) parts (lineText depth ('\x7d' :: after))) ('\x7d' :: after) _ :=
    foldMembers_answers_parts plain
  change Answers _ levels (lineText (depth + 1) (keyText tagKey _)) _
    ((some (some kind, ([] : List (Entry Json)))).bind fun _ =>
      (rereadMembers? levels parts).map fun read => (some kind, read))
  apply foldMembers_answers_step (nextKey_answers_first .keep tagKey) tagTaken
  · exact length_lt_member (depth + 1) tagKey (.string typeName) _
  · intro next isNext
    cases isNext
    exact partsTaken

theorem nodeMembers_answers (chosen : choose (Variant.entries variants) typeName = .ok kind)
    (plain : tagKey ∉ parts.map Entry.key) :
    (nodeMembers variants).Answers levels (textAt depth (.node typeName parts) after).tail
      ('\x7d' :: after) ((rereadMembers? levels parts).map fun read => (kind, .object read)) := by
  rw [Option.map_eq_bind]
  apply Answers.of_mapped (foldMembers_answers_node chosen plain)
  intro read
  exact Answers.of_pure (kind, Json.object read) levels _

/-- A node in a text is decoded as the kind that it names, from what is read back of its
parts. -/
theorem node_answers (description : String)
    (chosen : choose (Variant.entries variants) typeName = .ok kind)
    (plain : tagKey ∉ parts.map Entry.key) :
    (node description variants).Answers (levels + 1) (textAt depth (.node typeName parts) after)
      after ((rereadMembers? levels parts).bind fun read =>
        (kind.body (.object read)).toOption) := by
  apply Answers.of_behindSpace (opens_textAt depth _ after).dropWhile_eq
  apply Answers.of_mapped (object_answers (nodeMembers_answers chosen plain))
  intro read
  exact Answers.of_settledLater (kind.body (.object read)) (levels + 1) after

/-! ## Records and lists in texts -/

/-- A record in a text is decoded by the reader of its members. -/
theorem record_answers {fields : Fields Reading types} {build : Values types → α}
    {members : List (Entry Json)} {outcome : Option (Values types)} (description : String)
    (inside : (recordMembers fields).Answers levels (textAt depth (.object members) after).tail
      ('\x7d' :: after) outcome) :
    (record description fields build).Answers (levels + 1) (textAt depth (.object members) after)
      after (outcome.map build) := by
  apply Answers.of_behindSpace (opens_textAt depth _ after).dropWhile_eq
  have taken := Answers.of_map build (object_answers inside)
  cases members with
  | nil => exact taken
  | cons first rest => exact taken

/-- A list behind a colon is decoded item by item. -/
theorem list_answers_space {β : Type} {item : Reading α} {encode : β → Json}
    {outcome : β → Option α} {values : List β}
    (answers : ∀ value ∈ values, ∀ tail, Delimits tail →
      item.Answers levels (textAt (depth + 1) (encode value) tail) tail (outcome value)) :
    (list item).Answers (levels + 1) (' ' :: textAt depth (.array (values.map encode)) after) after
      (values.mapM outcome) := by
  have taken : (enclosed leaveList (items .keep item true)).Answers (levels + 1)
      (textAt depth (.array (values.map encode)) after) after _ := list_answers answers
  apply Answers.of_behindSpace (opens_textAt depth _ after).dropWhile_space
  cases values with
  | nil => exact taken
  | cons first rest => exact taken

end Reading

end TwinSwarm.Json
