import TwinSwarm.Proofs.Json.Decoder
import TwinSwarm.Proofs.Json.Leaves

/-!
# What decoded values are drawn from

The values of a record come from the parts of its document, or they stand for fields that the
document does not give.  If a record is refused, then for the sake of one of its parts or of its
outer form.  The same holds of lists and nodes.
-/

namespace TwinSwarm.Json

variable {α : Type} {types : List Type} {among : List Json} {document part : Json}
variable {cause : Cause}

/-! ## Parts of documents -/

/-- The values of which a value is put together. -/
def parts : Json → List Json
  | .array items => items
  | .object members => members.map Entry.value
  | _ => []

/-- A document that is neither an array nor an object. -/
def IsScalar : Json → Prop
  | .array _ | .object _ => False
  | _ => True

theorem nesting_le_nestingOfAll {values : List Json} (isMember : part ∈ values) :
    part.nesting ≤ nestingOfAll values :=
  nestingOfAll_le_iff.mp (Nat.le_refl _) part isMember

theorem leavesOfMembers_eq (members : List (Entry Json)) :
    leavesOfMembers members = leavesOfAll (members.map Entry.value) := by
  induction members with
  | nil => rfl
  | cons member members fromNext => rw [leavesOfMembers, List.map_cons, leavesOfAll, fromNext]

theorem nestingOfMembers_eq (members : List (Entry Json)) :
    nestingOfMembers members = nestingOfAll (members.map Entry.value) := by
  induction members with
  | nil => rfl
  | cons member members fromNext =>
      rw [nestingOfMembers, List.map_cons, nestingOfAll, fromNext]

theorem nesting_eq_of_object (members : List (Entry Json)) :
    (Json.object members).nesting = nestingOfAll (members.map Entry.value) + 1 := by
  rw [nesting, nestingOfMembers_eq]

theorem nesting_lt_of_part (isPart : part ∈ document.parts) : part.nesting < document.nesting := by
  cases document with
  | array items => exact Nat.lt_succ_of_le (nesting_le_nestingOfAll isPart)
  | object members =>
      rw [nesting_eq_of_object]
      exact Nat.lt_succ_of_le (nesting_le_nestingOfAll isPart)
  | _ => cases isPart

theorem height_pos (document : Json) : 0 < document.height := by
  cases document <;> simp [height]

theorem height_lt_of_part (isPart : part ∈ document.parts) : part.height < document.height := by
  cases document with
  | array items => exact Nat.lt_succ_of_le (height_le_heightOfAll isPart)
  | object members =>
      rcases List.mem_map.mp isPart with ⟨⟨key, value⟩, isMember, rfl⟩
      exact Nat.lt_succ_of_le (height_le_heightOfMembers isMember)
  | _ => cases isPart

mutual

/-- The strings and the keys in a value. -/
def strings : Json → List String
  | .string text => [text]
  | .array items => stringsOfAll items
  | .object members => stringsOfMembers members
  | _ => []

/-- The strings and the keys in several values. -/
def stringsOfAll : List Json → List String
  | [] => []
  | first :: rest => strings first ++ stringsOfAll rest

/-- The strings and the keys in several members. -/
def stringsOfMembers : List (Entry Json) → List String
  | [] => []
  | ⟨key, value⟩ :: rest => key :: (strings value ++ stringsOfMembers rest)

end

theorem mem_stringsOfAll {text : String} {values : List Json} :
    text ∈ stringsOfAll values ↔ ∃ value ∈ values, text ∈ value.strings := by
  induction values with
  | nil => simp [stringsOfAll]
  | cons first rest fromRest => simp [stringsOfAll, fromRest]

theorem mem_stringsOfMembers {text : String} {members : List (Entry Json)} :
    text ∈ stringsOfMembers members ↔
      ∃ member ∈ members, text = member.key ∨ text ∈ member.value.strings := by
  induction members with
  | nil => simp [stringsOfMembers]
  | cons first rest fromRest => simp [stringsOfMembers, fromRest, or_assoc]

theorem strings_subset_of_part (isPart : part ∈ document.parts) :
    part.strings ⊆ document.strings := by
  intro text isString
  cases document with
  | array items => exact mem_stringsOfAll.mpr ⟨part, isPart, isString⟩
  | object members =>
      rcases List.mem_map.mp isPart with ⟨member, isMember, rfl⟩
      exact mem_stringsOfMembers.mpr ⟨member, isMember, .inr isString⟩
  | _ => cases isPart

/-! ## Values of records -/

/-- An object with the name of its kind, if it has one, and its parts. -/
def headed : Option String → List (Entry Json) → Json
  | some typeName, parts => .node typeName parts
  | none, parts => .object parts

namespace Fields

/-- Each value is that of a part, or it stands for a field that is not given. -/
inductive Drawn (among : List Json) : {types : List Type} → Fields Buffered types →
    Values types → Prop where
  | nil : Drawn among .nil ()
  | read {α : Type} {types : List Type} {field : Field Buffered α} {rest : Fields Buffered types}
      {part : Json} {value : α} {values : Values types} :
      part ∈ among → field.decoder part = .ok value → Drawn among rest values →
        Drawn among (.cons field rest) (value, values)
  | given {α : Type} {types : List Type} {field : Field Buffered α} {rest : Fields Buffered types}
      {value : α} {values : Values types} :
      field.absent = some value ∨ field.beyond = some value → Drawn among rest values →
        Drawn among (.cons field rest) (value, values)

/-- What a field refuses: a part that does not decode, or two parts or none for it. -/
inductive Fails (among : List Json) : {types : List Type} → Fields Buffered types → Cause →
    Prop where
  | part {α : Type} {types : List Type} {field : Field Buffered α} {rest : Fields Buffered types}
      {part : Json} {cause : Cause} :
      part ∈ among → field.decoder part = .error cause → Fails among (.cons field rest) cause
  | missing {α : Type} {types : List Type} (field : Field Buffered α)
      (rest : Fields Buffered types) :
      Fails among (.cons field rest) (.missingField field.name)
  | repeated {α : Type} {types : List Type} (field : Field Buffered α)
      (rest : Fields Buffered types) :
      Fails among (.cons field rest) (.duplicateField field.name)
  | later {α : Type} {types : List Type} {field : Field Buffered α} {rest : Fields Buffered types}
      {cause : Cause} : Fails among rest cause → Fails among (.cons field rest) cause

/-- Each value that has been found is that of a part. -/
def FoundAmong (among : List Json) :
    {types : List Type} → Fields Buffered types → Slots types → Prop
  | _, .nil, _ => True
  | _, .cons field rest, (slot, slots) =>
      (∀ value ∈ slot, ∃ part ∈ among, field.decoder part = .ok value) ∧ rest.FoundAmong among slots

theorem foundAmong_empty : {types : List Type} → (fields : Fields Buffered types) →
    fields.FoundAmong among (.empty types)
  | _, .nil => trivial
  | _, .cons _ rest => ⟨fun _ none => (Option.not_mem_none _ none).elim, foundAmong_empty rest⟩

/-- When all members have been taken, each field has its value, or it is missing. -/
theorem finish_foundAmong : {types : List Type} → (fields : Fields Buffered types) →
    {slots : Slots types} → fields.FoundAmong among slots →
      match fields.finish slots with
      | .ok values => fields.Drawn among values
      | .error cause => fields.Fails among cause
  | _, .nil, _, _ => .nil
  | _, .cons field rest, (slot, slots), found => by
      have others := finish_foundAmong rest found.2
      rw [finish]
      cases isTaken : (slot <|> field.absent) with
      | none => exact .missing field rest
      | some value =>
          cases isRest : rest.finish slots with
          | error cause =>
              rw [isRest] at others
              exact .later others
          | ok values =>
              rw [isRest] at others
              cases slot with
              | none => exact .given (.inl isTaken) others
              | some read =>
                  cases isTaken
                  rcases found.1 value rfl with ⟨part, isPart, decoded⟩
                  exact .read isPart decoded others

end Fields

namespace Buffered

theorem fill_found : {types : List Type} → (fields : Fields Buffered types) →
    {member : Entry Json} → {slots : Slots types} → member.value ∈ among →
      fields.FoundAmong among slots →
        match fill fields member slots with
        | .ok slots => fields.FoundAmong among slots
        | .error cause => fields.Fails among cause
  | _, .nil, _, _, _, found => found
  | _, .cons field rest, member, (slot, slots), isPart, found => by
      by_cases isField : member.key = field.name
      · simp only [fill, if_pos isField]
        cases slot with
        | some value => exact .repeated field rest
        | none =>
            cases decoded : field.decoder member.value with
            | error cause => exact .part isPart decoded
            | ok value =>
                refine ⟨?_, found.2⟩
                intro other isValue
                cases isValue
                exact ⟨member.value, isPart, decoded⟩
      · simp only [fill, if_neg isField]
        have others := fill_found rest isPart found.2
        cases isFilled : fill rest member slots with
        | error cause =>
            rw [isFilled] at others
            exact .later others
        | ok next =>
            rw [isFilled] at others
            exact ⟨found.1, others⟩

theorem fillAll_found {fields : Fields Buffered types} {members : List (Entry Json)}
    {slots : Slots types} (areParts : ∀ member ∈ members, member.value ∈ among)
    (found : fields.FoundAmong among slots) :
    match fillAll fields members slots with
    | .ok slots => fields.FoundAmong among slots
    | .error cause => fields.Fails among cause := by
  induction members generalizing slots with
  | nil => exact found
  | cons member members fromNext =>
      rw [List.forall_mem_cons] at areParts
      have first := fill_found fields areParts.1 found
      rw [fillAll]
      cases isFilled : fill fields member slots with
      | error cause =>
          rw [isFilled] at first
          exact first
      | ok next =>
          rw [isFilled] at first
          exact fromNext areParts.2 first

theorem takeItems_found (wanted : String) : {types : List Type} → (index : Nat) →
    (fields : Fields Buffered types) → {items : List Json} → items ⊆ among →
      match takeItems wanted index fields items with
      | .ok (values, _) => fields.Drawn among values
      | .error cause => fields.Fails among cause ∨ ∃ length, cause = .wrongLength length wanted
  | _, _, .nil, _, _ => .nil
  | _, index, .cons field rest, [], isSubset => by
      have others := takeItems_found wanted (index + 1) rest isSubset
      rw [takeItems]
      -- Behind the last item some fields still have a value.
      cases isBeyond : field.beyond with
      | none => exact .inr ⟨index, rfl⟩
      | some value =>
          cases taken : takeItems wanted (index + 1) rest [] with
          | error cause =>
              rw [taken] at others
              exact others.imp_left .later
          | ok result =>
              rw [taken] at others
              exact .given (.inr isBeyond) others
  | _, index, .cons field rest, item :: items, isSubset => by
      rw [List.cons_subset] at isSubset
      have others := takeItems_found wanted (index + 1) rest isSubset.2
      rw [takeItems]
      cases decoded : field.decoder item with
      | error cause => exact .inl (.part isSubset.1 decoded)
      | ok value =>
          cases taken : takeItems wanted (index + 1) rest items with
          | error cause =>
              rw [taken] at others
              exact others.imp_left .later
          | ok result =>
              rw [taken] at others
              exact .read isSubset.1 decoded others

/-- Why a record is refused: for the sake of a field, of its number of items, or because it is
neither an array nor an object. -/
inductive RecordFails (description : String) (fields : Fields Buffered types) (document : Json) :
    Cause → Prop where
  | field {cause : Cause} : fields.Fails document.parts cause →
      RecordFails description fields document cause
  | short (length : Nat) : RecordFails description fields document
      (.wrongLength length (elementsWanted description fields.count))
  | long (length : Nat) : RecordFails description fields document
      (.wrongLength length (elementCount fields.count ++ " in sequence"))
  | form : RecordFails description fields document (.wrongType document.found description)

/-- A record is put together from values of its parts, or it is refused. -/
theorem record_drawn (description : String) (fields : Fields Buffered types)
    (build : Values types → α) (document : Json) :
    match record description fields build document with
    | .ok result => 0 < document.nesting ∧
        ∃ values, fields.Drawn document.parts values ∧ build values = result
    | .error cause => RecordFails description fields document cause := by
  cases document with
  | object members =>
      have areParts : ∀ member ∈ members, member.value ∈ members.map Entry.value :=
        fun member isMember => List.mem_map_of_mem isMember
      have isFilled := fillAll_found areParts fields.foundAmong_empty
      rw [record]
      cases filled : fillAll fields members (.empty types) with
      | error cause =>
          rw [filled] at isFilled
          exact .field isFilled
      | ok slots =>
          rw [filled] at isFilled
          have isFinished := fields.finish_foundAmong isFilled
          cases finished : fields.finish slots with
          | error cause =>
              rw [finished] at isFinished
              simp only [finished]
              exact .field isFinished
          | ok values =>
              rw [finished] at isFinished
              simp only [finished]
              exact ⟨Nat.succ_pos _, values, isFinished, rfl⟩
  | array items =>
      -- An array gives the fields by their order, and has neither too few nor too many items.
      have isTaken := takeItems_found (elementsWanted description fields.count) 0 fields
        (List.Subset.refl items)
      rw [record]
      cases taken : takeItems (elementsWanted description fields.count) 0 fields items with
      | error cause =>
          rw [taken] at isTaken
          rcases isTaken with fails | ⟨length, rfl⟩
          · exact .field fails
          · exact .short length
      | ok result =>
          rw [taken] at isTaken
          rcases result with ⟨values, _ | ⟨next, others⟩⟩
          · exact ⟨Nat.succ_pos _, values, isTaken, rfl⟩
          · exact .long items.length
  | null | boolean _ | integer _ | float _ | string _ => exact .form

theorem record_eq_ok {description : String} {fields : Fields Buffered types}
    {build : Values types → α} {result : α}
    (decoded : record description fields build document = .ok result) :
    0 < document.nesting ∧
      ∃ values, fields.Drawn document.parts values ∧ build values = result := by
  have drawn := record_drawn description fields build document
  rw [decoded] at drawn
  exact drawn

theorem record_eq_error {description : String} {fields : Fields Buffered types}
    {build : Values types → α} (refused : record description fields build document = .error cause) :
    RecordFails description fields document cause := by
  have drawn := record_drawn description fields build document
  rw [refused] at drawn
  exact drawn

/-! ## Optional values -/

theorem optional_eq_ok {decoder : Buffered α} {result : Option α}
    (decoded : optional decoder document = .ok result) :
    result = none ∨ ∃ value, result = some value ∧ decoder document = .ok value := by
  unfold optional at decoded
  split at decoded
  · cases decoded
    exact .inl rfl
  · split at decoded
    · cases decoded
    next value isValue =>
      cases decoded
      exact .inr ⟨value, rfl, isValue⟩

theorem optional_eq_error {decoder : Buffered α}
    (refused : optional decoder document = .error cause) : decoder document = .error cause := by
  unfold optional at refused
  split at refused
  · cases refused
  · split at refused
    next isRefused =>
      cases refused
      exact isRefused
    · cases refused

end Buffered

/-! ## Fields of each sort -/

namespace Fields

variable {name : String} {rest : Fields Buffered types} {decoder : Buffered α}

theorem drawn_cons {field : Field Buffered α} {values : Values (α :: types)}
    (drawn : Drawn among (.cons field rest) values) :
    ((∃ part ∈ among, field.decoder part = .ok values.1) ∨ field.absent = some values.1 ∨
      field.beyond = some values.1) ∧ rest.Drawn among values.2 := by
  cases drawn with
  | read isPart decoded others => exact ⟨.inl ⟨_, isPart, decoded⟩, others⟩
  | given isGiven others => exact ⟨.inr isGiven, others⟩

/-- A field that has to be there has the value of a part. -/
theorem drawn_required {values : Values (α :: types)}
    (drawn : Drawn among (.required name decoder rest) values) :
    (∃ part ∈ among, decoder part = .ok values.1) ∧ rest.Drawn among values.2 := by
  refine (drawn_cons drawn).imp_left ?_
  rintro (isRead | ⟨⟨⟩⟩ | ⟨⟨⟩⟩)
  exact isRead

/-- A field that may be null has no value or that of a part. -/
theorem drawn_nullable {values : Values (Option α :: types)}
    (drawn : Drawn among (.nullable name decoder rest) values) :
    (values.1 = none ∨ ∃ value, values.1 = some value ∧
      ∃ part ∈ among, decoder part = .ok value) ∧ rest.Drawn among values.2 := by
  refine (drawn_cons drawn).imp_left ?_
  rintro (⟨part, isPart, decoded⟩ | isNone | ⟨⟨⟩⟩)
  · refine (Buffered.optional_eq_ok decoded).imp_right ?_
    rintro ⟨value, isSome, isValue⟩
    exact ⟨value, isSome, part, isPart, isValue⟩
  · exact .inl (Option.some.inj isNone).symm

/-- A field with a value of its own has this value or that of a part. -/
theorem drawn_defaulted {default : α} {values : Values (α :: types)}
    (drawn : Drawn among (.defaulted name default decoder rest) values) :
    (values.1 = default ∨ ∃ part ∈ among, decoder part = .ok values.1) ∧
      rest.Drawn among values.2 := by
  refine (drawn_cons drawn).imp_left ?_
  rintro (isRead | isDefault | isDefault)
  · exact .inr isRead
  · exact .inl (Option.some.inj isDefault).symm
  · exact .inl (Option.some.inj isDefault).symm

end Fields

namespace Buffered

/-! ## Values of lists -/

theorem listItems_eq_ok {item : Buffered α} {items : List Json} {values : List α}
    (decoded : listItems item items = .ok values) :
    ∀ value ∈ values, ∃ part ∈ items, item part = .ok value := by
  induction items generalizing values with
  | nil =>
      cases decoded
      exact List.forall_mem_nil _
  | cons first rest fromRest =>
      rw [listItems] at decoded
      split at decoded
      next => cases decoded
      next value isFirst =>
        split at decoded
        next => cases decoded
        next others isRest =>
          cases decoded
          refine List.forall_mem_cons.mpr ⟨⟨first, List.mem_cons_self, isFirst⟩, ?_⟩
          intro other isOther
          rcases fromRest isRest other isOther with ⟨part, isPart, isValue⟩
          exact ⟨part, List.mem_cons_of_mem first isPart, isValue⟩

/-- The values of a list are those of its items. -/
theorem list_eq_ok {item : Buffered α} {values : List α}
    (decoded : list item document = .ok values) :
    0 < document.nesting ∧ ∀ value ∈ values, ∃ part ∈ document.parts, item part = .ok value := by
  cases document with
  | array items => exact ⟨Nat.succ_pos _, listItems_eq_ok decoded⟩
  | _ => cases decoded

theorem listItems_eq_error {item : Buffered α} {items : List Json}
    (refused : listItems item items = .error cause) :
    ∃ part ∈ items, item part = .error cause := by
  induction items with
  | nil => cases refused
  | cons first rest fromRest =>
      rw [listItems] at refused
      split at refused
      next isFirst =>
        cases refused
        exact ⟨first, List.mem_cons_self, isFirst⟩
      next =>
        split at refused
        next isRest =>
          cases refused
          rcases fromRest isRest with ⟨part, isPart, isRefused⟩
          exact ⟨part, List.mem_cons_of_mem first isPart, isRefused⟩
        next => cases refused

/-- A list is refused for the sake of an item, or because it is no array. -/
theorem list_eq_error {item : Buffered α} (refused : list item document = .error cause) :
    (∃ part ∈ document.parts, item part = .error cause) ∨
      cause = .wrongType document.found "a sequence" := by
  cases document with
  | array items => exact .inl (listItems_eq_error refused)
  | _ =>
      cases refused
      exact .inr rfl

/-! ## Values of nodes -/

variable {variants : List (Variant α)} {description : String}

theorem choose_eq_ok {entries : List (Entry α)} {name : String} {value : α}
    (chosen : choose entries name = .ok value) : ⟨name, value⟩ ∈ entries := by
  unfold choose at chosen
  split at chosen
  next entry found =>
    cases chosen
    have named := List.find?_some found
    simp only [decide_eq_true_eq] at named
    exact named ▸ List.mem_of_find?_eq_some found
  next => cases chosen

/-- A name is refused because no entry has it. -/
theorem choose_eq_error {entries : List (Entry α)} {name : String}
    (refused : choose entries name = .error cause) :
    cause = .unknownVariant name (entries.map Entry.key) ∧ name ∉ entries.map Entry.key := by
  unfold choose at refused
  split at refused
  next => cases refused
  next missing =>
    cases refused
    refine ⟨rfl, ?_⟩
    intro isKey
    rcases List.mem_map.mp isKey with ⟨entry, isMember, rfl⟩
    simpa using List.find?_eq_none.mp missing entry isMember

theorem map_key_entries (variants : List (Variant α)) :
    (Variant.entries variants).map Entry.key = variants.map Variant.tag := by
  rw [Variant.entries, List.map_map]
  rfl

/-- Why something is refused as the name of a kind. -/
inductive TagFails (known : List String) : Json → Cause → Prop where
  | name {name : String} : name ∉ known →
      TagFails known (.string name) (.unknownVariant name known)
  | form {part : Json} : (∀ text, part ≠ .string text) →
      TagFails known part (.wrongType part.found tagWanted)
  | index (index : Int) (count : Nat) : TagFails known (.integer index)
      (.wrongValue (.integer index) ("variant index 0 <= i < " ++ toString count))

theorem tag_mem {variant : Variant α} (named : tag variants part = .ok variant) :
    variant ∈ variants := by
  cases part with
  | integer index =>
      simp only [tag] at named
      split at named
      · cases named
      · split at named
        next isAt =>
          cases named
          exact List.mem_of_getElem? isAt
        next => cases named
  | string name =>
      have isEntry := choose_eq_ok named
      rcases List.mem_map.mp isEntry with ⟨other, isVariant, isSame⟩
      cases isSame
      exact isVariant
  | _ => cases named

theorem tag_fails (refused : tag variants part = .error cause) :
    TagFails (variants.map Variant.tag) part cause := by
  cases part with
  | integer index =>
      simp only [tag] at refused
      split at refused
      · cases refused
        exact .form fun _ => Json.noConfusion
      · split at refused
        next => cases refused
        next =>
          cases refused
          exact .index index variants.length
  | string name =>
      rcases choose_eq_error refused with ⟨rfl, unknown⟩
      rw [map_key_entries] at unknown ⊢
      exact .name unknown
  | _ =>
      cases refused
      exact .form fun _ => Json.noConfusion

/-- What is left of a value when something has been taken out of it. -/
structure IsRest (rest document : Json) : Prop where
  nesting : rest.nesting ≤ document.nesting
  height : rest.height ≤ document.height
  strings : rest.strings ⊆ document.strings

theorem isRest_of_sublist {others members : List (Entry Json)} (kept : others.Sublist members) :
    IsRest (.object others) (.object members) where
  nesting := by
    rw [nesting_eq_of_object, nesting_eq_of_object, Nat.add_le_add_iff_right, nestingOfAll_le_iff]
    intro value isValue
    exact nesting_le_nestingOfAll ((kept.map Entry.value).subset isValue)
  height := by
    rw [Json.height, Json.height, Nat.add_le_add_iff_right]
    induction kept with
    | slnil => exact Nat.le_refl _
    | cons member _ fromRest => exact Nat.le_trans fromRest (Nat.le_max_right _ _)
    | cons_cons member _ fromRest =>
        exact Nat.max_le.mpr ⟨Nat.le_max_left _ _, Nat.le_trans fromRest (Nat.le_max_right _ _)⟩
  strings := by
    intro text isString
    rcases mem_stringsOfMembers.mp isString with ⟨member, isMember, isInside⟩
    exact mem_stringsOfMembers.mpr ⟨member, kept.subset isMember, isInside⟩

theorem isRest_of_tail (first : Json) (rest : List Json) :
    IsRest (.array rest) (.array (first :: rest)) where
  nesting := Nat.succ_le_succ (Nat.le_max_right _ _)
  height := Nat.succ_le_succ (Nat.le_max_right _ _)
  strings := List.subset_append_right _ _

/-- Why a node is refused: for the sake of its kind, of what is left of it, or because it is
neither an array nor an object. -/
inductive NodeFails (description : String) (variants : List (Variant α)) (document : Json) :
    Cause → Prop where
  | tag {part : Json} {cause : Cause} : part ∈ document.parts →
      TagFails (variants.map Variant.tag) part cause → NodeFails description variants document cause
  | missing : NodeFails description variants document (.missingField tagKey)
  | repeated : NodeFails description variants document (.duplicateField tagKey)
  | body {variant : Variant α} {rest : Json} {cause : Cause} : variant ∈ variants →
      IsRest rest document → variant.body rest = .error cause →
        NodeFails description variants document cause
  | form : NodeFails description variants document
      (.wrongType document.found (nodeWanted description))

/-- The members are split into one that names a known kind and others, or they are refused. -/
def Splits (variants : List (Variant α)) (members others : List (Entry Json)) :
    Except Cause (Option (Variant α) × List (Entry Json)) → Prop
  | .ok (found, split) => (∀ variant ∈ found, variant ∈ variants) ∧
      ∃ kept, kept.Sublist members ∧ split = others ++ kept
  | .error cause => cause = .duplicateField tagKey ∨
      ∃ part ∈ members.map Entry.value, TagFails (variants.map Variant.tag) part cause

section Splits

variable {member : Entry Json} {members others : List (Entry Json)}
variable {outcome : Except Cause (Option (Variant α) × List (Entry Json))}

/-- A member that has been taken out. -/
theorem Splits.taken (splits : Splits variants members others outcome) :
    Splits variants (member :: members) others outcome := by
  cases outcome with
  | error cause =>
      refine splits.imp_right ?_
      rintro ⟨part, isPart, fails⟩
      exact ⟨part, List.mem_cons_of_mem _ isPart, fails⟩
  | ok result =>
      rcases splits with ⟨areKnown, kept, isKept, isSplit⟩
      exact ⟨areKnown, kept, isKept.cons member, isSplit⟩

/-- A member that has been kept. -/
theorem Splits.kept (splits : Splits variants members (others ++ [member]) outcome) :
    Splits variants (member :: members) others outcome := by
  cases outcome with
  | error cause =>
      refine splits.imp_right ?_
      rintro ⟨part, isPart, fails⟩
      exact ⟨part, List.mem_cons_of_mem _ isPart, fails⟩
  | ok result =>
      rcases splits with ⟨areKnown, kept, isKept, isSplit⟩
      refine ⟨areKnown, member :: kept, isKept.cons_cons member, ?_⟩
      rw [isSplit, List.append_assoc, List.singleton_append]

end Splits

theorem splitMembers_splits {members : List (Entry Json)} {found : Option (Variant α)}
    (others : List (Entry Json)) (isKnown : ∀ variant ∈ found, variant ∈ variants) :
    Splits variants members others (splitMembers variants members found others) := by
  induction members generalizing found others with
  | nil => exact ⟨isKnown, [], List.Sublist.slnil, (List.append_nil others).symm⟩
  | cons member members fromNext =>
      by_cases isTag : member.key = tagKey
      · simp only [splitMembers, if_pos isTag]
        cases found with
        | some variant => exact .inl rfl
        | none =>
            cases named : tag variants member.value with
            | error cause => exact .inr ⟨member.value, List.mem_cons_self, tag_fails named⟩
            | ok variant =>
                have isVariant : ∀ other ∈ some variant, other ∈ variants := by
                  rintro other ⟨⟩
                  exact tag_mem named
                exact (fromNext others isVariant).taken
      · simp only [splitMembers, if_neg isTag]
        exact (fromNext (others ++ [member]) isKnown).kept

/-- A node is decoded from what is left of it, or it is refused. -/
theorem node_drawn (description : String) (variants : List (Variant α)) (document : Json) :
    match node description variants document with
    | .ok result => ∃ variant ∈ variants, ∃ rest, IsRest rest document ∧
        variant.body rest = .ok result
    | .error cause => NodeFails description variants document cause := by
  have ofBody {variant : Variant α} {rest : Json} (isVariant : variant ∈ variants)
      (isRest : IsRest rest document) :
      match variant.body rest with
      | .ok result => ∃ variant ∈ variants, ∃ rest, IsRest rest document ∧
          variant.body rest = .ok result
      | .error cause => NodeFails description variants document cause := by
    cases decoded : variant.body rest with
    | ok result => exact ⟨variant, isVariant, rest, isRest, decoded⟩
    | error cause => exact .body isVariant isRest decoded
  cases document with
  | object members =>
      have isSplit : Splits variants members [] (splitMembers variants members none []) :=
        splitMembers_splits [] fun variant isFound => (Option.not_mem_none variant isFound).elim
      rw [node]
      cases split : splitMembers variants members none [] with
      | error cause =>
          rw [split] at isSplit
          rcases isSplit with rfl | ⟨part, isPart, fails⟩
          · exact .repeated
          · exact .tag isPart fails
      | ok result =>
          rw [split] at isSplit
          rcases result with ⟨_ | variant, others⟩
          · exact .missing
          · rcases isSplit with ⟨isKnown, kept, isKept, rfl⟩
            exact ofBody (isKnown variant rfl) (isRest_of_sublist isKept)
  | array items =>
      cases items with
      | nil => exact .missing
      | cons first rest =>
          simp only [node]
          cases named : tag variants first with
          | error cause => exact .tag List.mem_cons_self (tag_fails named)
          | ok variant => exact ofBody (tag_mem named) (isRest_of_tail first rest)
  | null | boolean _ | integer _ | float _ | string _ => exact .form

theorem node_eq_ok {result : α} (decoded : node description variants document = .ok result) :
    ∃ variant ∈ variants, ∃ rest, IsRest rest document ∧ variant.body rest = .ok result := by
  have drawn := node_drawn description variants document
  rw [decoded] at drawn
  exact drawn

theorem node_eq_error (refused : node description variants document = .error cause) :
    NodeFails description variants document cause := by
  have drawn := node_drawn description variants document
  rw [refused] at drawn
  exact drawn

end Buffered

end TwinSwarm.Json
