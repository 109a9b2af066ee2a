import TwinSwarm.Proofs.Json.Drawn

/-!
# Documents with another name for one kind

A document in which the name of the kind of one node has been replaced has the same shape and the
same leaves apart from strings.  A record is decoded from its members in order, up to the first
one that is refused.
-/

namespace TwinSwarm.Json

variable {α : Type} {types : List Type} {old new : String} {value other : Json}

/-- The documents are the same but for the name of the kind of one node. -/
inductive Retyped (old new : String) : Json → Json → Prop where
  | here (parts : List (Entry Json)) : Retyped old new (.node old parts) (.node new parts)
  | item {value other : Json} (before after : List Json) : Retyped old new value other →
      Retyped old new (.array (before ++ value :: after)) (.array (before ++ other :: after))
  | member {value other : Json} (key : String) (before after : List (Entry Json)) :
      Retyped old new value other → Retyped old new (.object (before ++ ⟨key, value⟩ :: after))
        (.object (before ++ ⟨key, other⟩ :: after))

/-! ## Shapes and leaves -/

theorem wholesFit_part {document part : Json} (fit : WholesFit document.leaves)
    (isPart : part ∈ document.parts) : WholesFit part.leaves := by
  cases document with
  | array items => exact wholesFit_of_mem fit isPart
  | object members =>
      rw [leaves, leavesOfMembers_eq] at fit
      exact wholesFit_of_mem fit isPart
  | _ => cases isPart

theorem part_of_headed (header : Option String) {members : List (Entry Json)} {member : Entry Json}
    (isMember : member ∈ members) : member.value ∈ (headed header members).parts := by
  cases header with
  | none => exact List.mem_map_of_mem isMember
  | some typeName => exact List.mem_cons_of_mem _ (List.mem_map_of_mem isMember)

theorem heightOfMembers_eq (members : List (Entry Json)) :
    heightOfMembers members = heightOfAll (members.map Entry.value) := by
  induction members with
  | nil => rfl
  | cons member members fromNext => rw [heightOfMembers, List.map_cons, heightOfAll, fromNext]

theorem mapDoublesOfAll_eq_map (change : Double → Double) (values : List Json) :
    mapDoublesOfAll change values = values.map (mapDoubles change) := by
  induction values with
  | nil => rfl
  | cons first rest fromRest => rw [mapDoublesOfAll, List.map_cons, fromRest]

theorem mapDoublesOfMembers_eq_map (change : Double → Double) (members : List (Entry Json)) :
    mapDoublesOfMembers change members =
      members.map fun member => ⟨member.key, member.value.mapDoubles change⟩ := by
  induction members with
  | nil => rfl
  | cons first rest fromRest => rw [mapDoublesOfMembers, List.map_cons, fromRest]

theorem nestingOfAll_congr (before after : List Json) (same : other.nesting = value.nesting) :
    nestingOfAll (before ++ other :: after) = nestingOfAll (before ++ value :: after) := by
  induction before with
  | nil => simp only [List.nil_append, nestingOfAll, same]
  | cons first before fromRest => simp only [List.cons_append, nestingOfAll, fromRest]

theorem heightOfAll_congr (before after : List Json) (same : other.height = value.height) :
    heightOfAll (before ++ other :: after) = heightOfAll (before ++ value :: after) := by
  induction before with
  | nil => simp only [List.nil_append, heightOfAll, same]
  | cons first before fromRest => simp only [List.cons_append, heightOfAll, fromRest]

namespace Retyped

theorem nesting_eq (retyped : Retyped old new value other) : other.nesting = value.nesting := by
  induction retyped with
  | here parts => rfl
  | item before after _ same => rw [nesting, nesting, nestingOfAll_congr before after same]
  | member key before after _ same =>
      simp only [nesting_eq_of_object, List.map_append, List.map_cons]
      rw [nestingOfAll_congr _ _ same]

theorem height_eq (retyped : Retyped old new value other) : other.height = value.height := by
  induction retyped with
  | here parts => rfl
  | item before after _ same => rw [height, height, heightOfAll_congr before after same]
  | member key before after _ same =>
      simp only [height, heightOfMembers_eq, List.map_append, List.map_cons]
      rw [heightOfAll_congr _ _ same]

/-- A leaf that is no string has been there before. -/
theorem mem_leaves {leaf : Json} (retyped : Retyped old new value other)
    (noString : ∀ text, leaf ≠ .string text) (isLeaf : leaf ∈ other.leaves) :
    leaf ∈ value.leaves := by
  have ofItems {before after : List Json} {value other : Json}
      (fromBelow : leaf ∈ other.leaves → leaf ∈ value.leaves)
      (isLeaf : leaf ∈ leavesOfAll (before ++ other :: after)) :
      leaf ∈ leavesOfAll (before ++ value :: after) := by
    simp only [mem_leavesOfAll_iff, List.mem_append, List.mem_cons, or_and_right, exists_or,
      exists_eq_left] at isLeaf ⊢
    exact isLeaf.imp_right (Or.imp_left fromBelow)
  induction retyped with
  | here parts =>
      rw [leaves_node, List.mem_cons] at isLeaf ⊢
      exact .inr (isLeaf.resolve_left (noString new))
  | item before after _ fromBelow => exact ofItems fromBelow isLeaf
  | member key before after _ fromBelow =>
      simp only [leaves, leavesOfMembers_eq, List.map_append, List.map_cons] at isLeaf ⊢
      exact ofItems fromBelow isLeaf

theorem wholesFit (retyped : Retyped old new value other) (fit : WholesFit value.leaves) :
    WholesFit other.leaves :=
  fun number isLeaf => fit number (retyped.mem_leaves (fun _ => Json.noConfusion) isLeaf)

theorem mapDoubles (retyped : Retyped old new value other) (change : Double → Double) :
    Retyped old new (value.mapDoubles change) (other.mapDoubles change) := by
  induction retyped with
  | here parts => exact .here (mapDoublesOfMembers change parts)
  | item before after _ fromBelow =>
      simp only [Json.mapDoubles, mapDoublesOfAll_eq_map, List.map_append, List.map_cons]
      exact .item _ _ fromBelow
  | member key before after _ fromBelow =>
      simp only [Json.mapDoubles, mapDoublesOfMembers_eq_map, List.map_append, List.map_cons]
      exact .member key _ _ fromBelow

/-- In an object that may name its kind, this name is replaced or one of the other members. -/
theorem headed_cases {header : Option String} {members : List (Entry Json)}
    (plain : tagKey ∉ members.map Entry.key)
    (retyped : Retyped old new (headed header members) other) :
    (header = some old ∧ other = .node new members) ∨
      ∃ key before after value changed, members = before ++ ⟨key, value⟩ :: after ∧
        Retyped old new value changed ∧
        other = headed header (before ++ ⟨key, changed⟩ :: after) := by
  generalize isHeaded : headed header members = document at retyped
  cases header with
  | none =>
      cases retyped with
      | item => cases isHeaded
      | here parts =>
          cases isHeaded
          exact absurd List.mem_cons_self plain
      | member key before after retyped =>
          cases isHeaded
          exact .inr ⟨key, before, after, _, _, rfl, retyped, rfl⟩
  | some typeName =>
      cases retyped with
      | item => cases isHeaded
      | here parts =>
          cases isHeaded
          exact .inl ⟨rfl, rfl⟩
      | member key before after retyped =>
          rw [headed, Json.node, Json.object.injEq] at isHeaded
          cases before with
          | nil =>
              -- A string holds no node, so the member that names the kind is not the changed one.
              cases isHeaded
              cases retyped
          | cons first before =>
              cases isHeaded
              exact .inr ⟨key, before, after, _, _, rfl, retyped, rfl⟩

end Retyped

/-! ## Members in order -/

/-- The members belong to the fields in order.  The first of them that is refused decides, or each
of them has its value. -/
inductive Fields.Gives : {types : List Type} → Fields Buffered types → List (Entry Json) →
    Except Cause (Values types) → Prop where
  | nil : Gives .nil [] (.ok ())
  | stop {α : Type} {types : List Type} {field : Field Buffered α} {rest : Fields Buffered types}
      {document : Json} {members : List (Entry Json)} {cause : Cause} :
      field.decoder document = .error cause → members.map Entry.key = rest.names →
        Gives (.cons field rest) (⟨field.name, document⟩ :: members) (.error cause)
  | next {α : Type} {types : List Type} {field : Field Buffered α} {rest : Fields Buffered types}
      {document : Json} {members : List (Entry Json)} {value : α}
      {outcome : Except Cause (Values types)} :
      field.decoder document = .ok value → Gives rest members outcome →
        Gives (.cons field rest) (⟨field.name, document⟩ :: members) (outcome.map (value, ·))

namespace Fields.Gives

variable {fields : Fields Buffered types} {members : List (Entry Json)}
variable {outcome : Except Cause (Values types)}

theorem keys (gives : fields.Gives members outcome) : members.map Entry.key = fields.names := by
  induction gives with
  | nil => rfl
  | stop _ isRest => rw [List.map_cons, isRest, names]
  | next _ _ fromRest => rw [List.map_cons, fromRest, names]

/-- The first field is decoded from its member, and the others from theirs. -/
theorem cons {field : Field Buffered α} {document : Json} {rest : Fields Buffered types}
    {values : Values types} {members : List (Entry Json)}
    (ofRest : rest.Gives members (.ok values)) :
    Gives (.cons field rest) (⟨field.name, document⟩ :: members)
      ((field.decoder document).map (·, values)) := by
  cases decoded : field.decoder document with
  | error cause => exact .stop decoded ofRest.keys
  | ok value => exact .next decoded ofRest

theorem fillAll_eq (gives : fields.Gives members outcome) (distinct : fields.names.Nodup) :
    Buffered.fillAll fields members (.empty types) = outcome.map filled := by
  induction gives with
  | nil => rfl
  | stop refused isRest => simp [Buffered.fillAll, Slots.empty, Buffered.fill, refused, Except.map]
  | @next α types field rest document members value outcome decoded gives fromRest =>
      rw [names, List.nodup_cons, ← gives.keys] at distinct
      simp only [Buffered.fillAll, Slots.empty, Buffered.fill, if_pos, decoded]
      rw [Buffered.fillAll_cons field rest distinct.1, fromRest (gives.keys ▸ distinct.2)]
      cases outcome <;> rfl

/-- A record is decoded as its fields are, whatever kind it names. -/
theorem record_eq {build : Values types → α} (description : String) (header : Option String)
    (distinct : (tagKey :: fields.names).Nodup) (gives : fields.Gives members outcome) :
    Buffered.record description fields build (headed header members) = outcome.map build := by
  rw [List.nodup_cons] at distinct
  have isFilled := gives.fillAll_eq distinct.2
  have ofSlots :
      Buffered.record description fields build (.object members) = outcome.map build := by
    rw [Buffered.record, isFilled]
    cases outcome with
    | error cause => rfl
    | ok values => simp only [Except.map, finish_filled]
  cases header with
  | none => exact ofSlots
  | some typeName =>
      have ignored : Buffered.fill fields ⟨tagKey, .string typeName⟩ (.empty types) =
          .ok (.empty types) := Buffered.fill_of_notMem fields _ distinct.1
      rw [← ofSlots]
      simp only [headed, Json.node, Buffered.record, Buffered.fillAll]
      rw [tagKey] at ignored
      simp only [ignored]

end Fields.Gives

end TwinSwarm.Json
