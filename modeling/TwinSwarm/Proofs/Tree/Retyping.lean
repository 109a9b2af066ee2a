import Mathlib.Data.List.Nodup
import TwinSwarm.Proofs.Json.Retyped
import TwinSwarm.Proofs.Json.Returning
import TwinSwarm.Proofs.Json.Stops
import TwinSwarm.Proofs.Tree.Refusal

/-!
# What another name for a kind does to a tree

Declarations, statements and expressions are told apart by the names of their kinds, so a document
in which one of them names an unknown kind is refused for the sake of that name, however deep the
node is.  The names that other nodes carry are not looked at: with any other name in its place the
document describes the same tree.
-/

namespace TwinSwarm

open Json (Buffered Cause Describes Fields Kinds Medium Named Retyped Values Variant WholesFit
  Written tagKey)

namespace Json

/-! ## What follows from another name -/

theorem nodup_of_mem_nodeKinds {kinds : List String} (isKinds : kinds ∈ nodeKinds) :
    kinds.Nodup := by
  revert kinds
  decide

/-- What may become of an outcome when the name of the kind of one node is replaced.  Nothing, if no
nodes are told apart by this name; if some are, they name another of their kinds now, or an unknown
one. -/
inductive Consequence (old new : String) {α : Type} (kept : Except Cause α) :
    Except Cause α → Prop where
  | ignored : (∀ kinds ∈ nodeKinds, old ∉ kinds) → Consequence old new kept kept
  | exchanged {kinds : List String} {outcome : Except Cause α} : kinds ∈ nodeKinds → old ∈ kinds →
      new ∈ kinds → Consequence old new kept outcome
  | unknown {kinds : List String} : kinds ∈ nodeKinds → old ∈ kinds → new ∉ kinds →
      Consequence old new kept (.error (.unknownVariant new kinds))

variable {α β : Type} {types : List Type} {old new : String} {document other : Json} {value : α}

theorem Consequence.map {kept outcome : Except Cause α} (make : α → β)
    (follows : Consequence old new kept outcome) :
    Consequence old new (kept.map make) (outcome.map make) := by
  cases follows with
  | ignored unused => exact .ignored unused
  | exchanged isKinds isOld isNew => exact .exchanged isKinds isOld isNew
  | unknown isKinds isOld noNew => exact .unknown isKinds isOld noNew

/-- The document is decoded to the value.  With another name for the kind of one node, what follows
from that name becomes of the value. -/
structure Buffered.Heeds (decoder : Buffered α) (document : Json) (value : α) : Prop where
  decodes : decoder document = .ok value
  retyped {old new : String} {other : Json} : Retyped old new document other →
    Consequence old new (.ok value) (decoder other)

/-- The members are decoded to the values, and so on as for one document. -/
structure Fields.Heeds (fields : Fields Buffered types) (members : List (Entry Json))
    (values : Values types) : Prop where
  gives : fields.Gives members (.ok values)
  retyped {old new key : String} {before after : List (Entry Json)} {value other : Json} :
    members = before ++ ⟨key, value⟩ :: after → Retyped old new value other →
      ∃ outcome, Consequence old new (.ok values) outcome ∧
        fields.Gives (before ++ ⟨key, other⟩ :: after) outcome

theorem Fields.Heeds.nil : Fields.nil.Heeds [] () where
  gives := .nil
  retyped isSplit := by simp at isSplit

theorem Fields.Heeds.cons {field : Field Buffered α} {rest : Fields Buffered types}
    {members : List (Entry Json)} {values : Values types}
    (ofFirst : field.decoder.Heeds document value) (ofRest : rest.Heeds members values) :
    (Fields.cons field rest).Heeds (⟨field.name, document⟩ :: members) (value, values) where
  gives := .next ofFirst.decodes ofRest.gives
  retyped {_ _ key before after changed other} isSplit retyped := by
    cases before with
    | nil =>
        rw [List.nil_append, List.cons.injEq, Entry.mk.injEq] at isSplit
        rcases isSplit with ⟨⟨rfl, rfl⟩, rfl⟩
        exact ⟨_, (ofFirst.retyped retyped).map (·, values), .cons ofRest.gives⟩
    | cons first before =>
        rw [List.cons_append, List.cons.injEq] at isSplit
        rcases isSplit with ⟨rfl, isRest⟩
        rcases ofRest.retyped isRest retyped with ⟨outcome, follows, gives⟩
        exact ⟨_, follows.map (value, ·), .next ofFirst.decodes gives⟩

namespace Buffered.Heeds

theorem choose_of_mem {variants : List (Variant α)} {variant : Variant α}
    (distinct : (variants.map Variant.tag).Nodup) (isVariant : variant ∈ variants) :
    choose (Variant.entries variants) variant.tag = .ok variant := by
  have isEntry : (⟨variant.tag, variant⟩ : Entry (Variant α)) ∈ Variant.entries variants :=
    List.mem_map.mpr ⟨variant, isVariant, rfl⟩
  cases chosen : choose (Variant.entries variants) variant.tag with
  | error cause =>
      have unknown := (choose_eq_error chosen).2
      exact absurd (List.mem_map_of_mem isEntry) unknown
  | ok other =>
      rcases List.mem_map.mp (choose_eq_ok chosen) with ⟨third, isThird, isOther⟩
      rcases Entry.mk.injEq .. ▸ isOther with ⟨sameTag, rfl⟩
      rw [List.inj_on_of_nodup_map distinct isThird isVariant sameTag]

theorem choose_of_notMem {entries : List (Entry α)} {name : String}
    (unknown : name ∉ entries.map Entry.key) :
    choose entries name = .error (.unknownVariant name (entries.map Entry.key)) := by
  cases chosen : choose entries name with
  | error cause => rw [(choose_eq_error chosen).1]
  | ok value => exact absurd (List.mem_map_of_mem (choose_eq_ok chosen)) unknown

/-- A node of an unknown kind is refused for the sake of its name. -/
theorem node_of_unknown {variants : List (Variant α)} {typeName : String}
    {members : List (Entry Json)} (description : String)
    (unknown : typeName ∉ variants.map Variant.tag) :
    Buffered.node description variants (.node typeName members) =
      .error (.unknownVariant typeName (variants.map Variant.tag)) := by
  have named : Buffered.tag variants (.string typeName) =
      .error (.unknownVariant typeName (variants.map Variant.tag)) := by
    rw [← map_key_entries] at unknown ⊢
    exact choose_of_notMem unknown
  have isTag : (⟨"type", .string typeName⟩ : Entry Json).key = tagKey := rfl
  simp only [Json.node, Buffered.node, splitMembers, if_pos isTag, named]

/-- A document without nodes is only decoded. -/
theorem of_plain {decoder : Buffered α} (plain : ∀ old new other, ¬Retyped old new document other)
    (decodes : decoder document = .ok value) : decoder.Heeds document value where
  decodes := decodes
  retyped retyped := absurd retyped (plain _ _ _)

theorem optional {decoder : Buffered α} (notNull : document ≠ .null)
    (heeds : decoder.Heeds document value) :
    (Buffered.optional decoder).Heeds document (some value) := by
  have isMapped {other : Json} (notNull : other ≠ .null) :
      Buffered.optional decoder other = (decoder other).map some := by
    cases other with
    | null => exact absurd rfl notNull
    | _ =>
        rw [Buffered.optional]
        · split
          next isOutcome => rw [isOutcome, Except.map]
          next isOutcome => rw [isOutcome, Except.map]
        · exact notNull
  constructor
  · rw [isMapped notNull, heeds.decodes]
    rfl
  · intro old new other retyped
    have notNull : other ≠ .null := by
      rintro rfl
      cases retyped
    rw [isMapped notNull]
    exact (heeds.retyped retyped).map some

/-- One item of an array decides, if all others are decoded. -/
theorem listItems_eq_map {item : Buffered α} {encode : α → Json} {before after : List α}
    (decodes : ∀ value ∈ before ++ after, item (encode value) = .ok value) (other : Json) :
    listItems item (before.map encode ++ other :: after.map encode) =
      (item other).map fun value => before ++ value :: after := by
  induction before with
  | nil =>
      have isAfter : listItems item (after.map encode) = .ok after := list_of_decodes decodes
      simp only [List.map_nil, List.nil_append, listItems, isAfter]
      cases item other <;> rfl
  | cons first before fromRest =>
      rw [List.cons_append, List.forall_mem_cons] at decodes
      simp only [List.map_cons, List.cons_append, listItems, decodes.1, fromRest decodes.2]
      cases item other <;> rfl

theorem list {item : Buffered α} {encode : α → Json} {values : List α}
    (heeds : ∀ value ∈ values, item.Heeds (encode value) value) :
    (Buffered.list item).Heeds (.array (values.map encode)) values := by
  have decodes (value : α) (isMember : value ∈ values) := (heeds value isMember).decodes
  refine ⟨list_of_decodes decodes, ?_⟩
  intro old new other retyped
  generalize isList : Json.array (values.map encode) = document at retyped
  cases retyped with
  | here | member => cases isList
  | @item changed other before after retyped =>
      rw [Json.array.injEq, List.map_eq_append_iff] at isList
      rcases isList with ⟨first, rest, rfl, rfl, isRest⟩
      rcases List.map_eq_cons_iff.mp isRest with ⟨value, last, rfl, rfl, rfl⟩
      rw [List.forall_mem_append, List.forall_mem_cons] at decodes
      show Consequence old new _ (listItems item _)
      rw [listItems_eq_map (List.forall_mem_append.mpr ⟨decodes.1, decodes.2.2⟩)]
      have isMember : value ∈ first ++ value :: last :=
        List.mem_append_right first List.mem_cons_self
      exact ((heeds value isMember).retyped retyped).map fun value => first ++ value :: last

theorem record {fields : Fields Buffered types} {build : Values types → α}
    {members : List (Entry Json)} {values : Values types} (description : String)
    (header : Option String) (distinct : (tagKey :: fields.names).Nodup)
    (unused : ∀ typeName ∈ header, ∀ kinds ∈ nodeKinds, typeName ∉ kinds)
    (heeds : fields.Heeds members values) :
    (Buffered.record description fields build).Heeds (headed header members) (build values) := by
  have plain : tagKey ∉ members.map Entry.key := by
    rw [heeds.gives.keys]
    exact (List.nodup_cons.mp distinct).1
  refine ⟨heeds.gives.record_eq description header distinct, ?_⟩
  intro old new other retyped
  rcases retyped.headed_cases plain with
    ⟨rfl, rfl⟩ | ⟨key, before, after, value, changed, isSplit, inside, rfl⟩
  · have isSame : Buffered.record description fields build (.node new members) =
        .ok (build values) := heeds.gives.record_eq description (some new) distinct
    rw [isSame]
    exact .ignored (unused old rfl)
  · rcases heeds.retyped isSplit inside with ⟨outcome, follows, gives⟩
    rw [gives.record_eq description header distinct]
    exact follows.map build

/-- A node whose kind is known and whose rest is decoded. -/
theorem node {variants : List (Variant α)} {variant : Variant α} {members : List (Entry Json)}
    {value : α} (description : String) (isVariant : variant ∈ variants)
    (isKinds : variants.map Variant.tag ∈ nodeKinds) (plain : tagKey ∉ members.map Entry.key)
    (heeds : Heeds variant.body (.object members) value) :
    (Buffered.node description variants).Heeds (.node variant.tag members) value := by
  have chosen := choose_of_mem (nodup_of_mem_nodeKinds isKinds) isVariant
  constructor
  · rw [node_of_choose description chosen plain]
    exact heeds.decodes
  · intro old new other retyped
    have retyped : Retyped old new (headed (some variant.tag) members) other := retyped
    rcases retyped.headed_cases plain with
      ⟨isOld, rfl⟩ | ⟨key, before, after, value, changed, rfl, inside, rfl⟩
    · cases isOld
      have isOld : variant.tag ∈ variants.map Variant.tag := List.mem_map_of_mem isVariant
      by_cases isNew : new ∈ variants.map Variant.tag
      · exact .exchanged isKinds isOld isNew
      · rw [node_of_unknown description isNew]
        exact .unknown isKinds isOld isNew
    · have plain : tagKey ∉ (before ++ ⟨key, changed⟩ :: after).map Entry.key := by
        simpa using plain
      show Consequence old new _ (Buffered.node description variants (.node variant.tag _))
      rw [node_of_choose description chosen plain]
      exact heeds.retyped (.member key before after inside)

end Buffered.Heeds

end Json

/-! ## Formats -/

/-- Documents that are written for values of limited height are decoded to these values and heed the
names of kinds. -/
def Retypes (size : Nat) {α : Type} (decoder : Buffered α) (encode : α → Json) : Prop :=
  ∀ value, (encode value).height ≤ size → WholesFit (encode value).leaves →
    decoder.Heeds (encode value) value

section Retypes

variable {size : Nat} {α : Type} {decoder : Buffered α} {encode : α → Json}

/-- What is written without parts has no nodes. -/
theorem retypes_plain (plain : ∀ value, (encode value).parts = [])
    (decodes : ∀ value, WholesFit (encode value).leaves → decoder (encode value) = .ok value) :
    Retypes size decoder encode := by
  intro value _ fit
  refine .of_plain ?_ (decodes value fit)
  intro old new other retyped
  have none := plain value
  generalize encode value = document at retyped none
  cases retyped <;> simp [Json.node, Json.parts] at none

/-- The members that are written for the fields of a record heed the names of kinds. -/
theorem Json.Written.heeds {types : List Type} {fields : Fields Buffered types}
    {write : Values types → List (Entry Json)} {room : Prop}
    (written : Written room (Retypes size) fields write) (values : Values types)
    (low : ∀ member ∈ write values, member.value.height ≤ size)
    (fit : ∀ member ∈ write values, WholesFit member.value.leaves) :
    fields.Heeds (write values) values := by
  induction written with
  | nil => exact .nil
  | lasting name _ ofPart _ fromRest =>
      rw [List.forall_mem_cons] at low fit
      exact .cons (ofPart values.1 low.1 fit.1) (fromRest values.2 low.2 fit.2)
  | nullable name _ ofPart notNull _ fromRest =>
      rcases values with ⟨_ | value, values⟩
      · rw [List.forall_mem_cons] at low fit
        refine .cons (.of_plain ?_ rfl) (fromRest values low.2 fit.2)
        rintro old new other ⟨⟩
      · rw [List.forall_mem_cons] at low fit
        exact .cons ((ofPart value low.1 fit.1).optional (notNull value))
          (fromRest values low.2 fit.2)
  | emptied name _ _ _ ofPart _ fromRest =>
      rw [List.forall_mem_cons] at low fit
      exact .cons (ofPart values.1 low.1 fit.1) (fromRest values.2 low.2 fit.2)
  | located _ ofPart =>
      rw [List.forall_mem_singleton] at low fit
      exact .cons (ofPart values.1 low fit) .nil

/-- A value of a node is written as a kind that is known, of which the rest heeds the names of
kinds. -/
theorem Json.Describes.heeds {variants : List (Variant α)}
    (describes : Describes (Retypes size) variants encode)
    (value : α) (low : (encode value).height ≤ size) (fit : WholesFit (encode value).leaves) :
    ∃ variant ∈ variants, ∃ members, encode value = .node variant.tag members ∧
      tagKey ∉ members.map Entry.key ∧ variant.body.Heeds (.object members) value := by
  rcases describes with ⟨made, kinds, makes⟩
  rcases kinds.of_made (makes value) with
    ⟨variant, isVariant, β, bare, write, make, part, isKind, rfl⟩
  rw [isKind.encodes] at low fit ⊢
  have barelow : (Json.object (write part)).height ≤ size :=
    Nat.le_trans (Nat.succ_le_succ (Nat.le_max_right _ _)) low
  have bareFit : WholesFit (Json.object (write part)).leaves := (Json.wholesFit_cons.mp fit).2
  have ofBare := isKind.format part barelow bareFit
  refine ⟨variant, isVariant, write part, rfl, isKind.plain part, ?_, ?_⟩
  · rw [isKind.body, ofBare.decodes]
    rfl
  · intro old new other retyped
    rw [isKind.body]
    exact (ofBare.retyped retyped).map make

/-- The relation is closed under the ways in which formats are put together. -/
theorem retypes_closed : Closed (fun _ => True) Retypes where
  string _ := retypes_plain (fun _ => rfl) fun _ _ => rfl
  word _ := retypes_plain (fun _ => rfl) fun number _ => by
    simp only [Medium.word, Medium.scalar, if_pos (Numeral.isWord_toInt number), Int64.ofInt_toInt]
  natural _ := retypes_plain (fun _ => rfl) fun number fit => by
    have small : (number : Int) < 2 ^ 64 := (fit number List.mem_cons_self).2
    exact Json.Buffered.natural_integer (by omega)
  literal _ := retypes_plain (fun literal => by cases literal <;> rfl) fun literal _ =>
    literal.ofJson_toJson
  binaryOperator _ := retypes_plain (fun _ => rfl) fun operator _ => operator.decoder_toJson
  unaryOperator _ := retypes_plain (fun _ => rfl) fun operator _ => operator.decoder_toJson
  list {size α decoder encode} retypes := by
    intro values low fit
    apply Json.Buffered.Heeds.list
    intro value isMember
    have isItem : encode value ∈ values.map encode := List.mem_map_of_mem isMember
    have lower : (encode value).height < (Json.array (values.map encode)).height :=
      Json.height_lt_of_part isItem
    apply retypes value
    · exact Nat.le_sub_one_of_lt (Nat.lt_of_lt_of_le lower low)
    · exact Json.wholesFit_of_mem fit isItem
  record {size α types fields write build encode} description header names written named fit unused
      encodes builds := by
    intro value low wholes
    rcases builds value with ⟨values, rfl⟩
    rw [encodes] at low wholes ⊢
    subst named
    apply Json.Buffered.Heeds.record description header fit.1
    · intro typeName isHeader kinds isKinds isName
      exact unused typeName isHeader (List.mem_flatten.mpr ⟨kinds, isKinds, isName⟩)
    · apply written.heeds
      · intro member isMember
        have lower := Json.height_lt_of_part (Json.part_of_headed header isMember)
        exact Nat.le_sub_one_of_lt (Nat.lt_of_lt_of_le lower low)
      · intro member isMember
        exact Json.wholesFit_part wholes (Json.part_of_headed header isMember)
  node {size α variants encode} description describes isKinds _ := by
    intro value low fit
    rcases describes.heeds value low fit with
      ⟨variant, isVariant, members, isNode, plain, heeds⟩
    rw [isNode]
    exact heeds.node description isVariant isKinds plain

theorem retypes_bounded : Bounded Retypes where
  zero _ encode := by
    intro value low
    have positive := (encode value).height_pos
    omega
  smaller isSmaller retypes value low := retypes value (Nat.le_trans low isSmaller)
  ofHeight {α within encode} retypes _ value _ fit := by
    have heeds := retypes (encode value).height value (Nat.le_refl _) fit
    refine ⟨heeds.decodes, ?_⟩
    intro old new other retyped
    rw [retyped.height_eq]
    exact heeds.retyped retyped

end Retypes

/-! ## Declarations in texts -/

namespace Declaration

open Json.Reading (Answers StopsFor)

variable {declaration : Declaration} {old new : String} {other : Json} {levels depth : Nat}
variable {after : List Char}

/-- The rest of a declaration heeds the names of kinds. -/
theorem exists_kind (fit : WholesFit declaration.toJson.leaves) :
    ∃ kind ∈ variants, kind.tag = declaration.typeName ∧
      kind.body.Heeds (.object declaration.members) declaration := by
  have described : Describes (Retypes declaration.toJson.height) variants toJson :=
    format retypes_closed (Expression.format retypes_closed retypes_bounded)
      (Statement.format retypes_closed retypes_bounded fun _ => trivial) fun _ _ => trivial
  rcases described.heeds declaration (Nat.le_refl _) fit with
    ⟨kind, isVariant, members, isNode, _, heeds⟩
  rcases Json.node_inj.mp isNode with ⟨sameName, rfl⟩
  exact ⟨kind, isVariant, sameName.symm, heeds⟩

theorem choose_kind {kind : Variant Declaration} (isVariant : kind ∈ variants) :
    Json.choose (Variant.entries variants) kind.tag = .ok kind :=
  Json.Buffered.Heeds.choose_of_mem (Json.nodup_of_mem_nodeKinds tags_mem) isVariant

theorem nesting_le_iff : declaration.toJson.nesting ≤ levels + 1 ↔
    Json.nestingOfMembers declaration.members ≤ levels := by
  simp [toJson, Json.node, Json.nesting, Json.nestingOfMembers]

/-- What is read of a declaration of limited nesting is a declaration with other doubles, of which
the rest heeds the names of kinds. -/
theorem exists_read (fit : WholesFit declaration.toJson.leaves)
    (shallow : declaration.toJson.nesting ≤ levels + 1) :
    ∃ kind ∈ variants, kind.tag = declaration.typeName ∧ ∃ read,
      declaration.reread? levels = some read ∧
        kind.body.Heeds (.object (Json.mapDoublesOfMembers Double.reread declaration.members))
          read := by
  rcases exists_kind fit with ⟨kind, isVariant, isTag, heeds⟩
  rcases declaration.exists_toJson_eq_mapDoubles Double.reread with ⟨read, changed⟩
  have readFit : WholesFit read.toJson.leaves := changed ▸ fit.mapDoubles Double.reread
  have named : Json.node read.typeName read.members = .node declaration.typeName
      (Json.mapDoublesOfMembers Double.reread declaration.members) := changed
  rcases Json.node_inj.mp named with ⟨sameName, sameMembers⟩
  rcases exists_kind readFit with ⟨readKind, isReadVariant, isReadTag, readHeeds⟩
  have sameKind : readKind = kind := by
    have chosen := choose_kind isReadVariant
    rw [isReadTag, sameName, ← isTag, choose_kind isVariant] at chosen
    exact (Except.ok.inj chosen).symm
  rw [sameKind, sameMembers] at readHeeds
  refine ⟨kind, isVariant, isTag, read, ?_, readHeeds⟩
  have isRead : Json.rereadMembers? levels declaration.members =
      some (Json.mapDoublesOfMembers Double.reread declaration.members) :=
    (Json.rereadMembers?_eq_some_iff _ (Json.wholesFit_cons.mp fit).2).mpr
      ⟨nesting_le_iff.mp shallow, Json.doublesReturn _, rfl⟩
  rw [reread?, ← isTag, choose_kind isVariant, isRead]
  show (kind.body (.object (Json.mapDoublesOfMembers Double.reread _))).toOption = _
  rw [readHeeds.decodes]
  rfl

/-- What may become of a declaration in a text: what would have been read of it, or a stop for the
sake of a name. -/
def Consequent (old new : String) (levels : Nat) (declaration : Declaration)
    (other : Json) : Prop :=
  ((∀ kinds ∈ nodeKinds, old ∉ kinds) ∧ ∀ depth after,
    (decoder : Json.Reading Declaration).Answers (levels + 1) (Json.textAt depth other after) after
      (declaration.reread? levels)) ∨
    ∃ kinds ∈ nodeKinds, old ∈ kinds ∧ (new ∈ kinds ∨ ∀ depth after,
      (decoder : Json.Reading Declaration).StopsFor (levels + 1) (Json.textAt depth other after)
        (.unknownVariant new kinds))

section Consequent

variable (fit : WholesFit declaration.toJson.leaves)
variable (shallow : declaration.toJson.nesting ≤ levels + 1)

include fit shallow

/-- Inside a declaration, a name decides when what has been read is decoded. -/
theorem consequent_of_members {others : List (Entry Json)}
    (plain : Json.tagKey ∉ others.map Entry.key)
    (retyped : Retyped old new (.object declaration.members) (.object others)) :
    Consequent old new levels declaration (.node declaration.typeName others) := by
  rcases exists_read fit shallow with ⟨kind, isVariant, isTag, read, isRead, heeds⟩
  have chosen := choose_kind isVariant
  rw [isTag] at chosen
  have othersShallow : (Json.object others).nesting ≤ levels + 1 := by
    rw [retyped.nesting_eq]
    exact Nat.succ_le_succ (nesting_le_iff.mp shallow)
  have othersRead : Json.rereadMembers? levels others =
      some (Json.mapDoublesOfMembers Double.reread others) :=
    (Json.rereadMembers?_eq_some_iff _ (retyped.wholesFit (Json.wholesFit_cons.mp fit).2)).mpr
      ⟨Nat.le_of_succ_le_succ othersShallow, Json.doublesReturn _, rfl⟩
  have follows := heeds.retyped (retyped.mapDoubles Double.reread)
  generalize isBody : kind.body _ = outcome at follows
  -- The same as before, anything behind a name that is known, or a refusal for the name.
  cases follows with
  | ignored unused =>
      refine .inl ⟨unused, fun depth after => ?_⟩
      have answers : (decoder : Json.Reading Declaration).Answers (levels + 1)
          (Json.textAt depth (.node declaration.typeName others) after) after _ :=
        Json.Reading.node_answers "Declaration" chosen plain
      rw [othersRead, Option.bind_some] at answers
      rw [isRead]
      rw [Json.mapDoubles] at isBody
      rw [isBody] at answers
      exact answers
  | exchanged isKinds isOld isNew => exact .inr ⟨_, isKinds, isOld, .inl isNew⟩
  | unknown isKinds isOld noNew =>
      exact .inr ⟨_, isKinds, isOld, .inr fun depth after =>
        Json.Reading.node_stops_for_rest "Declaration" chosen plain othersRead isBody⟩

theorem consequent_of_retyped (retyped : Retyped old new declaration.toJson other) :
    Consequent old new levels declaration other := by
  have isNode : Retyped old new
      (Json.headed (some declaration.typeName) declaration.members) other := retyped
  rcases isNode.headed_cases declaration.members_plain with
    ⟨isOld, rfl⟩ | ⟨key, before, after, value, changed, isSplit, inside, rfl⟩
  · cases isOld
    rcases exists_kind fit with ⟨kind, isVariant, isTag, _⟩
    refine .inr ⟨variants.map Variant.tag, tags_mem, isTag ▸ List.mem_map_of_mem isVariant, ?_⟩
    by_cases isNew : new ∈ variants.map Variant.tag
    · exact .inl isNew
    · refine .inr fun depth after => Json.Reading.node_stops_for_name "Declaration" ?_
      rw [← Json.Buffered.map_key_entries] at isNew ⊢
      exact Json.Buffered.Heeds.choose_of_notMem isNew
  · apply consequent_of_members fit shallow
    · have plain := declaration.members_plain
      rw [isSplit] at plain
      simpa using plain
    · rw [isSplit]
      exact .member key before after inside

end Consequent

end Declaration

/-! ## Programs in texts -/

namespace Program

variable {program : Program} {old new : String} {other : Json}

/-- The document of a program is changed in its own name or in a declaration. -/
theorem retyped_cases (retyped : Retyped old new program.toJson other) :
    (old = "program" ∧ other = documentOf new (program.declarations.map Declaration.toJson)) ∨
      ∃ before declaration after changed, program.declarations = before ++ declaration :: after ∧
        Retyped old new declaration.toJson changed ∧ other = documentOf "program"
          (before.map Declaration.toJson ++ changed :: after.map Declaration.toJson) := by
  have isNode : Retyped old new (Json.headed (some "program") [⟨"declarations",
    .array (program.declarations.map Declaration.toJson)⟩]) other := retyped
  rcases isNode.headed_cases (by simp [Json.tagKey]) with
    ⟨isOld, rfl⟩ | ⟨key, before, after, value, changed, isSplit, inside, rfl⟩
  · exact .inl ⟨(Option.some.inj isOld).symm, rfl⟩
  · cases before with
    | cons first before => simp at isSplit
    | nil =>
        rw [List.nil_append, List.cons.injEq, Entry.mk.injEq] at isSplit
        rcases isSplit with ⟨⟨rfl, rfl⟩, rfl⟩
        generalize isList : Json.array _ = document at inside
        cases inside with
        | here | member => cases isList
        | item before after inside =>
            rw [Json.array.injEq, List.map_eq_append_iff] at isList
            rcases isList with ⟨first, rest, isProgram, rfl, isRest⟩
            rcases List.map_eq_cons_iff.mp isRest with ⟨declaration, last, rfl, rfl, rfl⟩
            exact .inr ⟨first, declaration, last, _, isProgram, inside, rfl⟩

section Texts

open Json.Reading (Answers StopsFor)

variable {declared : List Json} {cause : Cause} {levels : Nat}

/-- The reader of a program stops where that of the list of declarations does. -/
theorem decoder_stops (stops : (Json.Reading.list Declaration.decoder).StopsFor (levels + 2)
      (' ' :: Json.textAt 1 (.array declared) (Json.lineText 0 ['\x7d'])) cause) :
    (decoder : Json.Reading Program).StopsFor (levels + 3)
      (Json.textAt 0 (documentOf "program" declared) []) cause := by
  have inList : (Json.Reading.fill fields (none, ()) "declarations").StopsFor (levels + 2)
      (':' :: ' ' :: Json.textAt 1 (.array declared) (Json.lineText 0 ['\x7d'])) cause := by
    show StopsFor (if "declarations" = "declarations" then _ else _) (levels + 2) _ cause
    rw [if_pos rfl]
    apply StopsFor.of_taken Json.Reading.colon_answers
    exact stops.of_bind
  have inMembers : (Json.Reading.foldMembers .keep (Json.Reading.fill fields) true
      (none, ())).StopsFor (levels + 2) (Json.textAt 0 (documentOf "program" declared) []).tail
        cause := by
    apply Json.Reading.foldMembers_stops_later
      (Json.Reading.nextKey_answers_first .keep Json.tagKey) (fill_answers_kind "program" _)
    · exact Json.length_lt_member 1 Json.tagKey (.string "program") _
    · exact Json.Reading.foldMembers_stops_here
        (Json.Reading.nextKey_answers_comma .keep "declarations") inList
  exact Json.Reading.record_stops "struct Program" inMembers.of_bind

/-- Where one declaration has been changed and still is read as before, all declarations are. -/
theorem list_answers_around {before after : List Declaration} {declaration : Declaration}
    {changed : Json} {tail : List Char}
    (fits : ∀ other ∈ before ++ after, WholesFit other.toJson.leaves)
    (answers : ∀ depth tail, (Declaration.decoder : Json.Reading Declaration).Answers (levels + 1)
      (Json.textAt depth changed tail) tail (declaration.reread? levels)) :
    (Json.Reading.list Declaration.decoder).Answers (levels + 2)
      (' ' :: Json.textAt 1
        (.array (before.map Declaration.toJson ++ changed :: after.map Declaration.toJson)) tail)
      tail ((before ++ declaration :: after).mapM (Declaration.reread? levels)) := by
  let pair (declaration : Declaration) := (declaration.toJson, declaration.reread? levels)
  let pairs := before.map pair ++ (changed, declaration.reread? levels) :: after.map pair
  have isRead : ∀ read ∈ pairs, ∀ tail, Json.Delimits tail →
      (Declaration.decoder : Json.Reading Declaration).Answers (levels + 1)
        (Json.textAt 2 read.1 tail) tail read.2 := by
    simp only [List.forall_mem_append] at fits
    intro read isMember tail _
    rcases List.mem_append.mp isMember with isBefore | isRest
    · rcases List.mem_map.mp isBefore with ⟨other, isOther, rfl⟩
      exact Declaration.decoder_answers (fits.1 other isOther)
    · rcases List.mem_cons.mp isRest with rfl | isAfter
      · exact answers 2 tail
      · rcases List.mem_map.mp isAfter with ⟨other, isOther, rfl⟩
        exact Declaration.decoder_answers (fits.2 other isOther)
  have sameDocuments : pairs.map Prod.fst =
      before.map Declaration.toJson ++ changed :: after.map Declaration.toJson := by
    simp [pairs, pair, Function.comp_def]
  have sameRead : pairs.mapM Prod.snd =
      (before ++ declaration :: after).mapM (Declaration.reread? levels) := by
    simp [pairs, pair, List.mapM_map, Function.comp_def]
  rw [← sameDocuments, ← sameRead]
  exact Json.Reading.list_answers_space isRead

theorem exists_mapM_eq_some {α β : Type} {read : α → Option β} {values : List α}
    (isRead : ∀ value ∈ values, ∃ other, read value = some other) :
    ∃ others, values.mapM read = some others := by
  induction values with
  | nil => exact ⟨[], rfl⟩
  | cons first rest fromRest =>
      rw [List.forall_mem_cons] at isRead
      rcases isRead.1 with ⟨other, isFirst⟩
      rcases fromRest isRead.2 with ⟨others, areRest⟩
      exact ⟨other :: others, by simp [isFirst, areRest]⟩

variable (shallow : program.toJson.nesting ≤ Json.Reading.levelLimit)
variable (fit : WholesFit program.toJson.leaves)

include fit in
theorem declaration_fits {declaration : Declaration}
    (isMember : declaration ∈ program.declarations) : WholesFit declaration.toJson.leaves :=
  Json.wholesFit_of_item fit (List.mem_map_of_mem isMember) (.head _)

include shallow in
theorem declaration_shallow {declaration : Declaration}
    (isMember : declaration ∈ program.declarations) : declaration.toJson.nesting ≤ 124 + 1 :=
  Declaration.nesting_le_iff.mpr (nesting_le_iff.mp shallow declaration isMember)

include shallow fit

theorem declaration_is_read {declaration : Declaration}
    (isMember : declaration ∈ program.declarations) :
    ∃ read, declaration.reread? 124 = some read := by
  rcases Declaration.exists_read (declaration_fits fit isMember)
    (declaration_shallow shallow isMember) with ⟨_, _, _, read, isRead, _⟩
  exact ⟨read, isRead⟩

/-- What has been written of a program of limited nesting is read. -/
theorem exists_read : ∃ read, (program.declarations.mapM (Declaration.reread? 124)).map Program.mk =
    some read := by
  rcases exists_mapM_eq_some fun _ => declaration_is_read shallow fit with
    ⟨declarations, areRead⟩
  exact ⟨⟨declarations⟩, by rw [areRead, Option.map_some]⟩

/-- Where a program has been written with another name for the kind of one node, the reader reads
the same, or it stops for the sake of the name. -/
theorem decoder_of_retyped (retyped : Retyped old new program.toJson other) :
    ((∀ kinds ∈ nodeKinds, old ∉ kinds) ∧
      (decoder : Json.Reading Program).Answers Json.Reading.levelLimit (Json.textAt 0 other []) []
        ((program.declarations.mapM (Declaration.reread? 124)).map Program.mk)) ∨
      ∃ kinds ∈ nodeKinds, old ∈ kinds ∧ (new ∈ kinds ∨
        (decoder : Json.Reading Program).StopsFor Json.Reading.levelLimit (Json.textAt 0 other [])
          (.unknownVariant new kinds)) := by
  rcases retyped_cases retyped with
    ⟨rfl, rfl⟩ | ⟨before, declaration, after, changed, isProgram, inside, rfl⟩
  · exact .inl ⟨by decide, decoder_answers_documentOf (declarations_answers fit _) new⟩
  · have isMember : declaration ∈ program.declarations := by simp [isProgram]
    rcases Declaration.consequent_of_retyped (declaration_fits fit isMember)
      (declaration_shallow shallow isMember) inside with
      ⟨unused, answers⟩ | ⟨kinds, isKinds, isOld, isNew | stops⟩
    · refine .inl ⟨unused, decoder_answers_documentOf ?_ "program"⟩
      rw [isProgram]
      apply list_answers_around _ answers
      intro other isOther
      apply declaration_fits fit
      rw [isProgram]
      exact ((List.sublist_cons_self declaration after).append_left before).subset isOther
    · exact .inr ⟨kinds, isKinds, isOld, .inl isNew⟩
    · refine .inr ⟨kinds, isKinds, isOld, .inr ?_⟩
      apply decoder_stops
      apply Json.Reading.list_stops
      · intro value isValue tail _
        rcases List.mem_map.mp isValue with ⟨other, isOther, rfl⟩
        have isMember : other ∈ program.declarations := by simp [isProgram, isOther]
        rcases declaration_is_read shallow fit isMember with ⟨read, isRead⟩
        exact ⟨read, isRead ▸ Declaration.decoder_answers (declaration_fits fit isMember)⟩
      · exact fun tail _ => stops 2 tail

omit shallow fit in
theorem ofJsonText_of_answers {document : Json} {read : Program}
    (answers : (decoder : Json.Reading Program).Answers Json.Reading.levelLimit
      (Json.textAt 0 document []) [] (some read)) : ofJsonText document.text = .ok read := by
  have isOption : (ofJsonText document.text).toOption = some read := by
    rw [ofJsonText, Json.Reading.toOption_report]
    exact Json.Reading.toOption_wholeText answers
  cases outcome : ofJsonText document.text with
  | error report =>
      rw [outcome] at isOption
      cases isOption
  | ok other =>
      rw [outcome] at isOption
      cases isOption
      rfl

omit shallow fit in
/-- Where the reader stops for the sake of a name, the text is refused with one diagnostic. -/
theorem refusal_of_stops {document : Json} {name : String} {kinds : List String}
    (isKinds : kinds ∈ nodeKinds) (unknown : name ∉ kinds)
    (stops : (decoder : Json.Reading Program).StopsFor Json.Reading.levelLimit
      (Json.textAt 0 document []) (.unknownVariant name kinds)) :
    ∃ report : Json.Report, ofJsonText document.text = .error report ∧
      report.message = (Cause.unknownVariant name kinds).message ∧
      validateJsonText document.text =
        [⟨.semantic, "Unknown node type: " ++ report.display, report.place, ""⟩] := by
  have isText : document.text.toList = Json.textAt 0 document [] := String.toList_ofList
  rw [← isText] at stops
  rcases Json.Reading.wholeText_stops stops with ⟨fault, isRefused, isCause⟩
  have reported := validateJsonText_of_refused isRefused
  have blames : fault.cause.Blames fun _ => True := by
    rw [isCause]
    exact .kind trivial unknown isKinds
  refine ⟨_, reported.1, congrArg Cause.message isCause, ?_⟩
  rw [reported.2, unreadable, holds_display_of_blames _ blames]
  rfl

end Texts

/-- If a node that is told apart by its kind names an unknown one, the text is refused with one
diagnostic that blames the kind.  The names of all other nodes are not looked at. -/
theorem unknown_kind_is_refused (shallow : program.toJson.nesting ≤ Json.Reading.levelLimit)
    (locationsFit : ∀ location ∈ program.locations, location.Fits)
    (retyped : Retyped old new program.toJson other) :
    (∀ kinds ∈ nodeKinds, old ∈ kinds → new ∉ kinds → ∃ report : Json.Report,
      ofJsonText other.text = .error report ∧
        report.message = (Cause.unknownVariant new kinds).message ∧
        validateJsonText other.text =
          [⟨.semantic, "Unknown node type: " ++ report.display, report.place, ""⟩]) ∧
      ((∀ kinds ∈ nodeKinds, old ∉ kinds) → ∃ read, ofJsonText other.text = .ok read ∧
        ofJsonText program.jsonText = .ok read) := by
  have fit := wholesFit locationsFit
  -- No name is in two of the lists, so the list of the node is the one that was given.
  have sameKinds : ∀ kinds ∈ nodeKinds, ∀ others ∈ nodeKinds, ∀ name ∈ kinds, name ∈ others →
      others = kinds := by decide
  rcases decoder_of_retyped shallow fit retyped with
    ⟨unused, answers⟩ | ⟨others, isOthers, isOld, isNewOrStops⟩
  · refine ⟨fun kinds isKinds isOld => absurd isOld (unused kinds isKinds), fun _ => ?_⟩
    rcases exists_read shallow fit with ⟨read, isRead⟩
    have unchanged : (decoder : Json.Reading Program).Answers Json.Reading.levelLimit
        (Json.textAt 0 program.toJson []) [] _ := decoder_answers fit
    rw [isRead] at answers unchanged
    exact ⟨read, ofJsonText_of_answers answers, ofJsonText_of_answers unchanged⟩
  · refine ⟨?_, fun unused => absurd isOld (unused others isOthers)⟩
    intro kinds isKinds inKinds noNew
    cases sameKinds kinds isKinds others isOthers old inKinds isOld
    exact refusal_of_stops isKinds noNew (isNewOrStops.resolve_left noNew)

/-- A rule whose condition is a literal. -/
def ruleOfTwo : Program := ⟨[.rule ⟨"r", some (.literal (.integer 2)), [], .nowhere⟩]⟩

/-- Its document, with another name for the kind of the literal. -/
def gizmoOfTwo : Json :=
  documentOf "program" [.node "rule_declaration" [⟨"name", .string "r"⟩,
    ⟨"condition", .node "gizmo" [⟨"value", .integer 2⟩]⟩, ⟨"actions", .array []⟩,
    Location.nowhere.member]]

theorem gizmoOfTwo_is_refused : ∃ report : Json.Report, ofJsonText gizmoOfTwo.text = .error report ∧
    report.message = (Cause.unknownVariant "gizmo" Expression.kinds).message ∧
    validateJsonText gizmoOfTwo.text =
      [⟨.semantic, "Unknown node type: " ++ report.display, report.place, ""⟩] := by
  have retyped : Retyped "literal" "gizmo" ruleOfTwo.toJson gizmoOfTwo :=
    .member "declarations" [⟨"type", .string "program"⟩] [] <| .item [] [] <|
      .member "condition" [⟨"type", .string "rule_declaration"⟩, ⟨"name", .string "r"⟩]
        [⟨"actions", .array []⟩, Location.nowhere.member] (.here [⟨"value", .integer 2⟩])
  refine (unknown_kind_is_refused (by decide) ?_ retyped).1 Expression.kinds (by decide)
    (by decide) (by decide)
  intro location isLocation
  have isNowhere : location = .nowhere := by
    simpa [ruleOfTwo, locations, Declaration.locations, Statement.locationsOfAll] using isLocation
  rw [isNowhere]
  decide

end Program

end TwinSwarm
