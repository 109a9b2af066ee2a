import TwinSwarm.Json.Document

/-!
# Decoders

What a JSON document describes is decoded in one of two ways: directly from the text,
so that the first fault in the order of the text is found, or from a value that has
been read before.  A class has both ways as its instances, so that each kind of record
is described once, by the list of its fields.  A record is written as an object with
its fields in any order and with further members that are ignored, or as an array of
its fields in order.  Nodes that come in several kinds are objects or arrays that name
their kind; apart from the kind they are always read as a value first.
-/

namespace TwinSwarm.Json

/-- A way to decode a value that has been read. -/
def Buffered (α : Type) : Type := Json → Except Cause α

/-! ## Fields -/

/-- A field of a record.  An object may lack it if `absent` is given, and an array may
end before it if `beyond` is given. -/
structure Field (D : Type → Type) (α : Type) where
  name : String
  decoder : D α
  absent : Option α
  beyond : Option α

/-- The fields of a record in order, with the types of their values. -/
inductive Fields (D : Type → Type) : List Type → Type 1 where
  | nil : Fields D []
  | cons {α : Type} {types : List Type} :
      Field D α → Fields D types → Fields D (α :: types)

/-- A value of each of several types. -/
@[reducible] def Values : List Type → Type
  | [] => Unit
  | α :: types => α × Values types

/-- A value of each of several types, as far as it has been found. -/
@[reducible] def Slots : List Type → Type
  | [] => Unit
  | α :: types => Option α × Slots types

/-- No value has been found. -/
def Slots.empty : (types : List Type) → Slots types
  | [] => ()
  | _ :: types => (none, Slots.empty types)

namespace Fields

variable {D : Type → Type} {types : List Type}

/-- The number of fields. -/
def count : {types : List Type} → Fields D types → Nat
  | _, .nil => 0
  | _, .cons _ rest => rest.count + 1

/-- The values of the fields of an object whose members have all been taken. -/
def finish : {types : List Type} → Fields D types → Slots types → Except Cause (Values types)
  | _, .nil, _ => .ok ()
  | _, .cons field rest, (slot, slots) =>
      match slot <|> field.absent with
      | none => .error (.missingField field.name)
      | some value =>
          match rest.finish slots with
          | .error cause => .error cause
          | .ok values => .ok (value, values)

end Fields

/-- A kind of node: its name, and how the rest of the node is decoded. -/
structure Variant (α : Type) where
  tag : String
  body : Buffered α

/-! ## The class of decoders -/

/-- A way to decode documents. -/
class Medium (D : Type → Type) where
  /-- A value without parts, by a test that refuses arrays and objects. -/
  scalar {α : Type} : (Json → Except Cause α) → D α
  /-- Any value, by a test. -/
  whole {α : Type} : (Json → Except Cause α) → D α
  /-- A value or null. -/
  optional {α : Type} : D α → D (Option α)
  /-- An array. -/
  list {α : Type} : D α → D (List α)
  /-- A record of a given description. -/
  record {α : Type} {types : List Type} : String → Fields D types → (Values types → α) → D α
  /-- A node that names its kind, of a given description. -/
  node {α : Type} : String → List (Variant α) → D α
  /-- One of several names. -/
  choice {α : Type} : List (Entry α) → D α

/-- What is wanted where a node of a given description is wanted. -/
def nodeWanted (description : String) : String := "internally tagged enum " ++ description

/-- The name of the member that names the kind of a node. -/
def tagKey : String := "type"

/-- What is wanted where the name of a kind is wanted. -/
def tagWanted : String := "variant identifier"

/-- The entry that a name stands for. -/
def choose {α : Type} (entries : List (Entry α)) (name : String) : Except Cause α :=
  match entries.find? fun entry => entry.key = name with
  | some entry => .ok entry.value
  | none => .error (.unknownVariant name (entries.map Entry.key))

/-- The entry that is named by a string. -/
def chooseString {α : Type} (entries : List (Entry α)) : Json → Except Cause α
  | .string name => choose entries name
  | value => .error (.wrongType value.found tagWanted)

/-- The kinds of a node by their names. -/
def Variant.entries {α : Type} (variants : List (Variant α)) : List (Entry (Variant α)) :=
  variants.map fun variant => ⟨variant.tag, variant⟩

/-- What is wanted of an array that stands for a record. -/
def elementsWanted (description : String) (count : Nat) : String :=
  description ++ " with " ++ elementCount count

/-! ## Decoding values -/

namespace Buffered

variable {α : Type} {types : List Type}

/-- Put a member of an object into the slot of its field. -/
def fill : {types : List Type} → Fields Buffered types → Entry Json → Slots types →
    Except Cause (Slots types)
  | _, .nil, _, slots => .ok slots
  | _, .cons field rest, member, (slot, slots) =>
      if member.key = field.name then
        match slot with
        | some _ => .error (.duplicateField field.name)
        | none =>
            match field.decoder member.value with
            | .error cause => .error cause
            | .ok value => .ok (some value, slots)
      else
        match fill rest member slots with
        | .error cause => .error cause
        | .ok slots => .ok (slot, slots)

/-- Put the members of an object into the slots of their fields. -/
def fillAll (fields : Fields Buffered types) : List (Entry Json) → Slots types →
    Except Cause (Slots types)
  | [], slots => .ok slots
  | member :: rest, slots =>
      match fill fields member slots with
      | .error cause => .error cause
      | .ok slots => fillAll fields rest slots

/-- Take the fields from an array, which may be too short.  Gives the values and the
items that were left over. -/
def takeItems (wanted : String) : {types : List Type} → Nat → Fields Buffered types →
    List Json → Except Cause (Values types × List Json)
  | _, _, .nil, items => .ok ((), items)
  | _, index, .cons field rest, [] =>
      match field.beyond with
      | none => .error (.wrongLength index wanted)
      | some value =>
          match takeItems wanted (index + 1) rest [] with
          | .error cause => .error cause
          | .ok (values, items) => .ok ((value, values), items)
  | _, index, .cons field rest, item :: items =>
      match field.decoder item with
      | .error cause => .error cause
      | .ok value =>
          match takeItems wanted (index + 1) rest items with
          | .error cause => .error cause
          | .ok (values, items) => .ok ((value, values), items)

/-- A record. -/
def record (description : String) (fields : Fields Buffered types) (build : Values types → α) :
    Buffered α
  | .object members =>
      match fillAll fields members (.empty types) with
      | .error cause => .error cause
      | .ok slots => (fields.finish slots).map build
  | .array items =>
      match takeItems (elementsWanted description fields.count) 0 fields items with
      | .error cause => .error cause
      | .ok (values, []) => .ok (build values)
      | .ok (_, _ :: _) =>
          .error (.wrongLength items.length (elementCount fields.count ++ " in sequence"))
  | value => .error (.wrongType value.found description)

/-- The kind of a node, named by a string or by its number. -/
def tag (variants : List (Variant α)) : Buffered (Variant α)
  | .integer index =>
      if index < 0 then .error (.wrongType (.integer index) tagWanted)
      else
        match variants[index.toNat]? with
        | some variant => .ok variant
        | none => .error (.wrongValue (.integer index)
            ("variant index 0 <= i < " ++ toString variants.length))
  | value => chooseString (Variant.entries variants) value

/-- Take the members of a node one by one: its kind, and all others. -/
def splitMembers (variants : List (Variant α)) : List (Entry Json) → Option (Variant α) →
    List (Entry Json) → Except Cause (Option (Variant α) × List (Entry Json))
  | [], found, others => .ok (found, others)
  | member :: rest, found, others =>
      if member.key = tagKey then
        match found with
        | some _ => .error (.duplicateField tagKey)
        | none =>
            match tag variants member.value with
            | .error cause => .error cause
            | .ok variant => splitMembers variants rest (some variant) others
      else splitMembers variants rest found (others ++ [member])

/-- A node that names its kind. -/
def node (description : String) (variants : List (Variant α)) : Buffered α
  | .object members =>
      match splitMembers variants members none [] with
      | .error cause => .error cause
      | .ok (none, _) => .error (.missingField tagKey)
      | .ok (some variant, others) => variant.body (.object others)
  | .array [] => .error (.missingField tagKey)
  | .array (first :: rest) =>
      match tag variants first with
      | .error cause => .error cause
      | .ok variant => variant.body (.array rest)
  | value => .error (.wrongType value.found (nodeWanted description))

/-- What stands for nothing beside a name: null, or an object without members. -/
def unit : Buffered Unit
  | .null | .object [] => .ok ()
  | value => .error (.wrongType value.found "unit")

/-- One of several names, alone or as the only key of an object. -/
def choice (entries : List (Entry α)) : Buffered α
  | .string name => choose entries name
  | .object [⟨key, value⟩] =>
      match choose entries key with
      | .error cause => .error cause
      | .ok chosen => (unit value).map fun _ => chosen
  | .object _ => .error (.wrongValue .object "map with a single key")
  | value => .error (.wrongType value.found "string or map")

/-- The items of an array. -/
def listItems (item : Buffered α) : List Json → Except Cause (List α)
  | [] => .ok []
  | first :: rest =>
      match item first with
      | .error cause => .error cause
      | .ok value =>
          match listItems item rest with
          | .error cause => .error cause
          | .ok values => .ok (value :: values)

/-- An array. -/
def list (item : Buffered α) : Buffered (List α)
  | .array items => listItems item items
  | value => .error (.wrongType value.found "a sequence")

/-- A value or null. -/
def optional (decoder : Buffered α) : Buffered (Option α)
  | .null => .ok none
  | value =>
      match decoder value with
      | .error cause => .error cause
      | .ok value => .ok (some value)

end Buffered

instance : Medium Buffered where
  scalar test := test
  whole test := test
  optional := Buffered.optional
  list := Buffered.list
  record := Buffered.record
  node := Buffered.node
  choice := Buffered.choice

/-! ## Decoding texts -/

namespace Reading

variable {α : Type} {types : List Type}

/-- The outcome of a test of what has just been read. -/
def settled : Except Cause α → Reading α
  | .ok value => return value
  | .error cause => halt cause

/-- The outcome of decoding what has just been read, as a part of something larger. -/
def settledLater : Except Cause α → Reading α
  | .ok value => return value
  | .error cause => object cause

/-- A value without parts.  An array or an object is refused before its bracket. -/
def scalar (test : Json → Except Cause α) : Reading α := do
  match ← peekBehindSpace with
  | some '[' => settled (test (.array []))
  | some '\x7b' => settled (test (.object []))
  | _ => settled (test (← kept))

/-- Refuse a value that is no container of the wanted kind. -/
def mismatch (wanted : String) : Reading α :=
  scalar fun value => .error (.wrongType value.found wanted)

/-- Any value. -/
def whole (test : Json → Except Cause α) : Reading α := do
  settledLater (test (← kept))

/-- A value or null. -/
def optional (decoder : Reading α) : Reading (Option α) := do
  match ← peekBehindSpace with
  | some 'n' =>
      pass
      word ['u', 'l', 'l']
      return none
  | _ => return some (← decoder)

/-- An array. -/
def list (item : Reading α) : Reading (List α) := do
  match ← peekBehindSpace with
  | some '[' => enclosed leaveList (items .keep item true)
  | _ => mismatch "a sequence"

/-- Put a member of an object into the slot of its field, behind its key.  Other members
are passed over. -/
def fill : {types : List Type} → Fields Reading types → Slots types → String →
    Reading (Slots types)
  | _, .nil, slots, _ => do
      colon
      skipped
      return slots
  | _, .cons field rest, (slot, slots), key =>
      if key = field.name then
        match slot with
        | some _ => object (.duplicateField field.name)
        | none => do
            colon
            let value ← field.decoder
            return (some value, slots)
      else do
        let slots ← fill rest slots key
        return (slot, slots)

/-- Take the fields from an array, which may be too short. -/
def takeItems (wanted : String) : {types : List Type} → Nat → Fields Reading types →
    Reading (Values types)
  | _, _, .nil => return ()
  | _, index, .cons field rest => do
      if ← nextItem .keep (index = 0) then
        let value ← field.decoder
        return (value, ← takeItems wanted (index + 1) rest)
      else
        match field.beyond with
        | none => object (.wrongLength index wanted)
        | some value => return (value, ← takeItems wanted (index + 1) rest)

/-- The inside of an object that stands for a record. -/
def recordMembers (fields : Fields Reading types) : Reading (Values types) := do
  let slots ← foldMembers .keep (fill fields) true (Slots.empty types)
  settledLater (fields.finish slots)

/-- A record. -/
def record (description : String) (fields : Fields Reading types) (build : Values types → α) :
    Reading α := do
  match ← peekBehindSpace with
  | some '[' =>
      let wanted := elementsWanted description fields.count
      return build (← enclosed leaveList (takeItems wanted 0 fields))
  | some '\x7b' => return build (← enclosed leaveObject (recordMembers fields))
  | _ => mismatch description

/-- The kind of a node. -/
def tag (variants : List (Variant α)) : Reading (Variant α) :=
  scalar (chooseString (Variant.entries variants))

/-- Take a member of a node behind its key: its kind, or any other. -/
def splitMember (variants : List (Variant α)) :
    Option (Variant α) × List (Entry Json) → String →
      Reading (Option (Variant α) × List (Entry Json))
  | (found, others), key =>
      if key = tagKey then
        match found with
        | some _ => object (.duplicateField tagKey)
        | none => do
            colon
            let variant ← tag variants
            return (some variant, others)
      else do
        colon
        let value ← kept
        return (found, others ++ [⟨key, value⟩])

/-- The inside of an object that is a node: its kind and the rest. -/
def nodeMembers (variants : List (Variant α)) : Reading (Variant α × Json) := do
  let (found, others) ← foldMembers .keep (splitMember variants) true (none, [])
  match found with
  | none => object (.missingField tagKey)
  | some variant => return (variant, .object others)

/-- The inside of an array that is a node: its kind and the rest. -/
def nodeItems (variants : List (Variant α)) : Reading (Variant α × Json) := do
  if ← nextItem .keep true then
    let variant ← tag variants
    return (variant, .array (← items .keep kept false))
  else object (.missingField tagKey)

/-- A node that names its kind. -/
def node (description : String) (variants : List (Variant α)) : Reading α := do
  match ← peekBehindSpace with
  | some '[' =>
      let (variant, rest) ← enclosed leaveList (nodeItems variants)
      settledLater (variant.body rest)
  | some '\x7b' =>
      let (variant, rest) ← enclosed leaveObject (nodeMembers variants)
      settledLater (variant.body rest)
  | _ => mismatch (nodeWanted description)

/-- What stands for nothing beside a name: null. -/
def unit : Reading Unit :=
  scalar fun
    | .null => .ok ()
    | value => .error (.wrongType value.found "unit")

/-- The name that is the only key of an object. -/
def name (entries : List (Entry α)) : Reading α := do
  match ← peekBehindSpace with
  | none => refuse .endInObject
  | some '"' => scalar (chooseString entries)
  | some '\x7d' => refuse .expectedValue
  | some _ => refuse .keyMustBeString

/-- A name and nothing beside it, behind the brace. -/
def namedUnit (entries : List (Entry α)) : Reading α := do
  pass
  let chosen ← name entries
  colon
  unit
  return chosen

/-- Allow one level less inside. -/
def oneLevelIn (inside : Reading α) : Reading α
  | 0, passage => refuse .nestedTooDeeply 0 passage
  | levels + 1, passage => inside levels passage

/-- One of several names, alone or as the only key of an object. -/
def choice (entries : List (Entry α)) : Reading α := do
  match ← peekBehindSpace with
  | none => refuse .endInValue
  | some '"' => scalar (chooseString entries)
  | some '\x7b' =>
      let chosen ← oneLevelIn (namedUnit entries)
      match ← peekBehindSpace with
      | none => halt .endInObject
      | some '\x7d' =>
          pass
          return chosen
      | some _ => halt .expectedValue
  | some _ => refuse .expectedValue

end Reading

instance : Medium Reading where
  scalar := Reading.scalar
  whole := Reading.whole
  optional := Reading.optional
  list := Reading.list
  record := Reading.record
  node := Reading.node
  choice := Reading.choice

/-! ## Common fields and decoders -/

namespace Fields

variable {D : Type → Type} [Medium D] {α : Type} {types : List Type}

/-- A field that has to be there. -/
def required (name : String) (decoder : D α) (rest : Fields D types) : Fields D (α :: types) :=
  .cons ⟨name, decoder, none, none⟩ rest

/-- A field that may be null, and that an object may lack. -/
def nullable (name : String) (decoder : D α) (rest : Fields D types) :
    Fields D (Option α :: types) :=
  .cons ⟨name, Medium.optional decoder, some none, none⟩ rest

/-- A field that has a value of its own where it is not given. -/
def defaulted (name : String) (value : α) (decoder : D α) (rest : Fields D types) :
    Fields D (α :: types) :=
  .cons ⟨name, decoder, some value, some value⟩ rest

end Fields

namespace Medium

variable {D : Type → Type} [Medium D]

/-- A string. -/
def string : D String :=
  scalar fun
    | .string value => .ok value
    | value => .error (.wrongType value.found "a string")

/-- A truth value. -/
def boolean : D Bool :=
  scalar fun
    | .boolean value => .ok value
    | value => .error (.wrongType value.found "a boolean")

/-- A natural number of 64 bits. -/
def natural : D Nat :=
  scalar fun
    | .integer value =>
        if 0 ≤ value ∧ value < UInt64.size then .ok value.toNat
        else .error (.wrongValue (.integer value) "usize")
    | value => .error (.wrongType value.found "usize")

/-- A whole number of 64 bits with a sign. -/
def word : D Int64 :=
  scalar fun
    | .integer value =>
        if TwinSwarm.Numeral.isWord value then .ok (Int64.ofInt value)
        else .error (.wrongValue (.integer value) "i64")
    | value => .error (.wrongType value.found "i64")

end Medium

end TwinSwarm.Json
