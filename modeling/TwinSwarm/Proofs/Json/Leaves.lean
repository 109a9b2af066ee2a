import TwinSwarm.Proofs.Json.Document
import TwinSwarm.Tree.ToJson

/-!
# When a document is read back

A document is read back if it does not nest too deeply and none of its doubles is read
as an infinite one.  What is read back differs in nothing but doubles that are read as
their neighbours.
-/

namespace TwinSwarm

/-- The double that is read where a double has been written, if any is. -/
def Double.reread (value : Double) : Double := value.reread?.getD value

theorem Double.reread?_eq_some_self_iff (value : Double) :
    value.reread? = some value ↔ value.reread?.isSome ∧ value.reread = value := by
  unfold reread
  cases value.reread? with
  | none => simp
  | some read => simp

namespace Json

mutual

/-- The number of arrays and objects that are open at a time while the value is read. -/
def nesting : Json → Nat
  | .array items => nestingOfAll items + 1
  | .object members => nestingOfMembers members + 1
  | _ => 0

/-- The largest nesting of several values. -/
def nestingOfAll : List Json → Nat
  | [] => 0
  | first :: rest => max (nesting first) (nestingOfAll rest)

/-- The largest nesting of the values of several members. -/
def nestingOfMembers : List (Entry Json) → Nat
  | [] => 0
  | ⟨_, value⟩ :: rest => max (nesting value) (nestingOfMembers rest)

end

mutual

/-- The values without parts that the value is made of, in order. -/
def leaves : Json → List Json
  | .array items => leavesOfAll items
  | .object members => leavesOfMembers members
  | value => [value]

/-- The values without parts in several values. -/
def leavesOfAll : List Json → List Json
  | [] => []
  | first :: rest => leaves first ++ leavesOfAll rest

/-- The values without parts in several members. -/
def leavesOfMembers : List (Entry Json) → List Json
  | [] => []
  | ⟨_, value⟩ :: rest => leaves value ++ leavesOfMembers rest

end

mutual

/-- The value with other doubles. -/
def mapDoubles (change : Double → Double) : Json → Json
  | .float value => .float (change value)
  | .array items => .array (mapDoublesOfAll change items)
  | .object members => .object (mapDoublesOfMembers change members)
  | value => value

/-- Several values with other doubles. -/
def mapDoublesOfAll (change : Double → Double) : List Json → List Json
  | [] => []
  | first :: rest => mapDoubles change first :: mapDoublesOfAll change rest

/-- Several members with other doubles. -/
def mapDoublesOfMembers (change : Double → Double) : List (Entry Json) → List (Entry Json)
  | [] => []
  | ⟨key, value⟩ :: rest => ⟨key, mapDoubles change value⟩ :: mapDoublesOfMembers change rest

end

@[simp] theorem leaves_node (typeName : String) (parts : List (Entry Json)) :
    (Json.node typeName parts).leaves = .string typeName :: leavesOfMembers parts := rfl

theorem node_inj {typeName otherName : String} {parts others : List (Entry Json)} :
    Json.node typeName parts = .node otherName others ↔ typeName = otherName ∧ parts = others := by
  simp [Json.node]

@[simp] theorem mapDoubles_node (change : Double → Double) (typeName : String)
    (parts : List (Entry Json)) : (Json.node typeName parts).mapDoubles change =
      .node typeName (mapDoublesOfMembers change parts) := rfl

mutual

/-- A value stays the same with other doubles exactly if its own doubles stay the same. -/
theorem mapDoubles_eq_self_iff {change : Double → Double} : (value : Json) →
    (value.mapDoubles change = value ↔
      ∀ double, .float double ∈ value.leaves → change double = double)
  | .null | .boolean _ | .integer _ | .string _ => by simp [mapDoubles, leaves]
  | .float _ => by simp [mapDoubles, leaves]
  | .array items => by simp [mapDoubles, leaves, mapDoublesOfAll_eq_self_iff items]
  | .object members => by simp [mapDoubles, leaves, mapDoublesOfMembers_eq_self_iff members]

theorem mapDoublesOfAll_eq_self_iff {change : Double → Double} : (values : List Json) →
    (mapDoublesOfAll change values = values ↔
      ∀ double, .float double ∈ leavesOfAll values → change double = double)
  | [] => by simp [mapDoublesOfAll, leavesOfAll]
  | first :: rest => by
      simp [mapDoublesOfAll, leavesOfAll, mapDoubles_eq_self_iff first,
        mapDoublesOfAll_eq_self_iff rest, or_imp, forall_and]

theorem mapDoublesOfMembers_eq_self_iff {change : Double → Double} :
    (members : List (Entry Json)) → (mapDoublesOfMembers change members = members ↔
      ∀ double, .float double ∈ leavesOfMembers members → change double = double)
  | [] => by simp [mapDoublesOfMembers, leavesOfMembers]
  | ⟨key, value⟩ :: rest => by
      simp [mapDoublesOfMembers, leavesOfMembers, mapDoubles_eq_self_iff value,
        mapDoublesOfMembers_eq_self_iff rest, or_imp, forall_and]

end

mutual

/-- The leaves are the same with other doubles in place. -/
theorem leaves_mapDoubles (change : Double → Double) : (value : Json) →
    (value.mapDoubles change).leaves = value.leaves.map (mapDoubles change)
  | .null | .boolean _ | .integer _ | .string _ | .float _ => by simp [mapDoubles, leaves]
  | .array items => by simp [mapDoubles, leaves, leavesOfAll_mapDoubles change items]
  | .object members => by simp [mapDoubles, leaves, leavesOfMembers_mapDoubles change members]

theorem leavesOfAll_mapDoubles (change : Double → Double) : (values : List Json) →
    leavesOfAll (mapDoublesOfAll change values) = (leavesOfAll values).map (mapDoubles change)
  | [] => rfl
  | first :: rest => by
      simp [mapDoublesOfAll, leavesOfAll, leaves_mapDoubles change first,
        leavesOfAll_mapDoubles change rest]

theorem leavesOfMembers_mapDoubles (change : Double → Double) : (members : List (Entry Json)) →
    leavesOfMembers (mapDoublesOfMembers change members) =
      (leavesOfMembers members).map (mapDoubles change)
  | [] => rfl
  | ⟨key, value⟩ :: rest => by
      simp [mapDoublesOfMembers, leavesOfMembers, leaves_mapDoubles change value,
        leavesOfMembers_mapDoubles change rest]

end

theorem nestingOfAll_le_iff {values : List Json} {levels : Nat} :
    nestingOfAll values ≤ levels ↔ ∀ value ∈ values, value.nesting ≤ levels := by
  induction values with
  | nil => simp [nestingOfAll]
  | cons first rest fromRest => simp [nestingOfAll, fromRest]

theorem mem_leavesOfAll_iff {leaf : Json} {values : List Json} :
    leaf ∈ leavesOfAll values ↔ ∃ value ∈ values, leaf ∈ value.leaves := by
  induction values with
  | nil => simp [leavesOfAll]
  | cons first rest fromRest => simp [leavesOfAll, fromRest]

/-- What holds of single values holds of several: if each of them is written in the same way
with other doubles, so are all of them. -/
theorem exists_map_eq_mapDoubles {α : Type} {encode : α → Json} (change : Double → Double)
    (closed : ∀ value, ∃ other, encode other = (encode value).mapDoubles change)
    (values : List α) :
    ∃ others : List α, others.map encode = mapDoublesOfAll change (values.map encode) := by
  induction values with
  | nil => exact ⟨[], rfl⟩
  | cons first rest fromRest =>
      rcases closed first with ⟨other, changed⟩
      rcases fromRest with ⟨others, othersChanged⟩
      refine ⟨other :: others, ?_⟩
      rw [List.map_cons, List.map_cons, mapDoublesOfAll, changed, othersChanged]

/-- Every whole number among the leaves fits 64 bits. -/
def WholesFit (leaves : List Json) : Prop :=
  ∀ number, .integer number ∈ leaves → Numeral.Fits number

/-- No double among the leaves is read as an infinite one. -/
def DoublesReturn (leaves : List Json) : Prop :=
  ∀ value, .float value ∈ leaves → value.reread?.isSome

@[simp] theorem wholesFit_nil : WholesFit [] := by
  intro number isMember
  cases isMember

@[simp] theorem wholesFit_cons {first : Json} {rest : List Json} :
    WholesFit (first :: rest) ↔
      (∀ number, first = .integer number → Numeral.Fits number) ∧ WholesFit rest := by
  simp only [WholesFit, List.mem_cons, or_imp, forall_and, eq_comm]

@[simp] theorem wholesFit_append {left right : List Json} :
    WholesFit (left ++ right) ↔ WholesFit left ∧ WholesFit right := by
  simp only [WholesFit, List.mem_append, or_imp, forall_and]

/-- Other doubles do not change the whole numbers. -/
theorem WholesFit.mapDoubles {value : Json} (change : Double → Double)
    (fit : WholesFit value.leaves) : WholesFit (value.mapDoubles change).leaves := by
  intro number isLeaf
  rw [leaves_mapDoubles, List.mem_map] at isLeaf
  rcases isLeaf with ⟨leaf, isLeaf, isNumber⟩
  cases leaf with
  | integer other =>
      cases isNumber
      exact fit number isLeaf
  | _ => cases isNumber

theorem wholesFit_of_mem {value : Json} {values : List Json} (fit : WholesFit (leavesOfAll values))
    (isMember : value ∈ values) : WholesFit value.leaves := by
  induction isMember with
  | head rest => exact (wholesFit_append.mp fit).1
  | tail first _ fromRest => exact fromRest (wholesFit_append.mp fit).2

theorem wholesFit_of_member {key : String} {value : Json} {members : List (Entry Json)}
    (fit : WholesFit (leavesOfMembers members)) (isMember : ⟨key, value⟩ ∈ members) :
    WholesFit value.leaves := by
  induction isMember with
  | head rest => exact (wholesFit_append.mp fit).1
  | tail first _ fromRest => exact fromRest (wholesFit_append.mp fit).2

theorem wholesFit_of_part {typeName key : String} {value : Json} {parts : List (Entry Json)}
    (fit : WholesFit (Json.node typeName parts).leaves) (isPart : ⟨key, value⟩ ∈ parts) :
    WholesFit value.leaves :=
  wholesFit_of_member (wholesFit_cons.mp fit).2 isPart

theorem wholesFit_of_item {typeName key : String} {item : Json} {items : List Json}
    {parts : List (Entry Json)} (fit : WholesFit (Json.node typeName parts).leaves)
    (isItem : item ∈ items) (isPart : ⟨key, .array items⟩ ∈ parts) : WholesFit item.leaves :=
  wholesFit_of_mem (wholesFit_of_part fit isPart) isItem

@[simp] theorem doublesReturn_append {left right : List Json} :
    DoublesReturn (left ++ right) ↔ DoublesReturn left ∧ DoublesReturn right := by
  simp only [DoublesReturn, List.mem_append, or_imp, forall_and]

mutual

/-- A value is read back exactly if it does not nest too deeply and its doubles return. -/
theorem reread?_eq_some_iff : (value : Json) → {levels : Nat} → {read : Json} →
    WholesFit value.leaves → (value.reread? levels = some read ↔
      value.nesting ≤ levels ∧ DoublesReturn value.leaves ∧
        value.mapDoubles Double.reread = read)
  | .null, _, _, _ | .boolean _, _, _, _ | .string _, _, _, _ => by
      simp [reread?, nesting, leaves, mapDoubles, DoublesReturn]
  | .integer number, _, _, fit => by
      have fits := fit number List.mem_cons_self
      simp [reread?, nesting, leaves, mapDoubles, DoublesReturn,
        Numeral.value_ofInteger fits, Except.toOption]
  | .float value, _, _, _ => by
      simp only [reread?, nesting, leaves, mapDoubles, DoublesReturn, Double.reread]
      cases isRead : value.reread? <;> simp [isRead]
  | .array items, 0, _, _ | .object members, 0, _, _ => by simp [reread?, nesting]
  | .array items, levels + 1, read, fit => by
      rw [leaves] at fit
      simp only [reread?, nesting, leaves, mapDoubles, Option.map_eq_some_iff,
        rereadAll?_eq_some_iff items fit, Nat.add_le_add_iff_right]
      constructor
      · rintro ⟨_, ⟨shallow, returns, rfl⟩, rfl⟩
        exact ⟨shallow, returns, rfl⟩
      · rintro ⟨shallow, returns, rfl⟩
        exact ⟨_, ⟨shallow, returns, rfl⟩, rfl⟩
  | .object members, levels + 1, read, fit => by
      rw [leaves] at fit
      simp only [reread?, nesting, leaves, mapDoubles, Option.map_eq_some_iff,
        rereadMembers?_eq_some_iff members fit, Nat.add_le_add_iff_right]
      constructor
      · rintro ⟨_, ⟨shallow, returns, rfl⟩, rfl⟩
        exact ⟨shallow, returns, rfl⟩
      · rintro ⟨shallow, returns, rfl⟩
        exact ⟨_, ⟨shallow, returns, rfl⟩, rfl⟩

theorem rereadAll?_eq_some_iff : (values : List Json) → {levels : Nat} → {read : List Json} →
    WholesFit (leavesOfAll values) → (rereadAll? levels values = some read ↔
      nestingOfAll values ≤ levels ∧ DoublesReturn (leavesOfAll values) ∧
        mapDoublesOfAll Double.reread values = read)
  | [], _, _, _ => by
      simp [rereadAll?, nestingOfAll, leavesOfAll, mapDoublesOfAll, DoublesReturn]
  | first :: rest, levels, read, fit => by
      rw [leavesOfAll, wholesFit_append] at fit
      simp only [rereadAll?, nestingOfAll, leavesOfAll, mapDoublesOfAll, Option.bind_eq_bind,
        Option.bind_eq_some_iff, reread?_eq_some_iff first fit.1,
        rereadAll?_eq_some_iff rest fit.2, Nat.max_le, doublesReturn_append]
      constructor
      · rintro ⟨_, ⟨firstShallow, firstReturn, rfl⟩, _, ⟨restShallow, restReturn, rfl⟩, isRead⟩
        exact ⟨⟨firstShallow, restShallow⟩, ⟨firstReturn, restReturn⟩, Option.some.inj isRead⟩
      · rintro ⟨⟨firstShallow, restShallow⟩, ⟨firstReturn, restReturn⟩, rfl⟩
        exact ⟨_, ⟨firstShallow, firstReturn, rfl⟩, _, ⟨restShallow, restReturn, rfl⟩, rfl⟩

theorem rereadMembers?_eq_some_iff : (members : List (Entry Json)) → {levels : Nat} →
    {read : List (Entry Json)} → WholesFit (leavesOfMembers members) →
      (rereadMembers? levels members = some read ↔
        nestingOfMembers members ≤ levels ∧ DoublesReturn (leavesOfMembers members) ∧
          mapDoublesOfMembers Double.reread members = read)
  | [], _, _, _ => by
      simp [rereadMembers?, nestingOfMembers, leavesOfMembers, mapDoublesOfMembers,
        DoublesReturn]
  | ⟨key, value⟩ :: rest, levels, read, fit => by
      rw [leavesOfMembers, wholesFit_append] at fit
      simp only [rereadMembers?, nestingOfMembers, leavesOfMembers, mapDoublesOfMembers,
        Option.bind_eq_bind, Option.bind_eq_some_iff, reread?_eq_some_iff value fit.1,
        rereadMembers?_eq_some_iff rest fit.2, Nat.max_le, doublesReturn_append]
      constructor
      · rintro ⟨_, ⟨valueShallow, valueReturn, rfl⟩, _, ⟨restShallow, restReturn, rfl⟩, isRead⟩
        exact ⟨⟨valueShallow, restShallow⟩, ⟨valueReturn, restReturn⟩, Option.some.inj isRead⟩
      · rintro ⟨⟨valueShallow, restShallow⟩, ⟨valueReturn, restReturn⟩, rfl⟩
        exact ⟨_, ⟨valueShallow, valueReturn, rfl⟩, _, ⟨restShallow, restReturn, rfl⟩, rfl⟩

end

end Json

end TwinSwarm
