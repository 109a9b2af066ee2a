import TwinSwarm.Proofs.Json.Retyped
import TwinSwarm.Proofs.Json.Scattered
import TwinSwarm.Proofs.Tree.Format

/-!
# Edited documents

The document of a tree may be edited before it is read again.  At any depth, the members of objects
may be put in another order, members of unknown names may be added, and locations and parts that
are null may be taken away.  Beside an edited document stands the document that is left of the
first one, in which each location that was taken away is no place.
-/

namespace TwinSwarm

open Json (Buffered Fields Values tagKey)

namespace Json

mutual

/-- The second document is an edited form of the first one, and the third one is what is left of
the first one. -/
inductive Edited : Json → Json → Json → Prop where
  | null : Edited .null .null .null
  | boolean (value : Bool) : Edited (.boolean value) (.boolean value) (.boolean value)
  | integer (value : Int) : Edited (.integer value) (.integer value) (.integer value)
  | float (value : Double) : Edited (.float value) (.float value) (.float value)
  | string (value : String) : Edited (.string value) (.string value) (.string value)
  | array {items shown left : List Json} :
      EditedItems items shown left → Edited (.array items) (.array shown) (.array left)
  | object {members kept added shown left : List (Entry Json)} :
      EditedMembers members kept left → (∀ member ∈ added, member.key ∉ members.map Entry.key) →
        shown.Perm (kept ++ added) → Edited (.object members) (.object shown) (.object left)

/-- The same for the items of an array, one by one. -/
inductive EditedItems : List Json → List Json → List Json → Prop where
  | nil : EditedItems [] [] []
  | cons {item shown left : Json} {items others rest : List Json} :
      Edited item shown left → EditedItems items others rest →
        EditedItems (item :: items) (shown :: others) (left :: rest)

/-- The members of an object, those of them that are kept, and what is left of all of them. -/
inductive EditedMembers : List (Entry Json) → List (Entry Json) → List (Entry Json) → Prop where
  | nil : EditedMembers [] [] []
  | kept {value shown left : Json} {members others rest : List (Entry Json)} (key : String) :
      Edited value shown left → EditedMembers members others rest →
        EditedMembers (⟨key, value⟩ :: members) (⟨key, shown⟩ :: others) (⟨key, left⟩ :: rest)
  | absent {members others rest : List (Entry Json)} {key : String} : key ∈ optionalNames →
      EditedMembers members others rest →
        EditedMembers (⟨key, .null⟩ :: members) others (⟨key, .null⟩ :: rest)
  | unplaced {members others rest : List (Entry Json)} (value : Json) :
      EditedMembers members others rest →
        EditedMembers (⟨"location", value⟩ :: members) others (Location.nowhere.member :: rest)

end

variable {document shown left : Json} {members kept added others rest : List (Entry Json)}

mutual

/-- A document may be left as it is. -/
theorem Edited.refl : (document : Json) → Edited document document document
  | .null => .null
  | .boolean value => .boolean value
  | .integer value => .integer value
  | .float value => .float value
  | .string value => .string value
  | .array items => .array (.refl items)
  | .object members =>
      .object (.refl members) (List.forall_mem_nil _) (by rw [List.append_nil])

theorem EditedItems.refl : (items : List Json) → EditedItems items items items
  | [] => .nil
  | item :: items => .cons (.refl item) (.refl items)

theorem EditedMembers.refl : (members : List (Entry Json)) → EditedMembers members members members
  | [] => .nil
  | ⟨key, value⟩ :: members => .kept key (.refl value) (.refl members)

end

mutual

/-- The whole numbers of what is left fit 64 bits if those of the document do. -/
theorem Edited.wholesFit : (document : Json) → {shown left : Json} → Edited document shown left →
    WholesFit document.leaves → WholesFit left.leaves
  | .null, _, _, .null, fit => fit
  | .boolean _, _, _, .boolean _, fit => fit
  | .integer _, _, _, .integer _, fit => fit
  | .float _, _, _, .float _, fit => fit
  | .string _, _, _, .string _, fit => fit
  | .array items, _, _, .array edited, fit => edited.wholesFit items fit
  | .object members, _, _, .object edited _ _, fit => edited.wholesFit members fit

theorem EditedItems.wholesFit : (items : List Json) → {shown left : List Json} →
    EditedItems items shown left → WholesFit (leavesOfAll items) → WholesFit (leavesOfAll left)
  | [], _, _, .nil, fit => fit
  | item :: items, _, _, .cons edited others, fit => by
      rw [leavesOfAll, wholesFit_append] at fit ⊢
      exact ⟨edited.wholesFit item fit.1, others.wholesFit items fit.2⟩

theorem EditedMembers.wholesFit : (members : List (Entry Json)) → {kept left : List (Entry Json)} →
    EditedMembers members kept left → WholesFit (leavesOfMembers members) →
      WholesFit (leavesOfMembers left)
  | [], _, _, .nil, fit => fit
  | ⟨_, value⟩ :: members, _, _, .kept _ edited others, fit => by
      rw [leavesOfMembers, wholesFit_append] at fit ⊢
      exact ⟨edited.wholesFit value fit.1, others.wholesFit members fit.2⟩
  | ⟨_, _⟩ :: members, _, _, .absent _ others, fit => by
      rw [leavesOfMembers, wholesFit_append] at fit ⊢
      exact ⟨fit.1, others.wholesFit members fit.2⟩
  | ⟨_, _⟩ :: members, _, _, .unplaced _ others, fit => by
      rw [leavesOfMembers, wholesFit_append] at fit
      rw [Location.member, leavesOfMembers, wholesFit_append]
      exact ⟨(Location.wholesFit_toJson _).mpr (by decide), others.wholesFit members fit.2⟩

end

mutual

/-- Other doubles in an edited document are an edit as well, if those of the document that was
edited stay. -/
theorem Edited.mapDoubles {change : Double → Double} : (document : Json) → {shown left : Json} →
    Edited document shown left →
      (∀ double, .float double ∈ document.leaves → change double = double) →
        Edited document (shown.mapDoubles change) left
  | .null, _, _, .null, _ => .null
  | .boolean _, _, _, .boolean value, _ => .boolean value
  | .integer _, _, _, .integer value, _ => .integer value
  | .float _, _, _, .float value, same => by
      rw [Json.mapDoubles, same value List.mem_cons_self]
      exact .float value
  | .string _, _, _, .string value, _ => .string value
  | .array items, _, _, .array edited, same => .array (edited.mapDoubles items same)
  | .object members, _, _, @Edited.object _ kept added shown _ edited foreign reordered, same => by
      have reordered : (mapDoublesOfMembers change shown).Perm
          (mapDoublesOfMembers change kept ++ mapDoublesOfMembers change added) := by
        simp only [mapDoublesOfMembers_eq_map, ← List.map_append]
        exact reordered.map _
      refine .object (edited.mapDoubles members same) ?_ reordered
      rw [mapDoublesOfMembers_eq_map, List.forall_mem_map]
      exact foreign

theorem EditedItems.mapDoubles {change : Double → Double} : (items : List Json) →
    {shown left : List Json} → EditedItems items shown left →
      (∀ double, .float double ∈ leavesOfAll items → change double = double) →
        EditedItems items (mapDoublesOfAll change shown) left
  | [], _, _, .nil, _ => .nil
  | item :: items, _, _, .cons edited others, same => by
      simp only [leavesOfAll, List.mem_append, or_imp, forall_and] at same
      exact .cons (edited.mapDoubles item same.1) (others.mapDoubles items same.2)

theorem EditedMembers.mapDoubles {change : Double → Double} : (members : List (Entry Json)) →
    {kept left : List (Entry Json)} → EditedMembers members kept left →
      (∀ double, .float double ∈ leavesOfMembers members → change double = double) →
        EditedMembers members (mapDoublesOfMembers change kept) left
  | [], _, _, .nil, _ => .nil
  | ⟨_, value⟩ :: members, _, _, .kept key edited others, same => by
      simp only [leavesOfMembers, List.mem_append, or_imp, forall_and] at same
      exact .kept key (edited.mapDoubles value same.1) (others.mapDoubles members same.2)
  | ⟨_, _⟩ :: members, _, _, .absent isOptional others, same => by
      simp only [leavesOfMembers, List.mem_append, or_imp, forall_and] at same
      exact .absent isOptional (others.mapDoubles members same.2)
  | ⟨_, _⟩ :: members, _, _, .unplaced value others, same => by
      simp only [leavesOfMembers, List.mem_append, or_imp, forall_and] at same
      exact .unplaced value (others.mapDoubles members same.2)

end

theorem Edited.eq_of_isScalar (edited : Edited document shown left) (isScalar : document.IsScalar) :
    shown = document ∧ left = document := by
  cases edited with
  | array | object => exact isScalar.elim
  | _ => exact ⟨rfl, rfl⟩

theorem Edited.ne_null (edited : Edited document shown left) (notNull : document ≠ .null) :
    shown ≠ .null := by
  rintro rfl
  cases edited
  exact notNull rfl

/-- Where each edited item is that of a value, so are all of them. -/
theorem EditedItems.exists_map {α : Type} {encode : α → Json} {values : List α}
    {shown left : List Json} {relation : Json → α → Prop}
    (edited : EditedItems (values.map encode) shown left)
    (ofItem : ∀ value ∈ values, ∀ item ∈ shown, ∀ left, Edited (encode value) item left →
      ∃ other, encode other = left ∧ relation item other) :
    ∃ others, others.map encode = left ∧ List.Forall₂ relation shown others := by
  induction values generalizing shown left with
  | nil =>
      cases edited
      exact ⟨[], rfl, .nil⟩
  | cons value values fromRest =>
      cases edited with
      | cons edited others =>
          rcases ofItem value List.mem_cons_self _ List.mem_cons_self _ edited with
            ⟨other, rfl, holds⟩
          rcases fromRest others fun value isMember item isItem =>
            ofItem value (List.mem_cons_of_mem _ isMember) item (List.mem_cons_of_mem _ isItem) with
            ⟨rest, rfl, holdsRest⟩
          exact ⟨other :: rest, rfl, .cons holds holdsRest⟩

theorem EditedMembers.keys_subset {left : List (Entry Json)} :
    {members kept : List (Entry Json)} → EditedMembers members kept left →
      kept.map Entry.key ⊆ members.map Entry.key
  | _, _, .nil => List.Subset.refl _
  | _, _, .kept key _ others => List.cons_subset_cons key others.keys_subset
  | _, _, .absent _ others => List.subset_cons_of_subset _ others.keys_subset
  | _, _, .unplaced _ others => List.subset_cons_of_subset _ others.keys_subset

/-- What may become of the first of several members. -/
theorem EditedMembers.cons_cases {key : String} {value : Json} {left : List (Entry Json)}
    (edited : EditedMembers (⟨key, value⟩ :: members) kept left) :
    (∃ shown leftValue others rest, kept = ⟨key, shown⟩ :: others ∧
      left = ⟨key, leftValue⟩ :: rest ∧ Edited value shown leftValue ∧
        EditedMembers members others rest) ∨
      (∃ rest, key ∈ optionalNames ∧ value = .null ∧ left = ⟨key, .null⟩ :: rest ∧
        EditedMembers members kept rest) ∨
      ∃ rest, key = "location" ∧ left = Location.nowhere.member :: rest ∧
        EditedMembers members kept rest := by
  generalize isHead : (⟨key, value⟩ :: members : List (Entry Json)) = all at edited
  cases edited with
  | nil => cases isHead
  | kept key edited others =>
      cases isHead
      exact .inl ⟨_, _, _, _, rfl, rfl, edited, others⟩
  | absent isOptional others =>
      cases isHead
      exact .inr (.inl ⟨_, isOptional, rfl, rfl, others⟩)
  | unplaced value others =>
      cases isHead
      exact .inr (.inr ⟨_, rfl, rfl, others⟩)

/-- A member that is no location is kept, unless it is null and may be left out. -/
theorem EditedMembers.of_lasting {key : String} {value : Json} {left : List (Entry Json)}
    (edited : EditedMembers (⟨key, value⟩ :: members) kept left) (notPlace : key ≠ "location")
    (given : key ∈ optionalNames → value ≠ .null) :
    ∃ shown leftValue others rest, kept = ⟨key, shown⟩ :: others ∧
      left = ⟨key, leftValue⟩ :: rest ∧ Edited value shown leftValue ∧
        EditedMembers members others rest := by
  rcases edited.cons_cases with isKept | ⟨_, isOptional, isNull, _⟩ | ⟨_, isPlace, _⟩
  · exact isKept
  · exact absurd isNull (given isOptional)
  · exact absurd isPlace notPlace

/-! ## Nodes -/

/-- An object with fewer members is not higher. -/
theorem height_le_of_sublist (sublist : List.Sublist kept members) :
    (Json.object kept).height ≤ (Json.object members).height := by
  apply Nat.succ_le_succ
  induction sublist with
  | slnil => exact Nat.le_refl _
  | cons member _ fromRest => exact Nat.le_trans fromRest (Nat.le_max_right _ _)
  | cons_cons member _ fromRest => exact max_le_max (Nat.le_refl _) fromRest

/-- An edited object may have one more member. -/
theorem Edited.insert {before after : List (Entry Json)} {member : Entry Json} {left : Json}
    (edited : Edited (.object members) (.object (before ++ after)) left)
    (unknown : member.key ∉ members.map Entry.key) :
    Edited (.object members) (.object (before ++ member :: after)) left := by
  cases edited with
  | object edited foreign reordered =>
      refine .object edited (List.forall_mem_cons.mpr ⟨unknown, foreign⟩) ?_
      exact List.perm_middle.trans ((reordered.cons member).trans List.perm_middle.symm)

/-- A node keeps the name of its kind, somewhere among its members. -/
theorem Edited.node_cases {typeName : String} {left : Json}
    (plain : tagKey ∉ members.map Entry.key)
    (edited : Edited (.node typeName members) shown left) :
    ∃ before after rest, shown = .object (before ++ ⟨tagKey, .string typeName⟩ :: after) ∧
      left = .node typeName rest ∧ tagKey ∉ (before ++ after).map Entry.key ∧
        Edited (.object members) (.object (before ++ after)) (.object rest) := by
  cases edited with
  | @object _ kept added shown _ edited foreign reordered =>
      rcases edited.of_lasting (by decide) (fun _ => Json.noConfusion) with
        ⟨_, _, others, rest, rfl, rfl, isTag, ofOthers⟩
      cases isTag
      have isMember : (⟨tagKey, .string typeName⟩ : Entry Json) ∈ shown :=
        reordered.mem_iff.mpr List.mem_cons_self
      rcases List.append_of_mem isMember with ⟨before, after, rfl⟩
      have reordered : (before ++ after).Perm (others ++ added) :=
        (List.perm_middle.symm.trans reordered).cons_inv
      rw [List.map_cons] at foreign
      refine ⟨before, after, rest, rfl, rfl, ?_, .object ofOthers ?_ reordered⟩
      · apply notMem_keys_of_perm reordered fun isKept => plain (ofOthers.keys_subset isKept)
        exact fun member isAdded isTag => foreign member isAdded (isTag ▸ List.mem_cons_self)
      · exact fun member isAdded isKnown =>
          foreign member isAdded (List.mem_cons_of_mem _ isKnown)

end Json
end TwinSwarm
