import TwinSwarm.Proofs.Json.Following
import TwinSwarm.Proofs.Tree.Edited
import TwinSwarm.Proofs.Tree.Retyping

/-!
# Edited documents are decoded

An edited form of the document of a tree is decoded to the tree that is left: the same one, but for
the locations that were taken away.
-/

namespace TwinSwarm

open Json (Buffered Describes Edited EditedItems EditedMembers Fields Kinds Medium Named Values
  Variant WholesFit Written tagKey)

/-- An edited form of limited height of what is written for a value is decoded to the value for
which what is left is written. -/
def Restores (size : Nat) {α : Type} (decoder : Buffered α) (encode : α → Json) : Prop :=
  ∀ value shown left, Edited (encode value) shown left → shown.height ≤ size →
    WholesFit (encode value).leaves → ∃ other, encode other = left ∧ decoder shown = .ok other

section Restores

variable {size : Nat} {α : Type} {decoder : Buffered α} {encode : α → Json}

theorem restores_scalar (plain : ∀ value, (encode value).IsScalar)
    (decodes : ∀ value, WholesFit (encode value).leaves → decoder (encode value) = .ok value) :
    Restores size decoder encode := by
  intro value shown left edited _ fit
  rcases edited.eq_of_isScalar (plain value) with ⟨rfl, rfl⟩
  exact ⟨value, rfl, decodes value fit⟩

/-- The members that are kept hold some of the fields of what is left. -/
theorem Json.Written.restores {types : List Type} {fields : Fields Buffered types}
    {write : Values types → List (Entry Json)} {room : Prop} {kept left : List (Entry Json)}
    (written : Written room (Restores size) fields write) (values : Values types)
    (edited : EditedMembers (write values) kept left)
    (low : ∀ member ∈ kept, member.value.height ≤ size)
    (fit : ∀ member ∈ write values, WholesFit member.value.leaves) :
    ∃ others, write others = left ∧ fields.HoldsSome kept others := by
  -- Field by field: what was edited at the head of the members decides how the field is found.
  induction written generalizing kept left with
  | nil =>
      cases edited
      exact ⟨(), rfl, .nil⟩
  | lasting name isLasting ofPart _ fromRest =>
      rcases values with ⟨value, values⟩
      rcases edited.of_lasting isLasting.1 fun isOptional => isLasting.2 isOptional value with
        ⟨shown, _, _, _, rfl, rfl, isShown, ofOthers⟩
      rw [List.forall_mem_cons] at low fit
      rcases ofPart value shown _ isShown low.1 fit.1 with ⟨other, rfl, decodes⟩
      rcases fromRest values ofOthers low.2 fit.2 with ⟨others, rfl, holds⟩
      exact ⟨(other, others), rfl, .given decodes holds⟩
  | nullable name isOptional ofPart notNull _ fromRest =>
      have notPlace : name ≠ "location" := by
        rintro rfl
        exact absurd isOptional (by decide)
      rcases values with ⟨_ | value, values⟩
      -- A null that was written may be kept or taken away; both are decoded to nothing.
      · rcases edited.cons_cases with
          ⟨shown, _, _, _, rfl, rfl, isShown, ofOthers⟩ | ⟨_, _, _, rfl, ofOthers⟩ | ⟨_, isPlace, _⟩
        · rw [List.forall_mem_cons] at low fit
          rcases isShown.eq_of_isScalar trivial with ⟨rfl, rfl⟩
          rcases fromRest values ofOthers low.2 fit.2 with ⟨others, rfl, holds⟩
          exact ⟨(none, others), rfl, .given rfl holds⟩
        · rcases fromRest values ofOthers low (List.forall_mem_cons.mp fit).2 with
            ⟨others, rfl, holds⟩
          exact ⟨(none, others), rfl, .absent rfl holds⟩
        · exact absurd isPlace notPlace
      · rcases edited.of_lasting notPlace fun _ => notNull value with
          ⟨shown, _, _, _, rfl, rfl, isShown, ofOthers⟩
        rw [List.forall_mem_cons] at low fit
        rcases ofPart value shown _ isShown low.1 fit.1 with ⟨other, rfl, decodes⟩
        rcases fromRest values ofOthers low.2 fit.2 with ⟨others, rfl, holds⟩
        have given := Json.Buffered.optional_of_decodes (isShown.ne_null (notNull value)) decodes
        exact ⟨(some other, others), rfl, .given given holds⟩
  | @emptied _ _ _ encode _ _ name plain _ _ ofPart _ fromRest =>
      have isLasting := lasting_of_notMem encode plain
      rcases values with ⟨value, values⟩
      rcases edited.of_lasting isLasting.1 fun isOptional => isLasting.2 isOptional value with
        ⟨shown, _, _, _, rfl, rfl, isShown, ofOthers⟩
      rw [List.forall_mem_cons] at low fit
      rcases ofPart value shown _ isShown low.1 fit.1 with ⟨other, rfl, decodes⟩
      rcases fromRest values ofOthers low.2 fit.2 with ⟨others, rfl, holds⟩
      exact ⟨(other, others), rfl, .given decodes holds⟩
  | located _ ofPart =>
      rcases values with ⟨place, ⟨⟩⟩
      rcases edited.cons_cases with
        ⟨shown, _, _, _, rfl, rfl, isShown, ⟨⟩⟩ | ⟨_, isOptional, _⟩ | ⟨_, _, rfl, ⟨⟩⟩
      · rw [List.forall_mem_singleton] at low fit
        rcases ofPart place shown _ isShown low fit with ⟨other, rfl, decodes⟩
        exact ⟨(other, ()), rfl, .given decodes .nil⟩
      · exact absurd isOptional (by decide)
      · exact ⟨(.nowhere, ()), rfl, .absent rfl .nil⟩

/-- An edited record is decoded. -/
theorem Json.Written.record_restores {types : List Type} {fields : Fields Buffered types}
    {write : Values types → List (Entry Json)} {build : Values types → α} {room : Prop}
    {shown left : List (Entry Json)} (description : String)
    (written : Written room (Restores (size - 1)) fields write) (distinct : fields.names.Nodup)
    (values : Values types)
    (edited : Edited (.object (write values)) (.object shown) (.object left))
    (low : (Json.object shown).height ≤ size)
    (fit : ∀ member ∈ write values, WholesFit member.value.leaves) :
    ∃ others, write others = left ∧
      Buffered.record description fields build (.object shown) = .ok (build others) := by
  cases edited with
  | @object _ kept added _ _ edited foreign reordered =>
      have lower (member : Entry Json) (isKept : member ∈ kept) :
          member.value.height ≤ size - 1 := by
        have isPart : member ∈ shown :=
          reordered.mem_iff.mpr (List.mem_append_left added isKept)
        have lower : member.value.height < (Json.object shown).height :=
          Json.height_lt_of_part (List.mem_map_of_mem isPart)
        omega
      rcases written.restores values edited lower fit with ⟨others, rfl, holds⟩
      rw [written.keys] at foreign
      exact ⟨others, rfl, Buffered.record_of_holdsSome description holds distinct foreign reordered⟩

/-- An edited node of limited height is that of a kind, of which the rest is decoded. -/
theorem Json.Describes.exists_kind {variants : List (Variant α)} {value : α} {shown left : Json}
    (describes : Describes (Restores size) variants encode)
    (edited : Edited (encode value) shown left) (low : shown.height ≤ size)
    (fit : WholesFit (encode value).leaves) :
    ∃ variant ∈ variants, ∃ before after other,
      shown = .object (before ++ ⟨tagKey, .string variant.tag⟩ :: after) ∧
        tagKey ∉ (before ++ after).map Entry.key ∧ encode other = left ∧
          variant.body (.object (before ++ after)) = .ok other := by
  rcases describes with ⟨made, kinds, makes⟩
  rcases kinds.of_made (makes value) with
    ⟨variant, isVariant, β, bare, write, make, part, isKind, rfl⟩
  rw [isKind.encodes] at edited fit
  rcases edited.node_cases (isKind.plain part) with
    ⟨before, after, rest, rfl, rfl, plain, ofRest⟩
  have lower : (Json.object (before ++ after)).height ≤ size :=
    Nat.le_trans (Json.height_le_of_sublist ((List.sublist_cons_self _ after).append_left before))
      low
  rcases isKind.format part _ _ ofRest lower (Json.wholesFit_cons.mp fit).2 with
    ⟨other, isLeft, decodes⟩
  refine ⟨variant, isVariant, before, after, make other, rfl, plain, ?_, ?_⟩
  · rw [isKind.encodes, Json.object.inj isLeft]
  · rw [isKind.body, decodes]
    rfl

/-- The relation is closed under the ways in which formats are put together. -/
theorem restores_closed : Closed (fun _ => True) Restores where
  string _ := restores_scalar (fun _ => trivial) fun _ _ => rfl
  word _ := restores_scalar (fun _ => trivial) fun number _ => by
    simp only [Medium.word, Medium.scalar, if_pos (Numeral.isWord_toInt number), Int64.ofInt_toInt]
  natural _ := restores_scalar (fun _ => trivial) fun number fit => by
    have small : (number : Int) < 2 ^ 64 := (fit number List.mem_cons_self).2
    exact Json.Buffered.natural_integer (by omega)
  literal _ := restores_scalar (fun literal => by cases literal <;> trivial) fun literal _ =>
    literal.ofJson_toJson
  binaryOperator _ := restores_scalar (fun _ => trivial) fun operator _ => operator.decoder_toJson
  unaryOperator _ := restores_scalar (fun _ => trivial) fun operator _ => operator.decoder_toJson
  list {size α decoder encode} restores := by
    intro values shown left edited low fit
    cases edited with
    | @array _ items left edited =>
        have ofItem (value : α) (isValue : value ∈ values) (item : Json) (isItem : item ∈ items)
            (left : Json) (edited : Edited (encode value) item left) :
            ∃ other, encode other = left ∧ decoder item = .ok other := by
          have lower : item.height < (Json.array items).height := Json.height_lt_of_part isItem
          apply restores value item left edited (by omega)
          exact Json.wholesFit_of_mem fit (List.mem_map_of_mem isValue)
        rcases edited.exists_map ofItem with ⟨others, rfl, decode⟩
        exact ⟨others, rfl, Json.Buffered.list_of_forall₂ decode⟩
  record {size α types fields write build encode} description header names written named fit unused
      encodes builds := by
    intro value shown left edited low wholes
    rcases builds value with ⟨values, rfl⟩
    subst named
    rw [encodes] at edited wholes
    have plain : tagKey ∉ (write values).map Entry.key := by
      rw [written.keys]
      exact (List.nodup_cons.mp fit.1).1
    have partsFit (member : Entry Json) (isMember : member ∈ write values) :=
      Json.wholesFit_part wholes (Json.part_of_headed header isMember)
    cases header with
    | none =>
        cases edited with
        | object edited foreign reordered =>
            rcases written.record_restores description (List.nodup_cons.mp fit.1).2 values
              (.object edited foreign reordered) low partsFit with ⟨others, rfl, decodes⟩
            exact ⟨build others, encodes others, decodes⟩
    | some typeName =>
        rcases edited.node_cases plain with ⟨before, after, rest, rfl, rfl, _, ofRest⟩
        rcases written.record_restores description (List.nodup_cons.mp fit.1).2 values
          (ofRest.insert plain) low partsFit with ⟨others, rfl, decodes⟩
        exact ⟨build others, encodes others, decodes⟩
  node {size α variants encode} description describes isKinds _ := by
    intro value shown left edited low fit
    rcases describes.exists_kind edited low fit with
      ⟨variant, isVariant, before, after, other, rfl, plain, isLeft, decodes⟩
    have chosen := Json.Buffered.Heeds.choose_of_mem (Json.nodup_of_mem_nodeKinds isKinds) isVariant
    refine ⟨other, isLeft, ?_⟩
    rw [← decodes]
    exact Json.Buffered.node_of_member description chosen plain

theorem restores_bounded : Bounded Restores where
  zero _ encode := by
    intro value shown left _ low
    have positive := shown.height_pos
    omega
  smaller isSmaller restores value shown left edited low :=
    restores value shown left edited (Nat.le_trans low isSmaller)
  ofHeight restores _ value shown left edited _ :=
    restores shown.height value shown left edited (Nat.le_refl _)

end Restores

/-! ## Declarations -/

namespace Declaration

variable {declaration : Declaration} {shown left : Json}

/-- A declaration is told from others by its document. -/
theorem toJson_inj {other : Declaration} (fit : WholesFit declaration.toJson.leaves)
    (same : other.toJson = declaration.toJson) : other = declaration := by
  rcases exists_variant fit with ⟨kind, chosen, decodes⟩
  rcases exists_variant (same ▸ fit) with ⟨otherKind, otherChosen, otherDecodes⟩
  rcases Json.node_inj.mp same with ⟨sameName, sameMembers⟩
  rw [sameName, chosen] at otherChosen
  cases otherChosen
  rw [sameMembers, decodes] at otherDecodes
  exact (Except.ok.inj otherDecodes).symm

/-- An edited declaration is read as what is left of it. -/
theorem restores (edited : Edited declaration.toJson shown left)
    (fit : WholesFit declaration.toJson.leaves) :
    ∃ read, read.toJson = left ∧ ∀ levels,
      (decoder : Json.Reading Declaration).Follows (levels + 1) shown read := by
  have described : Describes (Restores shown.height) variants toJson :=
    format restores_closed (Expression.format restores_closed restores_bounded)
      (Statement.format restores_closed restores_bounded fun _ => trivial) fun _ _ => trivial
  rcases described.exists_kind edited (Nat.le_refl _) fit with
    ⟨kind, isKind, before, after, read, rfl, plain, isLeft, decodes⟩
  exact ⟨read, isLeft, fun levels =>
    Json.Reading.node_follows "Declaration" (choose_kind isKind) plain decodes⟩

end Declaration

/-! ## Programs -/

namespace Program

variable {program : Program} {shown left : Json}

/-- A program is told from others by its document. -/
theorem toJson_inj {other : Program} (fit : WholesFit program.toJson.leaves)
    (same : other.toJson = program.toJson) : other = program := by
  rcases program with ⟨declarations⟩
  rcases other with ⟨others⟩
  replace fit (declaration : Declaration) (isMember : declaration ∈ declarations) :
      WholesFit declaration.toJson.leaves :=
    declaration_fits fit isMember
  replace same : others.map Declaration.toJson = declarations.map Declaration.toJson := by
    simpa [toJson, Json.node] using same
  congr 1
  induction declarations generalizing others with
  | nil => exact List.map_eq_nil_iff.mp same
  | cons declaration declarations fromRest =>
      rcases List.map_eq_cons_iff.mp same with ⟨first, rest, rfl, sameFirst, sameRest⟩
      rw [List.forall_mem_cons] at fit
      rw [Declaration.toJson_inj fit.1 sameFirst, fromRest rest fit.2 sameRest]

/-- The edited list of declarations is read. -/
theorem declarations_restore {documents left : List Json}
    (edited : EditedItems (program.declarations.map Declaration.toJson) documents left)
    (fit : WholesFit program.toJson.leaves) (levels : Nat) :
    ∃ declarations, declarations.map Declaration.toJson = left ∧
      (Json.Reading.list Declaration.decoder).Follows (levels + 2) (.array documents)
        declarations := by
  have ofDeclaration (declaration : Declaration) (isMember : declaration ∈ program.declarations)
      (document : Json) (_ : document ∈ documents) (left : Json)
      (edited : Edited declaration.toJson document left) : ∃ read : Declaration,
        read.toJson = left ∧ Json.Reading.Follows Declaration.decoder (levels + 1) document read := by
    rcases Declaration.restores edited (declaration_fits fit isMember) with
      ⟨read, isLeft, follows⟩
    exact ⟨read, isLeft, follows levels⟩
  rcases edited.exists_map ofDeclaration with ⟨declarations, isLeft, follow⟩
  exact ⟨declarations, isLeft, Json.Reading.list_follows follow⟩

/-- An edited program is read as what is left of it. -/
theorem restores (edited : Edited program.toJson shown left)
    (fit : WholesFit program.toJson.leaves) (levels : Nat) :
    ∃ read, read.toJson = left ∧
      (decoder : Json.Reading Program).Follows (levels + 3) shown read := by
  rcases edited.node_cases (by simp [tagKey]) with ⟨before, after, rest, rfl, rfl, _, ofRest⟩
  -- The name of the program is a member like any other one that the reader does not know.
  have foreign : tagKey ∉ ["declarations"] := by decide
  have ofAll : Edited (.object _) (.object (before ++ ⟨tagKey, .string "program"⟩ :: after)) _ :=
    ofRest.insert foreign
  generalize before ++ ⟨tagKey, .string "program"⟩ :: after = members at ofAll
  cases ofAll with
  | object edited foreign reordered =>
      rcases edited.of_lasting (by decide) (fun _ => Json.noConfusion) with
        ⟨_, _, _, _, rfl, rfl, isList, ⟨⟩⟩
      cases isList with
      | @array _ documents _ ofItems =>
          rcases declarations_restore ofItems fit levels with ⟨declarations, rfl, follows⟩
          refine ⟨⟨declarations⟩, rfl, ?_⟩
          have isMember : ⟨"declarations", .array documents⟩ ∈ members :=
            reordered.mem_iff.mpr List.mem_cons_self
          rcases List.append_of_mem isMember with ⟨before, after, rfl⟩
          have reordered := (List.perm_middle.symm.trans reordered).cons_inv
          have foreign : ∀ member ∈ before ++ after, member.key ∉ Program.fields.names :=
            fun member isOther => foreign member (reordered.mem_iff.mp isOther)
          rw [List.forall_mem_append] at foreign
          have ofList : Json.Reading.FollowsColon
              (Json.Reading.fill fields (none, ()) "declarations") (levels + 2) (.array documents)
              (some declarations, ()) :=
            Json.Reading.fill_follows_first follows
          have takes : Json.Reading.TakesAll (Json.Reading.fill fields) (levels + 2)
              (before ++ ⟨"declarations", .array documents⟩ :: after) (none, ())
              (some declarations, ()) :=
            (Json.Reading.takesAll_of_foreign foreign.1 _).append
              ⟨_, ofList, Json.Reading.takesAll_of_foreign foreign.2 _⟩
          exact Json.Reading.record_follows "struct Program" takes rfl

/-- A document is kept as it is written, but for its doubles, if it does not nest too deeply and
its whole numbers fit 64 bits. -/
theorem wholeText_kept (shallow : shown.nesting ≤ Json.Reading.levelLimit)
    (fit : WholesFit shown.leaves) : Json.Reading.wholeText Json.Reading.kept shown.text =
      .ok (shown.mapDoubles Double.reread) := by
  have isReread : shown.reread? Json.Reading.levelLimit = some (shown.mapDoubles Double.reread) :=
    (Json.reread?_eq_some_iff shown fit).mpr ⟨shallow, Json.doublesReturn _, rfl⟩
  have isOption : (Json.Reading.wholeText Json.Reading.kept shown.text).toOption = _ :=
    Json.Reading.toOption_wholeText (Json.Reading.kept_answers_textAt shown .nil)
  rw [isReread] at isOption
  generalize Json.Reading.wholeText Json.Reading.kept shown.text = outcome at isOption ⊢
  cases outcome with
  | error fault => cases isOption
  | ok read => exact congrArg Except.ok (Option.some.inj isOption)

/-- An edited document is read as a program from every text in which it stands. -/
theorem exists_read_of_edited (fit : WholesFit program.toJson.leaves)
    (edited : Edited program.toJson shown left) : ∃ read, read.toJson = left ∧
      ∀ text, Json.Reading.wholeText Json.Reading.kept text = .ok shown →
        ofJsonText text = .ok read := by
  rcases restores edited fit 124 with ⟨read, isLeft, follows⟩
  refine ⟨read, isLeft, ?_⟩
  intro text isKept
  rw [ofJsonText, Json.Reading.report, Json.Reading.wholeText_of_follows follows isKept]

/-- However the document of a program has been edited, it is read as the program that is left:
from any text in which the edited document stands, and from the text that is written for it. -/
theorem edited_is_read (locationsFit : ∀ location ∈ program.locations, location.Fits)
    (edited : Edited program.toJson shown left) :
    ∃ read, (∀ other : Program, other.toJson = left ↔ other = read) ∧
      (∀ text, Json.Reading.wholeText Json.Reading.kept text = .ok shown →
        ofJsonText text = .ok read) ∧
      (shown.nesting ≤ Json.Reading.levelLimit → WholesFit shown.leaves →
        (∀ value, .float value ∈ program.toJson.leaves → value.reread? = some value) →
          ofJsonText shown.text = .ok read) := by
  have fit := wholesFit locationsFit
  have unique {read other : Program} (isLeft : read.toJson = left) :
      other.toJson = left ↔ other = read := by
    subst isLeft
    exact ⟨toJson_inj (edited.wholesFit _ fit), congrArg toJson⟩
  rcases exists_read_of_edited fit edited with ⟨read, isLeft, isRead⟩
  refine ⟨read, fun other => unique isLeft, isRead, ?_⟩
  intro shallow shownFit sameDoubles
  have sameDoubles (value : Double) (isLeaf : .float value ∈ program.toJson.leaves) :=
    (value.reread?_eq_some_self_iff.mp (sameDoubles value isLeaf)).2
  rcases exists_read_of_edited fit (edited.mapDoubles _ sameDoubles) with
    ⟨other, isOther, isText⟩
  rw [isText _ (wholeText_kept shallow shownFit), (unique isLeft).mp isOther]

/-- A rule with a place, and the same rule without one. -/
def ruleAt (location : Location) : Program :=
  ⟨[.rule ⟨"r", none, [.log (.literal (.string "on")) none ⟨2, 3⟩], location⟩]⟩

/-- A member that no node knows. -/
def note : Entry Json := ⟨"note", .array [.integer 7, .object []]⟩

/-- Its document with the members of the rule in another order and one more of them, without the
place of the rule and without the parts that are null. -/
def editedRule : Json :=
  .object [⟨"type", .string "program"⟩, ⟨"declarations", .array [.object [
    note, ⟨"actions", .array [.object [⟨"type", .string "log_statement"⟩,
      ⟨"message", .node "literal" [⟨"value", .string "on"⟩]⟩, Location.member ⟨2, 3⟩]]⟩,
    ⟨"name", .string "r"⟩, ⟨"type", .string "rule_declaration"⟩]]⟩]

theorem editedRule_is_read : ofJsonText editedRule.text = .ok (ruleAt .nowhere) := by
  have same (members : List (Entry Json)) : members.Perm (members ++ []) := by
    rw [List.append_nil]
  have ofLog : Edited (Statement.log (.literal (.string "on")) none ⟨2, 3⟩).toJson _ _ :=
    .object (.kept "type" (.string _) <| .kept "message" (.refl _) <| .absent (by decide) <|
      .kept "location" (.refl _) .nil) (List.forall_mem_nil _) (same _)
  have foreign : ∀ member ∈ [note], member.key ∉
      ["type", "name", "condition", "actions", "location"] :=
    List.forall_mem_singleton.mpr (by decide)
  have ofRule : Edited (Declaration.rule ⟨"r", none, [.log (.literal (.string "on")) none ⟨2, 3⟩],
      ⟨1, 1⟩⟩).toJson _ _ :=
    .object (.kept "type" (.string _) <| .kept "name" (.string _) <| .absent (by decide) <|
      .kept "actions" (.array (.cons ofLog .nil)) <| .unplaced _ .nil) foreign
      (List.reverse_perm _)
  have edited : Edited (ruleAt ⟨1, 1⟩).toJson editedRule (ruleAt .nowhere).toJson :=
    .object (.kept "type" (.string _) <| .kept "declarations" (.array (.cons ofRule .nil)) .nil)
      (List.forall_mem_nil _) (same _)
  have locationsFit : ∀ location ∈ (ruleAt ⟨1, 1⟩).locations, location.Fits := by
    intro location isLocation
    have isEither : location = ⟨1, 1⟩ ∨ location = ⟨2, 3⟩ := by
      simpa [ruleAt, locations, Declaration.locations, Statement.locationsOfAll,
        Statement.locations] using isLocation
    rcases isEither with rfl | rfl <;> decide
  rcases edited_is_read locationsFit edited with ⟨read, unique, _, isRead⟩
  rw [(unique (ruleAt .nowhere)).mp rfl]
  apply isRead (by decide)
  · simp [editedRule, note, Json.leaves, Json.leavesOfAll, Json.leavesOfMembers, Location.member,
      Location.wholesFit_toJson, Json.Numeral.Fits, Location.Fits]
  · intro value isLeaf
    simp [ruleAt, toJson, Declaration.toJson, Declaration.members, Location.member,
      Location.toJson, Expression.optionalToJson, Expression.toJson, Literal.toJson,
      Statement.toJson, Json.leavesOfMembers, Json.leavesOfAll,
      Json.leaves] at isLeaf

end Program

end TwinSwarm
