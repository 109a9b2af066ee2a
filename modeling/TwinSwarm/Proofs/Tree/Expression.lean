import TwinSwarm.Proofs.Json.Decoder
import TwinSwarm.Proofs.Json.Leaves
import TwinSwarm.Tree.OfJson

/-!
# Expressions and their documents

The document of an expression is decoded to the same expression.  All of its whole
numbers fit 64 bits, because they are literals.
-/

namespace TwinSwarm

open Json (Buffered Fields WholesFit height_le_heightOfMembers height_lt_node
  height_lt_node_of_item WholesFit)
open Json.Buffered (list_of_decodes node_of_holds optional_of_decodes)

/-! ## Literals and operators -/

theorem Numeral.isWord_toInt (value : Int64) : isWord value.toInt = true := by
  have notBelow := value.le_toInt
  have notAbove := value.toInt_lt
  simp only [isWord, Int64.toInt_minValue, Int64.toInt_maxValue, Bool.and_eq_true,
    decide_eq_true_eq]
  omega

theorem Literal.ofJson_toJson (literal : Literal) : ofJson literal.toJson = .ok literal := by
  cases literal with
  | integer value =>
      simp only [toJson, ofJson, if_pos (Numeral.isWord_toInt value), Int64.ofInt_toInt]
  | _ => rfl

theorem BinaryOperator.decoder_toJson (operator : BinaryOperator) :
    (decoder : Buffered BinaryOperator) operator.toJson = .ok operator := by
  cases operator <;> rfl

theorem UnaryOperator.decoder_toJson (operator : UnaryOperator) :
    (decoder : Buffered UnaryOperator) operator.toJson = .ok operator := by
  cases operator <;> rfl

/-- An entry is decoded if its value is. -/
theorem Entry.decoder_of_decodes {decoder : Buffered Expression} {document : Json}
    {value : Expression} (description key : String) (decodes : decoder document = .ok value) :
    (Entry.decoder description decoder : Buffered (Entry Expression))
      (.object [⟨"key", .string key⟩, ⟨"value", document⟩]) = .ok ⟨key, value⟩ :=
  Json.Buffered.record_of_holds description ["key", "value"] rfl (by decide)
    (.cons rfl (.cons decodes .nil)) rfl

theorem Entry.height_lt_settingToJson (entry : Entry Expression) :
    entry.value.toJson.height < entry.settingToJson.height :=
  Nat.lt_succ_of_le (height_le_heightOfMembers (.tail _ (.head _)))

namespace Expression

/-! ## Decoding -/

theorem entriesToJson_eq_map (entries : List (Entry Expression)) :
    entriesToJson entries = entries.map Entry.settingToJson := by
  induction entries with
  | nil => rfl
  | cons first rest fromRest =>
      rw [entriesToJson, fromRest]
      rfl

/-- An expression is decoded if the expressions inside are. -/
theorem node_toJson {inner : Buffered Expression} (expression : Expression)
    (decodes : ∀ part : Expression, part.toJson.height < expression.toJson.height →
      inner part.toJson = .ok part) :
    Buffered.node description (variants inner) expression.toJson = .ok expression := by
  cases expression with
  | binary operator left right =>
      rw [toJson] at decodes ⊢
      have leftDecoded := decodes left (height_lt_node (.tail _ (.head _)))
      have rightDecoded := decodes right (height_lt_node (.tail _ (.tail _ (.head _))))
      exact node_of_holds description ["operator", "left", "right"] rfl rfl (by decide)
        (.cons operator.decoder_toJson (.cons leftDecoded (.cons rightDecoded .nil))) rfl
  | unary operator operand =>
      rw [toJson] at decodes ⊢
      have decoded := decodes operand (height_lt_node (.tail _ (.head _)))
      exact node_of_holds description ["operator", "operand"] rfl rfl (by decide)
        (.cons operator.decoder_toJson (.cons decoded .nil)) rfl
  | literal value =>
      rw [toJson]
      exact node_of_holds description ["value"] rfl rfl (by decide)
        (.cons value.ofJson_toJson .nil) rfl
  | grouping expression =>
      rw [toJson] at decodes ⊢
      have decoded := decodes expression (height_lt_node (.head _))
      exact node_of_holds description ["expression"] rfl rfl (by decide) (.cons decoded .nil) rfl
  | array elements =>
      rw [toJson, allToJson_eq_map] at decodes ⊢
      have decoded : Buffered.list inner (.array (elements.map toJson)) = .ok elements :=
        list_of_decodes fun element isElement =>
          decodes element (height_lt_node_of_item (List.mem_map_of_mem isElement) (.head _))
      exact node_of_holds description ["elements"] rfl rfl (by decide) (.cons decoded .nil) rfl
  | object entries =>
      rw [toJson, entriesToJson_eq_map] at decodes ⊢
      have decoded : Buffered.list (Entry.decoder "struct ObjectEntry" inner)
          (.array (entries.map Entry.settingToJson)) = .ok entries := by
        apply list_of_decodes
        intro entry isEntry
        apply Entry.decoder_of_decodes
        apply decodes
        exact Nat.lt_trans entry.height_lt_settingToJson
          (height_lt_node_of_item (List.mem_map_of_mem isEntry) (.head _))
      exact node_of_holds description ["entries"] rfl rfl (by decide) (.cons decoded .nil) rfl
  | reference name =>
      rw [toJson]
      exact node_of_holds description ["name"] rfl rfl (by decide) (.cons rfl .nil) rfl
  | call callee arguments =>
      rw [toJson, allToJson_eq_map] at decodes ⊢
      have decoded : Buffered.list inner (.array (arguments.map toJson)) = .ok arguments :=
        list_of_decodes fun argument isArgument =>
          decodes argument
            (height_lt_node_of_item (List.mem_map_of_mem isArgument) (.tail _ (.head _)))
      exact node_of_holds description ["callee", "arguments"] rfl rfl (by decide)
        (.cons rfl (.cons decoded .nil)) rfl
  | property owner name =>
      rw [toJson]
      exact node_of_holds description ["object", "property"] rfl rfl (by decide)
        (.cons rfl (.cons rfl .nil)) rfl

/-- The document of an expression is decoded at every height that it does not exceed. -/
theorem ofJsonWithin_toJson {height : Nat} : (expression : Expression) →
    expression.toJson.height ≤ height → ofJsonWithin height expression.toJson = .ok expression := by
  induction height with
  | zero =>
      intro expression low
      cases expression <;> exact absurd low (Nat.not_succ_le_zero _)
  | succ height fromBelow =>
      intro expression low
      exact node_toJson expression fun part lower =>
        fromBelow part (Nat.le_of_lt_succ (Nat.lt_of_lt_of_le lower low))

theorem decoder_toJson (expression : Expression) :
    (decoder : Buffered Expression) expression.toJson = .ok expression :=
  node_toJson expression fun part _ => ofJsonWithin_toJson part (Nat.le_refl _)

theorem optional_optionalToJson (expression : Option Expression) :
    Buffered.optional decoder (optionalToJson expression) = .ok expression := by
  cases expression with
  | none => rfl
  | some expression =>
      apply optional_of_decodes _ (decoder_toJson expression)
      cases expression <;> exact Json.noConfusion

/-! ## Numbers -/

mutual

/-- The whole numbers of an expression are literals, which fit 64 bits. -/
theorem wholesFit : (expression : Expression) → WholesFit expression.toJson.leaves
  | .binary operator left right => by
      simp [toJson, BinaryOperator.toJson, Json.leaves, Json.leavesOfMembers, wholesFit left,
        wholesFit right]
  | .unary operator operand => by
      simp [toJson, UnaryOperator.toJson, Json.leaves, Json.leavesOfMembers, wholesFit operand]
  | .literal (.integer value) => by
      simp [toJson, Literal.toJson, Json.leaves, Json.leavesOfMembers, Json.Numeral.fits_toInt]
  | .literal .null | .literal (.boolean value) | .literal (.decimal value)
  | .literal (.string value) => by
      simp [toJson, Literal.toJson, Json.leaves, Json.leavesOfMembers]
  | .grouping inner => by
      simp [toJson, Json.leavesOfMembers, wholesFit inner]
  | .array elements => by
      simp [toJson, Json.leaves, Json.leavesOfMembers, wholesFit_all elements]
  | .object entries => by
      simp [toJson, Json.leaves, Json.leavesOfMembers, wholesFit_entries entries]
  | .reference name => by
      simp [toJson, Json.leaves, Json.leavesOfMembers]
  | .call callee arguments => by
      simp [toJson, Json.leaves, Json.leavesOfMembers, wholesFit_all arguments]
  | .property owner name => by
      simp [toJson, Json.leaves, Json.leavesOfMembers]

theorem wholesFit_all : (expressions : List Expression) →
    WholesFit (Json.leavesOfAll (allToJson expressions))
  | [] => by simp [allToJson, Json.leavesOfAll]
  | first :: rest => by
      simp [allToJson, Json.leavesOfAll, wholesFit first, wholesFit_all rest]

theorem wholesFit_entries : (entries : List (Entry Expression)) →
    WholesFit (Json.leavesOfAll (entriesToJson entries))
  | [] => by simp [entriesToJson, Json.leavesOfAll]
  | ⟨key, value⟩ :: rest => by
      simp [entriesToJson, Json.leavesOfAll, Json.leaves, Json.leavesOfMembers, wholesFit value,
        wholesFit_entries rest]

end

mutual

/-- With other doubles, the document of an expression is still one of an expression. -/
theorem exists_toJson_eq_mapDoubles (change : Double → Double) : (expression : Expression) →
    ∃ other : Expression, other.toJson = expression.toJson.mapDoubles change
  | .binary operator left right => by
      rcases exists_toJson_eq_mapDoubles change left with ⟨newLeft, leftChanged⟩
      rcases exists_toJson_eq_mapDoubles change right with ⟨newRight, rightChanged⟩
      refine ⟨.binary operator newLeft newRight, ?_⟩
      simp [toJson, BinaryOperator.toJson, Json.mapDoubles, Json.mapDoublesOfMembers, leftChanged,
        rightChanged]
  | .unary operator operand => by
      rcases exists_toJson_eq_mapDoubles change operand with ⟨other, changed⟩
      refine ⟨.unary operator other, ?_⟩
      simp [toJson, UnaryOperator.toJson, Json.mapDoubles, Json.mapDoublesOfMembers, changed]
  | .literal (.decimal value) =>
      ⟨.literal (.decimal (change value)), rfl⟩
  | .literal .null => ⟨.literal .null, rfl⟩
  | .literal (.boolean value) => ⟨.literal (.boolean value), rfl⟩
  | .literal (.integer value) => ⟨.literal (.integer value), rfl⟩
  | .literal (.string value) => ⟨.literal (.string value), rfl⟩
  | .grouping inner => by
      rcases exists_toJson_eq_mapDoubles change inner with ⟨other, changed⟩
      refine ⟨.grouping other, ?_⟩
      simp [toJson, Json.mapDoublesOfMembers, changed]
  | .array elements => by
      rcases exists_allToJson_eq_mapDoubles change elements with ⟨others, changed⟩
      refine ⟨.array others, ?_⟩
      simp [toJson, Json.mapDoubles, Json.mapDoublesOfMembers, changed]
  | .object entries => by
      rcases exists_entriesToJson_eq_mapDoubles change entries with ⟨others, changed⟩
      refine ⟨.object others, ?_⟩
      simp [toJson, Json.mapDoubles, Json.mapDoublesOfMembers, changed]
  | .reference name => ⟨.reference name, rfl⟩
  | .call callee arguments => by
      rcases exists_allToJson_eq_mapDoubles change arguments with ⟨others, changed⟩
      refine ⟨.call callee others, ?_⟩
      simp [toJson, Json.mapDoubles, Json.mapDoublesOfMembers, changed]
  | .property owner name => ⟨.property owner name, rfl⟩

theorem exists_allToJson_eq_mapDoubles (change : Double → Double) :
    (expressions : List Expression) → ∃ others : List Expression,
      allToJson others = Json.mapDoublesOfAll change (allToJson expressions)
  | [] => ⟨[], rfl⟩
  | first :: rest => by
      rcases exists_toJson_eq_mapDoubles change first with ⟨other, changed⟩
      rcases exists_allToJson_eq_mapDoubles change rest with ⟨others, othersChanged⟩
      refine ⟨other :: others, ?_⟩
      simp [allToJson, Json.mapDoublesOfAll, changed, othersChanged]

theorem exists_entriesToJson_eq_mapDoubles (change : Double → Double) :
    (entries : List (Entry Expression)) → ∃ others : List (Entry Expression),
      entriesToJson others = Json.mapDoublesOfAll change (entriesToJson entries)
  | [] => ⟨[], rfl⟩
  | ⟨key, value⟩ :: rest => by
      rcases exists_toJson_eq_mapDoubles change value with ⟨other, changed⟩
      rcases exists_entriesToJson_eq_mapDoubles change rest with ⟨others, othersChanged⟩
      refine ⟨⟨key, other⟩ :: others, ?_⟩
      simp [entriesToJson, Json.mapDoublesOfAll, Json.mapDoubles, Json.mapDoublesOfMembers,
        changed, othersChanged]

end

theorem exists_optionalToJson_eq_mapDoubles (change : Double → Double)
    (expression : Option Expression) : ∃ other : Option Expression,
      optionalToJson other = (optionalToJson expression).mapDoubles change := by
  cases expression with
  | none => exact ⟨none, rfl⟩
  | some expression =>
      rcases exists_toJson_eq_mapDoubles change expression with ⟨other, changed⟩
      exact ⟨some other, changed⟩

end Expression

end TwinSwarm
