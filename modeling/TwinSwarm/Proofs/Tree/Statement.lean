import TwinSwarm.Proofs.Tree.Expression

/-!
# Statements and their documents

The document of a statement is decoded to the same statement if its locations fit 64
bits.
-/

namespace TwinSwarm

open Json (Buffered Fields height_lt_node height_lt_node_of_item WholesFit wholesFit_of_item
  wholesFit_of_part)
open Json.Buffered (list_of_decodes node_of_holds optional_of_decodes)

/-! ## Locations -/

namespace Location

/-- The line and the column fit 64 bits. -/
def Fits (location : Location) : Prop := location.line < 2 ^ 64 ∧ location.column < 2 ^ 64

instance (location : Location) : Decidable location.Fits := by
  unfold Fits; infer_instance

theorem wholesFit_toJson (location : Location) :
    WholesFit location.toJson.leaves ↔ location.Fits := by
  simp [toJson, Json.leaves, Json.leavesOfMembers, Json.Numeral.Fits, Fits]

theorem decoder_toJson {location : Location} (fits : location.Fits) :
    (decoder : Buffered Location) location.toJson = .ok location := by
  have lineDecoded := Json.Buffered.natural_integer fits.1
  have columnDecoded := Json.Buffered.natural_integer fits.2
  unfold decoder
  exact Json.Buffered.record_of_holds "struct SourceLocation" ["line", "column"] rfl (by decide)
    (.cons lineDecoded (.cons columnDecoded .nil)) rfl

@[simp] theorem mapDoubles_toJson (location : Location) (change : Double → Double) :
    location.toJson.mapDoubles change = location.toJson := rfl

/-- The location is the last part of a node. -/
theorem field_holds {typeName : String} {location : Location} {parts : List (Entry Json)}
    (fit : WholesFit (Json.node typeName parts).leaves)
    (isLast : parts.getLast? = some location.member) :
    (field : Fields Buffered _).Holds [location.member] (location, ()) := by
  have fits := wholesFit_of_part fit (List.mem_of_getLast? isLast)
  exact .cons (decoder_toJson (location.wholesFit_toJson.mp fits)) .nil

end Location

namespace Statement

/-! ## Decoding -/

/-- A block that is a part of a node is decoded if its statements are. -/
theorem block_toJson {inner : Buffered Statement} {typeName key : String}
    {statements : List Statement} {parts : List (Entry Json)}
    (fit : WholesFit (Json.node typeName parts).leaves)
    (decodes : ∀ part : Statement, WholesFit part.toJson.leaves →
      part.toJson.height < (Json.node typeName parts).height → inner part.toJson = .ok part)
    (isPart : ⟨key, .array (statements.map toJson)⟩ ∈ parts) :
    Buffered.list inner (.array (statements.map toJson)) = .ok statements := by
  apply list_of_decodes
  intro statement isStatement
  have isItem : statement.toJson ∈ statements.map toJson := List.mem_map_of_mem isStatement
  exact decodes statement (wholesFit_of_item fit isItem isPart)
    (height_lt_node_of_item isItem isPart)

/-- A statement is decoded if the statements inside are. -/
theorem node_toJson {inner : Buffered Statement} (statement : Statement)
    (fit : WholesFit statement.toJson.leaves)
    (decodes : ∀ part : Statement, WholesFit part.toJson.leaves →
      part.toJson.height < statement.toJson.height → inner part.toJson = .ok part) :
    Buffered.node description (variants inner) statement.toJson = .ok statement := by
  cases statement with
  | conditional condition thenBranch elseBranch location =>
      rw [toJson, allToJson_eq_map] at fit decodes ⊢
      have thenDecoded : Buffered.list inner (.array (thenBranch.map toJson)) = .ok thenBranch :=
        block_toJson fit decodes (.tail _ (.head _))
      have elseDecoded : Buffered.optional (Buffered.list inner) (branchToJson elseBranch) =
          .ok elseBranch := by
        cases elseBranch with
        | none => rfl
        | some branch =>
            rw [branchToJson, allToJson_eq_map] at fit decodes ⊢
            apply optional_of_decodes Json.noConfusion
            exact block_toJson fit decodes (.tail _ (.tail _ (.head _)))
      exact node_of_holds description ["condition", "then_branch", "else_branch", "location"] rfl
        rfl (by decide) (.cons condition.decoder_toJson (.cons thenDecoded (.cons elseDecoded
          (Location.field_holds fit rfl)))) rfl
  | loop name iterable body location =>
      rw [toJson, allToJson_eq_map] at fit decodes ⊢
      have decoded : Buffered.list inner (.array (body.map toJson)) = .ok body :=
        block_toJson fit decodes (.tail _ (.tail _ (.head _)))
      exact node_of_holds description ["variable", "iterable", "body", "location"] rfl rfl
        (by decide) (.cons rfl (.cons iterable.decoder_toJson (.cons decoded
          (Location.field_holds fit rfl)))) rfl
  | log message level location =>
      rw [toJson] at fit ⊢
      exact node_of_holds description ["message", "level", "location"] rfl rfl (by decide)
        (.cons message.decoder_toJson (.cons (Expression.optional_optionalToJson level)
          (Location.field_holds fit rfl))) rfl
  | alert message severity location =>
      rw [toJson] at fit ⊢
      exact node_of_holds description ["message", "severity", "location"] rfl rfl (by decide)
        (.cons message.decoder_toJson (.cons (Expression.optional_optionalToJson severity)
          (Location.field_holds fit rfl))) rfl
  | notify target message data location =>
      rw [toJson] at fit ⊢
      exact node_of_holds description ["target", "message", "data", "location"] rfl rfl (by decide)
        (.cons target.decoder_toJson (.cons message.decoder_toJson
          (.cons (Expression.optional_optionalToJson data) (Location.field_holds fit rfl)))) rfl
  | assignment target value location =>
      rw [toJson] at fit ⊢
      exact node_of_holds description ["target", "value", "location"] rfl rfl (by decide)
        (.cons rfl (.cons value.decoder_toJson (Location.field_holds fit rfl))) rfl
  | call name arguments location =>
      rw [toJson] at fit ⊢
      have decoded : Buffered.list Expression.decoder (.array (arguments.map Expression.toJson)) =
          .ok arguments :=
        list_of_decodes fun argument _ => argument.decoder_toJson
      exact node_of_holds description ["name", "arguments", "location"] rfl rfl (by decide)
        (.cons rfl (.cons decoded (Location.field_holds fit rfl))) rfl

/-- The document of a statement is decoded at every height that it does not exceed. -/
theorem ofJsonWithin_toJson {height : Nat} : (statement : Statement) →
    WholesFit statement.toJson.leaves → statement.toJson.height ≤ height →
      ofJsonWithin height statement.toJson = .ok statement := by
  induction height with
  | zero =>
      intro statement _ low
      cases statement <;> exact absurd low (Nat.not_succ_le_zero _)
  | succ height fromBelow =>
      intro statement fit low
      exact node_toJson statement fit fun part partFit lower =>
        fromBelow part partFit (Nat.le_of_lt_succ (Nat.lt_of_lt_of_le lower low))

theorem decoder_toJson {statement : Statement} (fit : WholesFit statement.toJson.leaves) :
    (decoder : Buffered Statement) statement.toJson = .ok statement :=
  node_toJson statement fit fun part partFit _ =>
    ofJsonWithin_toJson part partFit (Nat.le_refl _)

/-! ## Doubles -/

mutual

/-- With other doubles, the document of a statement is still one of a statement. -/
theorem exists_toJson_eq_mapDoubles (change : Double → Double) : (statement : Statement) →
    ∃ other : Statement, other.toJson = statement.toJson.mapDoubles change
  | .conditional condition thenBranch elseBranch location => by
      rcases condition.exists_toJson_eq_mapDoubles change with ⟨newCondition, conditionChanged⟩
      rcases exists_allToJson_eq_mapDoubles change thenBranch with ⟨newThen, thenChanged⟩
      rcases exists_branchToJson_eq_mapDoubles change elseBranch with ⟨newElse, elseChanged⟩
      refine ⟨.conditional newCondition newThen newElse location, ?_⟩
      simp [toJson, Json.mapDoubles, Json.mapDoublesOfMembers, Location.member,
        conditionChanged, thenChanged, elseChanged]
  | .loop name iterable body location => by
      rcases iterable.exists_toJson_eq_mapDoubles change with ⟨newIterable, iterableChanged⟩
      rcases exists_allToJson_eq_mapDoubles change body with ⟨newBody, bodyChanged⟩
      refine ⟨.loop name newIterable newBody location, ?_⟩
      simp [toJson, Json.mapDoubles, Json.mapDoublesOfMembers, Location.member,
        iterableChanged, bodyChanged]
  | .log message level location => by
      rcases message.exists_toJson_eq_mapDoubles change with ⟨newMessage, messageChanged⟩
      rcases Expression.exists_optionalToJson_eq_mapDoubles change level with
        ⟨newLevel, levelChanged⟩
      refine ⟨.log newMessage newLevel location, ?_⟩
      simp [toJson, Json.mapDoublesOfMembers, Location.member,
        messageChanged, levelChanged]
  | .alert message severity location => by
      rcases message.exists_toJson_eq_mapDoubles change with ⟨newMessage, messageChanged⟩
      rcases Expression.exists_optionalToJson_eq_mapDoubles change severity with
        ⟨newSeverity, severityChanged⟩
      refine ⟨.alert newMessage newSeverity location, ?_⟩
      simp [toJson, Json.mapDoublesOfMembers, Location.member,
        messageChanged, severityChanged]
  | .notify target message data location => by
      rcases target.exists_toJson_eq_mapDoubles change with ⟨newTarget, targetChanged⟩
      rcases message.exists_toJson_eq_mapDoubles change with ⟨newMessage, messageChanged⟩
      rcases Expression.exists_optionalToJson_eq_mapDoubles change data with
        ⟨newData, dataChanged⟩
      refine ⟨.notify newTarget newMessage newData location, ?_⟩
      simp [toJson, Json.mapDoublesOfMembers, Location.member,
        targetChanged, messageChanged, dataChanged]
  | .assignment target value location => by
      rcases value.exists_toJson_eq_mapDoubles change with ⟨newValue, valueChanged⟩
      refine ⟨.assignment target newValue location, ?_⟩
      simp [toJson, Json.mapDoubles, Json.mapDoublesOfMembers, Location.member,
        valueChanged]
  | .call name arguments location => by
      rcases Expression.exists_allToJson_eq_mapDoubles change arguments with
        ⟨newArguments, argumentsChanged⟩
      refine ⟨.call name newArguments location, ?_⟩
      rw [Expression.allToJson_eq_map, Expression.allToJson_eq_map] at argumentsChanged
      simp [toJson, Json.mapDoubles, Json.mapDoublesOfMembers, Location.member,
        argumentsChanged]

theorem exists_allToJson_eq_mapDoubles (change : Double → Double) :
    (statements : List Statement) → ∃ others : List Statement,
      allToJson others = Json.mapDoublesOfAll change (allToJson statements)
  | [] => ⟨[], rfl⟩
  | first :: rest => by
      rcases exists_toJson_eq_mapDoubles change first with ⟨other, changed⟩
      rcases exists_allToJson_eq_mapDoubles change rest with ⟨others, othersChanged⟩
      refine ⟨other :: others, ?_⟩
      simp [allToJson, Json.mapDoublesOfAll, changed, othersChanged]

theorem exists_branchToJson_eq_mapDoubles (change : Double → Double) :
    (branch : Option (List Statement)) → ∃ other : Option (List Statement),
      branchToJson other = (branchToJson branch).mapDoubles change
  | none => ⟨none, rfl⟩
  | some branch => by
      rcases exists_allToJson_eq_mapDoubles change branch with ⟨other, changed⟩
      refine ⟨some other, ?_⟩
      simp [branchToJson, Json.mapDoubles, changed]

end

end Statement

end TwinSwarm
