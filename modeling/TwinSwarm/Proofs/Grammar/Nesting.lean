import Mathlib.Tactic.Ring
import TwinSwarm.Proofs.Grammar.Program
import TwinSwarm.Proofs.Tree.Program

/-!
# How deeply the document of a program nests

A limit on the need of a program limits the nesting of its document, but not linearly.
Each of the six levels of operators may put as many nodes on the left spine as the limit
allows, and each bracket starts over with six levels and one unit less.  So the nesting is
bounded by the square of the limit.
-/

namespace TwinSwarm

namespace Json

@[simp] theorem nesting_node (typeName : String) (parts : List (Entry Json)) :
    (node typeName parts).nesting = nestingOfMembers parts + 1 := by
  simp [node, nesting, nestingOfMembers]

end Json

@[simp] theorem Location.nesting_toJson (location : Location) : location.toJson.nesting = 1 := rfl

@[simp] theorem nesting_ofOptionalText (text : Option String) :
    (Json.ofOptionalText text).nesting = 0 := by
  cases text <;> rfl

@[simp] theorem Literal.nesting_toJson (literal : Literal) : literal.toJson.nesting = 0 := by
  cases literal <;> rfl

theorem TwinReference.nesting_toJson (reference : TwinReference) :
    reference.toJson.nesting = 2 := by
  rcases reference with ⟨type, instanceName, count, location⟩
  cases count <;> simp [TwinReference.toJson, Location.member, Json.nestingOfMembers, Json.nesting,
    Json.ofOption]

theorem RuleReference.nesting_toJson (reference : RuleReference) :
    reference.toJson.nesting = 2 := by
  simp [RuleReference.toJson, Location.member, Json.nestingOfMembers, Json.nesting]

theorem Parameter.nesting_toJson (parameter : Parameter) : parameter.toJson.nesting = 2 := by
  simp [Parameter.toJson, Location.member, Json.nestingOfMembers, Json.nesting]

namespace Grammar

open Phrase

variable {α : Type}

/-- The largest nesting of an expression with some levels of operators that needs no more than a
budget. -/
def deepest (levels budget : Nat) : Nat := levels * budget + 3 * budget ^ 2 + 1

theorem one_le_deepest (levels budget : Nat) : 1 ≤ deepest levels budget := Nat.succ_pos _

theorem deepest_levels {levels more : Nat} (atMost : levels ≤ more) (budget : Nat) :
    deepest levels budget ≤ deepest more budget := by
  have product := Nat.mul_le_mul_right budget atMost
  unfold deepest
  omega

/-- A level of operators adds the budget. -/
theorem deepest_succ_levels (levels budget : Nat) :
    deepest (levels + 1) budget = deepest levels budget + budget := by
  unfold deepest
  rw [Nat.succ_mul]
  omega

/-- A bracket adds three to what a smaller budget allows inside. -/
theorem deepest_succ_budget (budget : Nat) : deepest 0 (budget + 1) = deepest 6 budget + 3 := by
  unfold deepest
  ring

theorem nestingOfAll_trees_le {phrases : List (Phrase α)} {encode : α → Json} {bound : Nat}
    (each : ∀ phrase ∈ phrases, (encode phrase.tree).nesting ≤ bound) :
    Json.nestingOfAll ((phrases.map tree).map encode) ≤ bound := by
  rw [Json.nestingOfAll_le_iff, List.map_map]
  exact List.forall_mem_map.mpr each

/-! ## Expressions -/

/-- The last operand of a chain costs as many units as the chain has operators. -/
theorem length_le_linksNeed (links : List Link) (count : Nat) :
    links = [] ∨ count + links.length ≤ linksNeed count links + 1 := by
  induction links generalizing count with
  | nil => exact .inl rfl
  | cons link rest fromRest =>
      right
      rw [linksNeed, List.length_cons]
      rcases fromRest (count + 1) with rfl | isLonger
      · simp
      · omega

theorem operand_need_le (links : List Link) (count : Nat) :
    ∀ link ∈ links, link.operand.need ≤ linksNeed count links := by
  induction links generalizing count with
  | nil => simp
  | cons link rest fromRest =>
      intro other isMember
      rw [linksNeed]
      rcases List.mem_cons.mp isMember with rfl | isLater
      · omega
      · exact Nat.le_trans (fromRest (count + 1) other isLater) (Nat.le_max_right _ _)

/-- Each operator of a chain adds one to the nesting of the operands. -/
theorem nesting_foldl_le {links : List Link} {first : Expression} {bound : Nat}
    (firstShallow : first.toJson.nesting ≤ bound)
    (shallow : ∀ link ∈ links, link.operand.tree.toJson.nesting ≤ bound) :
    (links.foldl Link.apply first).toJson.nesting ≤ bound + links.length := by
  induction links generalizing first bound with
  | nil => exact firstShallow
  | cons link rest fromRest =>
      have operandShallow := shallow link List.mem_cons_self
      have linked : (link.apply first).toJson.nesting ≤ bound + 1 := by
        simp [Link.apply, Expression.toJson, BinaryOperator.toJson, Json.nestingOfMembers,
          Json.nesting, firstShallow, operandShallow]
      have others : ∀ other ∈ rest, other.operand.tree.toJson.nesting ≤ bound + 1 :=
        fun other isMember => Nat.le_succ_of_le (shallow other (List.mem_cons_of_mem link isMember))
      rw [List.foldl_cons, List.length_cons, Nat.add_comm rest.length, ← Nat.add_assoc]
      exact fromRest linked others

/-- What spends a unit fits a budget that has one. -/
theorem exists_smaller {need budget : Nat} (fits : 1 + need ≤ budget) :
    ∃ smaller, budget = smaller + 1 ∧ need ≤ smaller := by
  cases budget with
  | zero => omega
  | succ smaller => exact ⟨smaller, rfl, by omega⟩

theorem Phrase.Separated.nestingOfAll_le {phrases : List (Phrase α)} {inside : Phrase (List α)}
    (separated : Separated phrases inside) {encode : α → Json} {budget bound : Nat}
    (fits : inside.need ≤ budget)
    (each : ∀ phrase ∈ phrases, phrase.need ≤ budget → (encode phrase.tree).nesting ≤ bound) :
    Json.nestingOfAll (inside.tree.map encode) ≤ bound := by
  rw [separated.tree_eq]
  apply nestingOfAll_trees_le
  intro phrase isMember
  exact each phrase isMember (separated.need_le.mp fits phrase isMember)

theorem nesting_settingToJson {entry : Entry Expression} {bound : Nat}
    (shallow : entry.value.toJson.nesting ≤ bound) : entry.settingToJson.nesting ≤ bound + 1 := by
  simpa [Entry.settingToJson, Json.nesting, Json.nestingOfMembers] using shallow

/-- An expression that needs no more than a budget nests no deeper than the budget allows. -/
theorem Derives.nesting_le {stratum : Stratum} {phrase : Phrase Expression}
    (derives : Derives stratum phrase) {budget : Nat} (fits : phrase.need ≤ budget) :
    phrase.tree.toJson.nesting ≤ deepest stratum.levels budget := by
  induction derives generalizing budget with
  | @chain level first links _ _ _ firstShallow shallow =>
      rcases Nat.max_le.mp fits with ⟨firstFits, linksFit⟩
      have operands (link : Link) (isMember : link ∈ links) :=
        shallow link isMember (Nat.le_trans (operand_need_le links 1 link isMember) linksFit)
      -- Each link puts one node around those before it, and there are no more links than units.
      have short : links.length ≤ budget := by
        rcases length_le_linksNeed links 1 with rfl | isLonger
        · exact Nat.zero_le _
        · omega
      calc (links.foldl Link.apply first.tree).toJson.nesting
          ≤ deepest (Stratum.below level).levels budget + links.length :=
            nesting_foldl_le (firstShallow firstFits) operands
        _ ≤ deepest level.rank budget + budget := by
            rw [levels_below]
            omega
        _ = deepest (level.rank + 1) budget := (deepest_succ_levels level.rank budget).symm
  | unary operator sign _ shallow =>
      rcases exists_smaller fits with ⟨smaller, rfl, operandFits⟩
      have operandShallow := Nat.le_trans (shallow operandFits) (deepest_levels (Nat.zero_le 6) _)
      simp only [Expression.toJson, UnaryOperator.toJson, Json.nesting_node,
        Json.nestingOfMembers, Json.nesting, Stratum.levels, deepest_succ_budget]
      omega
  | primary _ shallow => exact shallow fits
  | literal | reference | property =>
      have positive := one_le_deepest 0 budget
      simpa [Expression.toJson, Json.nestingOfMembers, Json.nesting, Stratum.levels] using positive
  | call name place opening closing _ separated shallow
  | array opening closing _ separated shallow =>
      rcases exists_smaller fits with ⟨smaller, rfl, insideFits⟩
      have insideShallow : _ ≤ deepest 6 smaller := separated.nestingOfAll_le insideFits
        fun part isMember fitsPart => shallow part isMember fitsPart
      simp only [Expression.toJson, Expression.allToJson_eq_map, Json.nesting_node,
        Json.nestingOfMembers, Json.nesting, Stratum.levels, deepest_succ_budget]
      omega
  | grouping opening closing _ shallow =>
      rcases exists_smaller fits with ⟨smaller, rfl, insideFits⟩
      have insideShallow : _ ≤ deepest 6 smaller := shallow insideFits
      simp only [Expression.toJson, Json.nesting_node, Json.nestingOfMembers, Stratum.levels,
        deepest_succ_budget]
      omega
  | object opening closing _ separated shallow =>
      rcases exists_smaller fits with ⟨smaller, rfl, insideFits⟩
      have insideShallow : _ ≤ deepest 6 smaller + 1 := separated.nestingOfAll_le insideFits
        (List.forall_mem_map.mpr fun item isMember fitsItem =>
          nesting_settingToJson (shallow item isMember fitsItem))
      simp only [Expression.toJson, Expression.entriesToJson_eq_map, Json.nesting_node,
        Json.nestingOfMembers, Json.nesting, Stratum.levels, deepest_succ_budget]
      omega

theorem optional_nesting_le {kind : Token.Kind} {text : String}
    {phrase : Phrase (Option Expression)} (isOptional : Optionally kind text IsExpression phrase)
    {budget : Nat} (fits : phrase.need ≤ budget) :
    (Expression.optionalToJson phrase.tree).nesting ≤ deepest 6 budget := by
  cases isOptional with
  | absent => exact Nat.zero_le _
  | present place isExpression => exact isExpression.nesting_le fits

theorem IsArguments.nesting_le {phrase : Phrase (List Expression)}
    (isArguments : IsArguments phrase) {budget : Nat} (fits : phrase.need ≤ budget) :
    Json.nestingOfAll (phrase.tree.map Expression.toJson) ≤ deepest 6 budget := by
  cases isArguments with
  | intro opening closing isExpression separated =>
      exact separated.nestingOfAll_le fits fun argument isMember argumentFits =>
        (isExpression argument isMember).nesting_le argumentFits

/-! ## Statements -/

/-- A statement nests no deeper than two more than the expressions that a budget allows. -/
def StatementShallow (phrase : Phrase Statement) : Prop :=
  ∀ budget, phrase.need ≤ budget → phrase.tree.toJson.nesting ≤ deepest 6 budget + 2

/-- The unit that a block spends makes up for what its statements nest deeper. -/
theorem block_nesting_le {statements : List (Phrase Statement)}
    (shallow : ∀ phrase ∈ statements, StatementShallow phrase) {budget : Nat}
    (fits : 1 + (succession statements).need ≤ budget) :
    Json.nestingOfAll (Statement.allToJson (statements.map tree)) ≤ deepest 6 budget := by
  rcases exists_smaller fits with ⟨smaller, rfl, insideFits⟩
  have eachFits := succession_need_le.mp insideFits
  have inside : Json.nestingOfAll ((statements.map tree).map Statement.toJson) ≤
      deepest 6 smaller + 2 :=
    nestingOfAll_trees_le fun phrase isMember =>
      shallow phrase isMember smaller (eachFits phrase isMember)
  have larger := deepest_levels (Nat.zero_le 6) (smaller + 1)
  rw [deepest_succ_budget] at larger
  rw [Statement.allToJson_eq_map]
  exact Nat.le_trans inside (by omega)

theorem braced_nesting_le {statements : List (Phrase Statement)}
    (shallow : ∀ phrase ∈ statements, StatementShallow phrase) {opening closing : Location}
    {budget : Nat} (fits : (braced opening closing statements).need ≤ budget) :
    Json.nestingOfAll (Statement.allToJson (braced opening closing statements).tree) ≤
      deepest 6 budget :=
  block_nesting_le shallow fits

theorem elseIf_nesting_le {chained : Phrase Statement} (shallow : StatementShallow chained)
    {budget : Nat} (fits : (elseIf chained).need ≤ budget) :
    Json.nestingOfAll (Statement.allToJson (elseIf chained).tree) ≤ deepest 6 budget :=
  block_nesting_le (List.forall_mem_singleton.mpr shallow)
    (by simpa [succession, elseIf] using fits)

/-- A statement that needs no more than a budget nests no deeper than the budget allows. -/
theorem Forms.nesting_le {shape : Shape} {phrase : Phrase Statement} (forms : Forms shape phrase) :
    StatementShallow phrase := by
  -- Two levels for the node and the list of its members, and what stands in blocks has been paid
  -- for with the unit that the block spends.
  induction forms with
  | withoutElse place opening closing bodyOpening bodyClosing isCondition _ bodyShallow =>
      intro budget fits
      rcases Nat.max_le.mp fits with ⟨conditionFits, bodyFits⟩
      have conditionInside : _ ≤ deepest 6 budget := isCondition.nesting_le conditionFits
      have bodyInside := braced_nesting_le bodyShallow bodyFits
      have positive := one_le_deepest 6 budget
      simp only [oneBranch, guarded, Statement.toJson, Statement.branchToJson, Location.member,
        Json.nesting_node, Json.nestingOfMembers, Json.nesting, Location.nesting_toJson]
      omega
  | withElse place opening closing bodyOpening bodyClosing keyword elseOpening elseClosing
      isCondition _ _ bodyShallow branchShallow =>
      intro budget fits
      rcases Nat.max_le.mp fits with ⟨headFits, branchFits⟩
      rcases Nat.max_le.mp headFits with ⟨conditionFits, bodyFits⟩
      have conditionInside : _ ≤ deepest 6 budget := isCondition.nesting_le conditionFits
      have bodyInside := braced_nesting_le bodyShallow bodyFits
      have branchInside := braced_nesting_le branchShallow branchFits
      have positive := one_le_deepest 6 budget
      simp only [twoBranches, guarded, Statement.toJson, Statement.branchToJson, Location.member,
        Json.nesting_node, Json.nestingOfMembers, Json.nesting, Location.nesting_toJson]
      omega
  | withElseIf place opening closing bodyOpening bodyClosing keyword isCondition _ _ bodyShallow
      chainedShallow =>
      intro budget fits
      rcases Nat.max_le.mp fits with ⟨headFits, branchFits⟩
      rcases Nat.max_le.mp headFits with ⟨conditionFits, bodyFits⟩
      have conditionInside : _ ≤ deepest 6 budget := isCondition.nesting_le conditionFits
      have bodyInside := braced_nesting_le bodyShallow bodyFits
      have branchInside := elseIf_nesting_le chainedShallow branchFits
      have positive := one_le_deepest 6 budget
      simp only [twoBranches, guarded, Statement.toJson, Statement.branchToJson,
        Location.member, Json.nesting_node, Json.nestingOfMembers, Json.nesting,
        Location.nesting_toJson]
      omega
  | conditional _ shallow => exact shallow
  | loop place opening namePlace keyword closing bodyOpening bodyClosing name isIterable _
      bodyShallow =>
      intro budget fits
      rcases Nat.max_le.mp fits with ⟨iterableFits, bodyFits⟩
      have iterableInside : _ ≤ deepest 6 budget := isIterable.nesting_le iterableFits
      have bodyInside := braced_nesting_le bodyShallow bodyFits
      have positive := one_le_deepest 6 budget
      simp only [looping, Statement.toJson, Location.member, Json.nesting_node,
        Json.nestingOfMembers, Json.nesting, Location.nesting_toJson]
      omega
  | log place opening closing final isMessage isExtra
  | alert place opening closing final isMessage isExtra =>
      intro budget fits
      rcases Nat.max_le.mp fits with ⟨messageFits, extraFits⟩
      have messageInside : _ ≤ deepest 6 budget := isMessage.nesting_le messageFits
      have extraInside := optional_nesting_le isExtra extraFits
      have positive := one_le_deepest 6 budget
      simp only [reporting, Statement.toJson, Location.member, Json.nesting_node,
        Json.nestingOfMembers, Location.nesting_toJson]
      omega
  | notify place opening comma closing final isTarget isMessage isData =>
      intro budget fits
      rcases Nat.max_le.mp fits with ⟨targetFits, fits⟩
      rcases Nat.max_le.mp fits with ⟨messageFits, dataFits⟩
      have targetInside : _ ≤ deepest 6 budget := isTarget.nesting_le targetFits
      have messageInside : _ ≤ deepest 6 budget := isMessage.nesting_le messageFits
      have dataInside := optional_nesting_le isData dataFits
      have positive := one_le_deepest 6 budget
      simp only [Statement.toJson, Location.member, Json.nesting_node, Json.nestingOfMembers,
        Location.nesting_toJson]
      omega
  | assignment name place sign final isValue =>
      intro budget fits
      have valueInside : _ ≤ deepest 6 budget := isValue.nesting_le fits
      have positive := one_le_deepest 6 budget
      simp only [Statement.toJson, Location.member, Json.nesting_node, Json.nestingOfMembers,
        Json.nesting, Location.nesting_toJson]
      omega
  | call name place final isArguments =>
      intro budget fits
      have argumentsInside := isArguments.nesting_le fits
      have positive := one_le_deepest 6 budget
      simp only [Statement.toJson, Location.member, Json.nesting_node, Json.nestingOfMembers,
        Json.nesting, Location.nesting_toJson]
      omega

theorem IsBlock.nesting_le {phrase : Phrase (List Statement)} (isBlock : IsBlock phrase)
    {budget : Nat} (fits : phrase.need ≤ budget) :
    Json.nestingOfAll (phrase.tree.map Statement.toJson) ≤ deepest 6 budget := by
  cases isBlock with
  | intro opening closing isStatement =>
      rw [← Statement.allToJson_eq_map]
      exact braced_nesting_le
        (fun statement isMember => (isStatement statement isMember).nesting_le) fits

/-! ## Declarations -/

/-- The nesting of the document of a clause. -/
def StateClause.nesting : StateClause → Nat
  | .entry reference | .exit reference => reference.toJson.nesting
  | .transition item => item.toJson.nesting

/-- The nesting of the document of an item of a twin. -/
def TwinItem.nesting : TwinItem → Nat
  | .property item => item.toJson.nesting
  | .sensor item => item.sensorToJson.nesting
  | .actuator item => item.actuatorToJson.nesting
  | .state item => item.toJson.nesting

/-- What is picked from items nests no deeper than the items. -/
theorem picked_nesting_le {β : Type} {items : List (Phrase α)} {nestingOf : α → Nat}
    {pick : α → Option β} {encode : β → Json} {bound : Nat}
    (isPart : ∀ item part, pick item = some part → (encode part).nesting = nestingOf item)
    (each : ∀ phrase ∈ items, nestingOf phrase.tree ≤ bound) :
    Json.nestingOfAll (((items.map tree).filterMap pick).map encode) ≤ bound := by
  rw [Json.nestingOfAll_le_iff]
  intro value isValue
  rcases List.mem_map.mp isValue with ⟨part, isPicked, rfl⟩
  rcases List.mem_filterMap.mp isPicked with ⟨item, isItem, picked⟩
  rcases List.mem_map.mp isItem with ⟨phrase, isMember, rfl⟩
  rw [isPart _ part picked]
  exact each phrase isMember

theorem clauses_nesting_le {clauses : List (Phrase StateClause)} {bound : Nat}
    (each : ∀ clause ∈ clauses, clause.tree.nesting ≤ bound) :
    Json.nestingOfAll (((clauses.map tree).filterMap StateClause.entry?).map
        ActionReference.toJson) ≤ bound ∧
      Json.nestingOfAll (((clauses.map tree).filterMap StateClause.exit?).map
        ActionReference.toJson) ≤ bound ∧
      Json.nestingOfAll (((clauses.map tree).filterMap StateClause.transition?).map
        Transition.toJson) ≤ bound := by
  refine ⟨?_, ?_, ?_⟩
  all_goals
    refine picked_nesting_le ?_ each
    intro clause part picked
    cases clause <;> cases picked
    rfl

theorem items_nesting_le {items : List (Phrase TwinItem)} {bound : Nat}
    (each : ∀ item ∈ items, item.tree.nesting ≤ bound) :
    Json.nestingOfAll (((items.map tree).filterMap TwinItem.property?).map
        PropertyItem.toJson) ≤ bound ∧
      Json.nestingOfAll (((items.map tree).filterMap TwinItem.sensor?).map
        Device.sensorToJson) ≤ bound ∧
      Json.nestingOfAll (((items.map tree).filterMap TwinItem.actuator?).map
        Device.actuatorToJson) ≤ bound ∧
      Json.nestingOfAll (((items.map tree).filterMap TwinItem.state?).map
        StateItem.toJson) ≤ bound := by
  refine ⟨?_, ?_, ?_, ?_⟩
  all_goals
    refine picked_nesting_le ?_ each
    intro item part picked
    cases item <;> cases picked
    rfl

theorem nestingOfAll_le_of_eq {encode : α → Json} {bound : Nat}
    (same : ∀ part, (encode part).nesting = bound) (parts : List α) :
    Json.nestingOfAll (parts.map encode) ≤ bound := by
  rw [Json.nestingOfAll_le_iff, List.forall_mem_map]
  intro part _
  exact Nat.le_of_eq (same part)

section Declarations

variable {place : Location} {budget : Nat}

theorem IsReference.nesting_le {phrase : Phrase ActionReference}
    (isReference : IsReference place phrase) (fits : phrase.need ≤ budget) :
    phrase.tree.toJson.nesting ≤ deepest 6 budget + 2 := by
  have positive := one_le_deepest 6 budget
  cases isReference with
  | plain name namePlace =>
      simp only [ActionReference.toJson, Location.member, Json.nesting_node, Json.nestingOfMembers,
        Json.nesting, Location.nesting_toJson, List.map_nil, Json.nestingOfAll]
      omega
  | applied name namePlace isArguments =>
      have argumentsInside := isArguments.nesting_le fits
      simp only [ActionReference.toJson, Location.member, Json.nesting_node, Json.nestingOfMembers,
        Json.nesting, Location.nesting_toJson]
      omega

theorem IsClause.nesting_le {phrase : Phrase StateClause} (isClause : IsClause phrase)
    (fits : phrase.need ≤ budget) : phrase.tree.nesting ≤ deepest 6 budget + 2 := by
  cases isClause with
  | entry place final isReference | exit place final isReference =>
      exact isReference.nesting_le fits
  | transition place isItem =>
      cases isItem with
      | intro target targetPlace final isCondition =>
          have conditionInside := optional_nesting_le isCondition fits
          have positive := one_le_deepest 6 budget
          simp only [behind, StateClause.nesting, Transition.toJson, Location.member,
            Json.nesting_node, Json.nestingOfMembers, Json.nesting, Location.nesting_toJson]
          omega

theorem IsState.nesting_le {phrase : Phrase StateItem} (isState : IsState place phrase)
    (fits : phrase.need ≤ budget) : phrase.tree.toJson.nesting ≤ deepest 6 budget + 4 := by
  cases isState with
  | @intro name namePlace opening closing clauses isClause =>
      have each (clause : Phrase StateClause) (isMember : clause ∈ clauses) :=
        (isClause clause isMember).nesting_le (succession_need_le.mp fits clause isMember)
      rcases clauses_nesting_le each with ⟨entriesInside, exitsInside, transitionsInside⟩
      have positive := one_le_deepest 6 budget
      simp only [StateItem.toJson, Location.member, Json.nesting_node, Json.nestingOfMembers,
        Json.nesting, Location.nesting_toJson]
      omega

theorem Phrase.Listed.nestingOfAll_le {phrases : List (Phrase α)} {inside : Phrase (List α)}
    (listed : Listed phrases inside) {encode : α → Json} {bound : Nat}
    (fits : inside.need ≤ budget)
    (each : ∀ phrase ∈ phrases, phrase.need ≤ budget → (encode phrase.tree).nesting ≤ bound) :
    Json.nestingOfAll (inside.tree.map encode) ≤ bound := by
  rcases listed.separated with ⟨plain, separated, treeEq, needEq⟩
  rw [treeEq]
  exact separated.nestingOfAll_le (needEq ▸ fits) each

theorem IsDevice.configuration_nesting_le {phrase : Phrase Device}
    (isDevice : IsDevice place phrase) (fits : phrase.need ≤ budget) :
    Json.nestingOfAll (phrase.tree.configuration.map Entry.settingToJson) ≤
      deepest 6 budget + 1 := by
  cases isDevice with
  | bare => exact Nat.zero_le _
  | configured name type namePlace colon typePlace opening closing isSetting listed =>
      apply listed.nestingOfAll_le fits
      intro setting isMember settingFits
      cases isSetting setting isMember with
      | intro key keyPlace colon isValue =>
          exact nesting_settingToJson (isValue.nesting_le settingFits)

theorem IsTwinItem.nesting_le {phrase : Phrase TwinItem} (isItem : IsTwinItem phrase)
    (fits : phrase.need ≤ budget) : phrase.tree.nesting ≤ deepest 6 budget + 4 := by
  have positive := one_le_deepest 6 budget
  cases isItem with
  | property place isItem =>
      cases isItem with
      | intro name type namePlace colon typePlace final isValue =>
          have valueInside := optional_nesting_le isValue fits
          simp only [behind, TwinItem.nesting, PropertyItem.toJson, Location.member,
            Json.nesting_node, Json.nestingOfMembers, Json.nesting, Location.nesting_toJson]
          omega
  | sensor place isItem | actuator place isItem =>
      have configurationInside := isItem.configuration_nesting_le fits
      simp only [behind, TwinItem.nesting, Device.sensorToJson, Device.actuatorToJson,
        Location.member, Json.nesting_node, Json.nestingOfMembers, Json.nesting,
        Location.nesting_toJson]
      omega
  | state place isItem => exact isItem.nesting_le fits

theorem IsTwin.nesting_le {phrase : Phrase Twin} (isTwin : IsTwin place phrase)
    (fits : phrase.need ≤ budget) :
    (Declaration.twin phrase.tree).toJson.nesting ≤ deepest 6 budget + 6 := by
  cases isTwin with
  | @intro name namePlace opening closing parent items _ isItem =>
      have each (item : Phrase TwinItem) (isMember : item ∈ items) :=
        (isItem item isMember).nesting_le (succession_need_le.mp fits item isMember)
      rcases items_nesting_le each with
        ⟨propertiesInside, sensorsInside, actuatorsInside, statesInside⟩
      have positive := one_le_deepest 6 budget
      simp only [Declaration.toJson, Declaration.members, Location.member, Json.nesting_node,
        Json.nestingOfMembers, Json.nesting, Location.nesting_toJson, nesting_ofOptionalText]
      omega

/-- The document of a declaration nests six levels more than the expressions that a budget
allows, as many as there are around the argument of an entry action. -/
theorem IsDeclaration.nesting_le {phrase : Phrase Declaration}
    (isDeclaration : IsDeclaration phrase) (fits : phrase.need ≤ budget) :
    phrase.tree.toJson.nesting ≤ deepest 6 budget + 6 := by
  have positive := one_le_deepest 6 budget
  cases isDeclaration with
  | twin place isTwin => exact isTwin.nesting_le fits
  | @swarm place declared _ =>
      have twinsInside := nestingOfAll_le_of_eq TwinReference.nesting_toJson declared.tree.twins
      have rulesInside := nestingOfAll_le_of_eq RuleReference.nesting_toJson declared.tree.rules
      simp only [behind, Declaration.toJson, Declaration.members, Location.member,
        Json.nesting_node, Json.nestingOfMembers, Json.nesting, Location.nesting_toJson]
      omega
  | @event place declared _ =>
      have parametersInside :=
        nestingOfAll_le_of_eq Parameter.nesting_toJson declared.tree.parameters
      simp only [behind, Declaration.toJson, Declaration.members, Location.member,
        Json.nesting_node, Json.nestingOfMembers, Json.nesting, Location.nesting_toJson]
      omega
  | action place isAction =>
      cases isAction with
      | @intro name namePlace parameters body _ isBlock =>
          have bodyInside := isBlock.nesting_le fits
          have parametersInside := nestingOfAll_le_of_eq Parameter.nesting_toJson parameters.tree
          simp only [behind, Declaration.toJson, Declaration.members, Location.member,
            Json.nesting_node, Json.nestingOfMembers, Json.nesting, Location.nesting_toJson]
          omega
  | rule place isRule =>
      cases isRule with
      | intro name namePlace opening whenPlace middle thenPlace closing isCondition isBlock =>
          rcases Nat.max_le.mp fits with ⟨conditionFits, actionsFit⟩
          have conditionInside : _ ≤ deepest 6 budget := isCondition.nesting_le conditionFits
          have actionsInside := isBlock.nesting_le actionsFit
          simp only [behind, Declaration.toJson, Declaration.members, Location.member,
            Json.nesting_node, Json.nestingOfMembers, Json.nesting, Location.nesting_toJson,
            Expression.optionalToJson]
          omega
  | imported place isImport =>
      simp only [behind, Declaration.toJson, Declaration.members, Location.member,
        Json.nesting_node, Json.nestingOfMembers, Json.nesting, Location.nesting_toJson,
        nesting_ofOptionalText]
      omega

end Declarations

/-- The document of a program that needs no more than a budget nests no deeper than a square of
the budget allows. -/
theorem IsProgram.nesting_le {phrase : Phrase Program} (isProgram : IsProgram phrase)
    {budget : Nat} (fits : phrase.need ≤ budget) :
    phrase.tree.toJson.nesting ≤ 3 * budget ^ 2 + 6 * budget + 9 := by
  cases isProgram with
  | @intro declarations isDeclaration =>
      have each (declaration : Phrase Declaration) (isMember : declaration ∈ declarations) :=
        (isDeclaration declaration isMember).nesting_le
          (succession_need_le.mp fits declaration isMember)
      have inside := nestingOfAll_trees_le each
      simp only [Program.toJson, succession, Json.nesting_node, Json.nestingOfMembers,
        Json.nesting]
      unfold deepest at inside
      omega

end Grammar

end TwinSwarm
