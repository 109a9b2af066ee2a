import TwinSwarm.Proofs.Grammar.Program
import TwinSwarm.Proofs.Tree.Height

/-!
# The height of what is read

Each form of the grammar only puts expressions into its tree that have the shape which the table
of precedence dictates.  So the bounds on trees of this shape hold for every program that is read
under a limit.
-/

namespace TwinSwarm

open Grammar

namespace Grammar

open Phrase

theorem IsExpression.shapedNode {phrase : Phrase Expression} (isExpression : IsExpression phrase) :
    (Node.expression phrase.tree).Shaped :=
  .expression (Derives.shaped isExpression).1

theorem optional_shaped {kind : Token.Kind} {text : String} {phrase : Phrase (Option Expression)}
    (isOptional : Optionally kind text IsExpression phrase) :
    ∀ part ∈ phrase.tree.toList.map Node.expression, part.Shaped := by
  cases isOptional with
  | absent => exact List.forall_mem_nil _
  | present place isExpression => exact List.forall_mem_singleton.mpr isExpression.shapedNode

theorem IsArguments.shaped {phrase : Phrase (List Expression)} (isArguments : IsArguments phrase) :
    ∀ part ∈ phrase.tree.map Node.expression, part.Shaped := by
  cases isArguments with
  | intro opening closing isExpression separated =>
      simp only [separated.tree_eq, List.forall_mem_map]
      exact fun argument isMember => (isExpression argument isMember).shapedNode

theorem succession_shaped {α : Type} {make : α → Node} {phrases : List (Phrase α)}
    (each : ∀ phrase ∈ phrases, (make phrase.tree).Shaped) :
    ∀ part ∈ (phrases.map tree).map make, part.Shaped := by
  simpa only [List.forall_mem_map] using each

/-- The expressions of a statement have the shape that is dictated. -/
theorem Forms.shapedNode {shape : Shape} {phrase : Phrase Statement} (forms : Forms shape phrase) :
    (Node.statement phrase.tree).Shaped := by
  induction forms with
  | withoutElse _ _ _ _ _ isCondition _ ofBody =>
      refine .parts rfl (List.forall_mem_cons.mpr ⟨isCondition.shapedNode, ?_⟩)
      exact List.forall_mem_append.mpr ⟨succession_shaped ofBody, List.forall_mem_nil _⟩
  | withElse _ _ _ _ _ _ _ _ isCondition _ _ ofBody ofBranch =>
      refine .parts rfl (List.forall_mem_cons.mpr ⟨isCondition.shapedNode, ?_⟩)
      exact List.forall_mem_append.mpr ⟨succession_shaped ofBody, succession_shaped ofBranch⟩
  | withElseIf _ _ _ _ _ _ isCondition _ _ ofBody ofChained =>
      refine .parts rfl (List.forall_mem_cons.mpr ⟨isCondition.shapedNode, ?_⟩)
      exact List.forall_mem_append.mpr
        ⟨succession_shaped ofBody, List.forall_mem_singleton.mpr ofChained⟩
  | conditional _ ofConditional => exact ofConditional
  | loop _ _ _ _ _ _ _ _ isIterable _ ofBody =>
      exact .parts rfl
        (List.forall_mem_cons.mpr ⟨isIterable.shapedNode, succession_shaped ofBody⟩)
  | log _ _ _ _ isMessage isExtra | alert _ _ _ _ isMessage isExtra =>
      exact .parts rfl
        (List.forall_mem_cons.mpr ⟨isMessage.shapedNode, optional_shaped isExtra⟩)
  | notify _ _ _ _ _ isTarget isMessage isData =>
      refine .parts rfl (List.forall_mem_cons.mpr ⟨isTarget.shapedNode, ?_⟩)
      exact List.forall_mem_cons.mpr ⟨isMessage.shapedNode, optional_shaped isData⟩
  | assignment _ _ _ _ isValue =>
      exact .parts rfl (List.forall_mem_singleton.mpr isValue.shapedNode)
  | call _ _ _ isArguments => exact .parts rfl isArguments.shaped

theorem IsBlock.shaped {phrase : Phrase (List Statement)} (isBlock : IsBlock phrase) :
    ∀ part ∈ phrase.tree.map Node.statement, part.Shaped := by
  cases isBlock with
  | intro opening closing isStatement =>
      exact succession_shaped fun statement isMember => (isStatement statement isMember).shapedNode

/-! ### Declarations -/

/-- The expressions of a clause have the shape that is dictated. -/
def StateClause.Shaped : StateClause → Prop
  | .entry called | .exit called => (Node.reference called).Shaped
  | .transition item => ∀ state, (Node.transition state item).Shaped

/-- The expressions of an item have the shape that is dictated. -/
def TwinItem.Shaped : TwinItem → Prop
  | .property item => (Node.property item).Shaped
  | .sensor device => (Node.sensor device).Shaped
  | .actuator device => (Node.actuator device).Shaped
  | .state item => (Node.state item).Shaped

/-- What is picked from good items becomes nodes with expressions of the shape. -/
theorem picked_shaped {α β : Type} {items : List (Phrase α)} {good : α → Prop}
    {pick : α → Option β} {make : β → Node}
    (ofPicked : ∀ item part, pick item = some part → good item → (make part).Shaped)
    (each : ∀ phrase ∈ items, good phrase.tree) :
    ∀ part ∈ ((items.map tree).filterMap pick).map make, part.Shaped := by
  simp only [List.forall_mem_map, List.forall_mem_filterMap]
  intro phrase isMember part picked
  exact ofPicked _ part picked (each phrase isMember)

section Declarations

variable {place : Location}

theorem IsProperty.shapedNode {phrase : Phrase PropertyItem}
    (isProperty : IsProperty place phrase) : (Node.property phrase.tree).Shaped := by
  cases isProperty with
  | intro _ _ _ _ _ _ isValue => exact .parts rfl (optional_shaped isValue)

theorem IsSetting.shapedNode {phrase : Phrase (Entry Expression)} (isSetting : IsSetting phrase) :
    (Node.setting phrase.tree).Shaped := by
  cases isSetting with
  | intro _ _ _ isValue =>
      exact .parts rfl (List.forall_mem_singleton.mpr isValue.shapedNode)

theorem IsDevice.settings_shaped {phrase : Phrase Device} (isDevice : IsDevice place phrase) :
    ∀ part ∈ phrase.tree.configuration.map Node.setting, part.Shaped := by
  cases isDevice with
  | bare => exact List.forall_mem_nil _
  | configured _ _ _ _ _ _ _ isSetting listed =>
      rcases listed.separated with ⟨plain, separated, treeEq, _⟩
      rw [treeEq, separated.tree_eq]
      exact succession_shaped fun setting isMember => (isSetting setting isMember).shapedNode

theorem IsReference.shapedNode {phrase : Phrase ActionReference}
    (isReference : IsReference place phrase) : (Node.reference phrase.tree).Shaped := by
  cases isReference with
  | plain => exact .parts rfl (List.forall_mem_nil _)
  | applied _ _ isArguments => exact .parts rfl isArguments.shaped

theorem IsClause.shaped {phrase : Phrase StateClause} (isClause : IsClause phrase) :
    phrase.tree.Shaped := by
  cases isClause with
  | entry _ _ isReference | exit _ _ isReference => exact isReference.shapedNode
  | transition _ isItem =>
      cases isItem with
      | intro _ _ _ isCondition => exact fun state => .parts rfl (optional_shaped isCondition)

theorem IsState.shapedNode {phrase : Phrase StateItem} (isState : IsState place phrase) :
    (Node.state phrase.tree).Shaped := by
  cases isState with
  | intro _ _ _ _ isClause =>
      have clauses := fun clause isMember => (isClause clause isMember).shaped
      refine .parts rfl ?_
      rw [Node.parts, List.map_append, List.forall_mem_append, List.forall_mem_append]
      refine ⟨⟨?_, ?_⟩, ?_⟩
      all_goals
        refine picked_shaped ?_ clauses
        intro clause part picked shaped
        cases clause <;> cases picked
      · exact shaped
      · exact shaped
      · exact shaped _

theorem IsTwinItem.shaped {phrase : Phrase TwinItem} (isItem : IsTwinItem phrase) :
    phrase.tree.Shaped := by
  cases isItem with
  | property _ isItem => exact isItem.shapedNode
  | sensor _ isItem | actuator _ isItem => exact .parts rfl isItem.settings_shaped
  | state _ isItem => exact isItem.shapedNode

theorem IsTwin.shapedNode {phrase : Phrase Twin} (isTwin : IsTwin place phrase) :
    (Node.declaration (.twin phrase.tree)).Shaped := by
  cases isTwin with
  | intro _ _ _ _ _ isItem =>
      have items := fun item isMember => (isItem item isMember).shaped
      refine .parts rfl ?_
      rw [Node.parts, Node.ofDeclaration, List.forall_mem_append, List.forall_mem_append,
        List.forall_mem_append]
      refine ⟨⟨⟨?_, ?_⟩, ?_⟩, ?_⟩
      all_goals
        refine picked_shaped ?_ items
        intro item part picked shaped
        cases item <;> cases picked
        exact shaped

end Declarations

/-- Nodes without parts hold no expressions. -/
theorem map_shaped_of_no_parts {α : Type} {make : α → Node}
    (isOther : ∀ item, (make item).isExpression = false)
    (noParts : ∀ item, (make item).parts = []) (items : List α) :
    ∀ part ∈ items.map make, part.Shaped := by
  refine List.forall_mem_map.mpr fun item _ => .parts (isOther item) ?_
  rw [noParts]
  exact List.forall_mem_nil _

/-- The expressions of a declaration have the shape that is dictated. -/
theorem IsDeclaration.shapedNode {phrase : Phrase Declaration}
    (isDeclaration : IsDeclaration phrase) : (Node.declaration phrase.tree).Shaped := by
  have twins (members : List TwinReference) : ∀ part ∈ members.map Node.twin, part.Shaped :=
    map_shaped_of_no_parts (fun _ => rfl) (fun _ => rfl) members
  have rules (members : List RuleReference) : ∀ part ∈ members.map Node.rule, part.Shaped :=
    map_shaped_of_no_parts (fun _ => rfl) (fun _ => rfl) members
  have parameters (items : List Parameter) : ∀ part ∈ items.map Node.parameter, part.Shaped :=
    map_shaped_of_no_parts (fun _ => rfl) (fun _ => rfl) items
  cases isDeclaration with
  | twin _ isTwin => exact isTwin.shapedNode
  | swarm => exact .parts rfl (List.forall_mem_append.mpr ⟨twins _, rules _⟩)
  | event => exact .parts rfl (parameters _)
  | action _ isAction =>
      cases isAction with
      | intro _ _ _ isBlock =>
          exact .parts rfl (List.forall_mem_append.mpr ⟨parameters _, isBlock.shaped⟩)
  | rule _ isRule =>
      cases isRule with
      | intro _ _ _ _ _ _ _ isCondition isBlock =>
          refine .parts rfl (List.forall_mem_cons.mpr ⟨?_, List.forall_mem_singleton.mpr ?_⟩)
          · exact .parts rfl (List.forall_mem_singleton.mpr isCondition.shapedNode)
          · exact .parts rfl isBlock.shaped
  | imported => exact .parts rfl (List.forall_mem_nil _)

end Grammar

/-! ## Programs -/

namespace Parsing

/-- Whatever the limit, what is read has no statement that stands in more blocks and behind more
links of `else if` than the limit allows, and the height of its expressions is bounded by a square
of what the blocks around them leave of the limit. -/
theorem height_is_bounded (limit : Nat) (tokens : List Token) {occurrence : Occurrence}
    (holds : (ofTokens limit tokens).program.Holds occurrence) :
    occurrence.level ≤ limit ∧
      ∀ tree, occurrence.node = .expression tree →
        tree.height ≤ (3 * (limit - occurrence.level) + 1) * (limit - occurrence.level + 1) := by
  have declarations : ∀ declared ∈ (ofTokens limit tokens).program.declarations,
      declared.need ≤ limit ∧ (Node.declaration declared).Shaped := by
    intro declared isRead
    rcases exists_reading isRead with ⟨start, rest, _, read⟩
    rcases declaration_eq_ok.mp read with ⟨phrase, isDeclaration, fits, rfl, _⟩
    exact ⟨isDeclaration.need_eq ▸ fits, isDeclaration.shapedNode⟩
  have spent : occurrence.node.need + occurrence.level ≤ limit :=
    holds.need_add_level_le fun declared isRead => (declarations declared isRead).1
  have shaped : occurrence.node.Shaped :=
    holds.shaped fun declared isRead => (declarations declared isRead).2
  refine ⟨by omega, ?_⟩
  intro tree isTree
  rw [isTree] at shaped spent
  rw [← Expression.tallest_six]
  exact (shaped.tree.low (Nat.le_sub_of_add_le spent)).within

/-- The tokens of `action A { y = - x * x + x < x == x && x || x ; }`. -/
def steepTokens : List Token :=
  [.ofKeyword "action" .start, name "A", .ofMark "\x7b" .start, name "y", sign "=", sign "-",
    name "x", sign "*", name "x", sign "+", name "x", sign "<", name "x", sign "==", name "x",
    sign "&&", name "x", sign "||", name "x", .ofMark ";" .start, .ofMark "\x7d" .start,
    ⟨.endOfFile, "", .start⟩]
where
  name (text : String) : Token := .ofName text .start
  sign (symbol : String) : Token := .ofSign symbol .start

/-- The expression of the action, with an operator of every level on its left spine. -/
def steepTree : Expression :=
  .binary .or (.binary .and (.binary .equal (.binary .less (.binary .add (.binary .multiply
    (.unary .negate (.reference "x")) (.reference "x")) (.reference "x")) (.reference "x"))
    (.reference "x")) (.reference "x")) (.reference "x")

/-- Under the limit two the block leaves one unit to the expression, which is then as high as it
may be. -/
theorem steepTree_is_tallest :
    ∃ occurrence, (ofTokens 2 steepTokens).program.Holds occurrence ∧
      occurrence.node = .expression steepTree ∧ occurrence.level = 1 ∧ steepTree.height = 8 ∧
      8 ≤ (3 * (2 - 1) + 1) * (2 - 1 + 1) := by
  let assigned : Statement := .assignment "y" steepTree .start
  let declared : Declaration := .action ⟨"A", [], [assigned], .start⟩
  have isRead : (ofTokens 2 steepTokens).program = ⟨[declared]⟩ := by decide +kernel
  have holds : (ofTokens 2 steepTokens).program.Holds
      ⟨.expression steepTree, [.statement assigned, .declaration declared]⟩ := by
    rw [isRead]
    refine .part (.part (.root (List.mem_singleton_self declared)) ?_) (List.mem_singleton_self _)
    exact List.mem_singleton_self _
  have bounded := (height_is_bounded 2 steepTokens holds).2 steepTree rfl
  exact ⟨_, holds, rfl, rfl, rfl, bounded⟩

end Parsing

end TwinSwarm
