import Mathlib.Tactic.Ring
import TwinSwarm.Proofs.Grammar.Need
import TwinSwarm.Proofs.Grammar.Precedence
import TwinSwarm.Proofs.Tree.Requirement

/-!
# How high a tree may grow

A limit on the need of a program limits how deeply its statements stand in blocks, one unit a
block, and how high its expressions are, but these not linearly.  Each of the six levels of
operators may put as many operators on the left spine as the budget allows, since a level gives
back what it spent before the next one goes on.  A bracket or a unary operator starts over with
one unit less.
-/

namespace TwinSwarm

open Grammar

/-! ## Expressions -/

namespace Expression

mutual

/-- The height of an expression, where one without parts has the height one. -/
def height : Expression → Nat
  | .binary _ left right => max (height left) (height right) + 1
  | .unary _ operand => height operand + 1
  | .literal _ | .reference _ | .property _ _ => 1
  | .grouping inner => height inner + 1
  | .array elements => heightOfAll elements + 1
  | .object entries => heightOfEntries entries + 1
  | .call _ arguments => heightOfAll arguments + 1

/-- The height of the highest of several expressions. -/
def heightOfAll : List Expression → Nat
  | [] => 0
  | first :: rest => max (height first) (heightOfAll rest)

/-- The height of the highest value of several entries. -/
def heightOfEntries : List (Entry Expression) → Nat
  | [] => 0
  | ⟨_, value⟩ :: rest => max (height value) (heightOfEntries rest)

end

theorem heightOfAll_le_iff {expressions : List Expression} {bound : Nat} :
    heightOfAll expressions ≤ bound ↔ ∀ tree ∈ expressions, tree.height ≤ bound := by
  induction expressions with
  | nil => simp [heightOfAll]
  | cons first rest ih => rw [heightOfAll, Nat.max_le, ih, List.forall_mem_cons]

theorem heightOfEntries_le_iff {entries : List (Entry Expression)} {bound : Nat} :
    heightOfEntries entries ≤ bound ↔ ∀ entry ∈ entries, entry.value.height ≤ bound := by
  induction entries with
  | nil => simp [heightOfEntries]
  | cons first rest ih => rw [heightOfEntries, Nat.max_le, ih, List.forall_mem_cons]

theorem need_le_needOfAll {expressions : List Expression} {tree : Expression}
    (isMember : tree ∈ expressions) : tree.need ≤ needOfAll expressions := by
  rw [needOfAll_eq]
  exact le_largest (List.mem_map_of_mem isMember)

theorem need_le_needOfEntries {entries : List (Entry Expression)} {entry : Entry Expression}
    (isMember : entry ∈ entries) : entry.value.need ≤ needOfEntries entries := by
  rw [needOfEntries_eq]
  exact le_largest (List.mem_map.mpr ⟨entry, isMember, rfl⟩)

/-- The largest height of an expression with some levels of operators outside of brackets that
needs no more than a budget. -/
def tallest : Nat → Nat → Nat
  | _, 0 => 1
  | levels, budget + 1 => levels * (budget + 1) + tallest 6 budget + 1

theorem tallest_succ (levels budget : Nat) :
    tallest levels (budget + 1) = levels * (budget + 1) + tallest 6 budget + 1 := rfl

theorem tallest_levels {levels more : Nat} (atMost : levels ≤ more) (budget : Nat) :
    tallest levels budget ≤ tallest more budget := by
  cases budget with
  | zero => exact Nat.le_refl 1
  | succ budget =>
      have product := Nat.mul_le_mul_right (budget + 1) atMost
      rw [tallest_succ, tallest_succ]
      omega

/-- A level of operators adds the budget. -/
theorem tallest_succ_levels (levels budget : Nat) :
    tallest (levels + 1) budget = tallest levels budget + budget := by
  cases budget with
  | zero => rfl
  | succ budget =>
      rw [tallest_succ, tallest_succ, Nat.succ_mul]
      omega

/-- A bracket adds one to what a smaller budget allows inside. -/
theorem tallest_succ_budget (budget : Nat) : tallest 0 (budget + 1) = tallest 6 budget + 1 := by
  rw [tallest_succ]
  omega

theorem one_le_tallest (levels budget : Nat) : 1 ≤ tallest levels budget := by
  cases budget with
  | zero => exact Nat.le_refl 1
  | succ budget => exact Nat.le_add_left 1 _

theorem tallest_six (budget : Nat) : tallest 6 budget = (3 * budget + 1) * (budget + 1) := by
  induction budget with
  | zero => rfl
  | succ budget ih =>
      rw [tallest_succ, ih]
      ring

theorem bindsTighter_six (tree : Expression) : tree.BindsTighter 6 := by
  cases tree with
  | binary operator left right => exact Nat.lt_succ_of_le (precedence operator).rank_le
  | _ => trivial

/-- The expression is no higher than its levels of operators and a budget allow.  On one level it
uses up as much of the budget as there are operators of the level on its left spine. -/
structure Low (budget : Nat) (tree : Expression) : Prop where
  overall {rank : Nat} : tree.BindsTighter rank → tree.height ≤ tallest rank budget
  onLevel {level : Precedence} : tree.BindsTighter (level.rank + 1) →
    tree.height ≤ tallest level.rank budget + tree.links level

namespace Low

variable {budget : Nat}

/-- What is low without any level of operators is low. -/
theorem of_lowest {tree : Expression} (lowest : tree.height ≤ tallest 0 budget) :
    tree.Low budget where
  overall _ := Nat.le_trans lowest (tallest_levels (Nat.zero_le _) budget)
  onLevel _ := Nat.le_add_right_of_le
    (Nat.le_trans lowest (tallest_levels (Nat.zero_le _) budget))

theorem within {tree : Expression} (low : tree.Low budget) : tree.height ≤ tallest 6 budget :=
  low.overall (bindsTighter_six tree)

/-- An operator adds one to the height on its own level. -/
theorem binary {operator : BinaryOperator} {left right : Expression} (lowLeft : left.Low budget)
    (lowRight : right.Low budget) (tighterLeft : left.BindsTighter ((precedence operator).rank + 1))
    (tighterRight : right.BindsTighter (precedence operator).rank)
    (spent : left.links (precedence operator) + 1 ≤ budget) :
    (Expression.binary operator left right).Low budget := by
  have heightLeft := lowLeft.onLevel tighterLeft
  have heightRight := lowRight.overall tighterRight
  have heightOnOwn : (Expression.binary operator left right).height ≤
      tallest (precedence operator).rank budget + (left.links (precedence operator) + 1) := by
    rw [height]
    omega
  have heightOverall {rank : Nat} (looser : (precedence operator).rank < rank) :
      (Expression.binary operator left right).height ≤ tallest rank budget := by
    have more := tallest_levels (Nat.succ_le_of_lt looser) budget
    rw [tallest_succ_levels] at more
    omega
  refine ⟨heightOverall, ?_⟩
  intro level atMost
  -- On another level than its own the operator starts over with no links.
  by_cases same : precedence operator = level
  · subst same
    rw [links, if_pos rfl]
    exact heightOnOwn
  · have different : (precedence operator).rank ≠ level.rank :=
      fun sameRank => same (Precedence.rank_injective sameRank)
    exact Nat.le_add_right_of_le (heightOverall (Nat.lt_of_le_of_ne (Nat.le_of_lt_succ atMost)
      different))

/-- What spends a unit on its parts may be one higher than they are. -/
theorem of_spent {tree : Expression} {need height : Nat} (fits : 1 + need ≤ budget)
    (inside : ∀ smaller, need ≤ smaller → height ≤ tallest 6 smaller)
    (outside : tree.height = height + 1) : tree.Low budget := by
  apply of_lowest
  cases budget with
  | zero => omega
  | succ smaller =>
      rw [tallest_succ_budget, outside]
      exact Nat.succ_le_succ (inside smaller (by omega))

end Low

/-- A tree of the shape that the table of precedence dictates is no higher than its need allows. -/
theorem Shaped.low {tree : Expression} (shaped : tree.Shaped) {budget : Nat}
    (fits : tree.need ≤ budget) : tree.Low budget := by
  induction shaped generalizing budget with
  | @binary operator left right _ _ tighterLeft tighterRight ihLeft ihRight =>
      simp only [need, Nat.max_le] at fits
      exact (ihLeft fits.1).binary (ihRight (by omega)) tighterLeft tighterRight (by omega)
  | literal | reference | property => exact .of_lowest (one_le_tallest 0 budget)
  | unary _ _ ih | grouping _ ih =>
      exact .of_spent fits (fun smaller fitsInside => (ih fitsInside).within) rfl
  | array _ ih | call _ _ ih =>
      refine .of_spent fits (fun smaller fitsInside => ?_) rfl
      exact heightOfAll_le_iff.mpr fun part isPart =>
        (ih part isPart (Nat.le_trans (need_le_needOfAll isPart) fitsInside)).within
  | object _ ih =>
      refine .of_spent fits (fun smaller fitsInside => ?_) rfl
      exact heightOfEntries_le_iff.mpr fun part isPart =>
        (ih part isPart (Nat.le_trans (need_le_needOfEntries isPart) fitsInside)).within

end Expression

/-! ## The need of the parts of a node -/

namespace Node

/-- The node is a statement. -/
def isStatement : Node → Bool
  | .statement _ => true
  | _ => false

/-- The node is an expression. -/
def isExpression : Node → Bool
  | .expression _ => true
  | _ => false

/-- The nesting that a node needs to be read. -/
def need : Node → Nat
  | .declaration declared => declared.need
  | .property item => Expression.needOfOption item.default
  | .sensor device | .actuator device => Expression.needOfEntries device.configuration
  | .setting item | .entry item => item.value.need
  | .state item => item.need
  | .reference called => Expression.needOfAll called.arguments
  | .transition _ item => Expression.needOfOption item.condition
  | .twin _ | .rule _ | .parameter _ => 0
  | .condition tree? => Expression.needOfOption tree?
  | .actions trees => 1 + Statement.needOfAll trees
  | .statement tree => tree.need
  | .expression tree => tree.need

/-- What a node takes of the budget around it.  A statement stands in a block or behind an `else`,
and so spends a unit more than it needs. -/
def charge (node : Node) : Nat := (if node.isStatement then 1 else 0) + node.need

theorem charge_of_not_statement {node : Node} (isOther : node.isStatement = false) :
    node.charge = node.need := by
  simp [charge, isOther]

theorem charge_expression (tree : Expression) : (expression tree).charge = tree.need :=
  charge_of_not_statement rfl

section Parts

variable {α : Type} {make : α → Node} {part : Node} {bound : Nat}

theorem charge_le_of_mem_map (areOther : ∀ item, (make item).isStatement = false)
    {items : List α} (isPart : part ∈ items.map make)
    (fits : largest (items.map fun item => (make item).need) ≤ bound) : part.charge ≤ bound := by
  rcases List.mem_map.mp isPart with ⟨item, isItem, rfl⟩
  rw [charge_of_not_statement (areOther item)]
  exact largest_le.mp fits _ (List.mem_map_of_mem isItem)

theorem charge_le_of_mem_expressions {trees : List Expression}
    (isPart : part ∈ trees.map expression) : part.charge ≤ Expression.needOfAll trees := by
  rw [Expression.needOfAll_eq]
  exact charge_le_of_mem_map (fun _ => rfl) isPart (Nat.le_refl _)

theorem charge_le_of_mem_optional {tree? : Option Expression}
    (isPart : part ∈ tree?.toList.map expression) :
    part.charge ≤ Expression.needOfOption tree? := by
  cases tree? with
  | none => cases isPart
  | some tree =>
      rw [List.mem_singleton.mp isPart]
      exact Nat.le_of_eq (charge_expression _)

theorem charge_le_of_mem_statements {trees : List Statement}
    (isPart : part ∈ trees.map statement) : part.charge ≤ 1 + Statement.needOfAll trees := by
  rcases List.mem_map.mp isPart with ⟨tree, isTree, rfl⟩
  rw [Statement.needOfAll_eq]
  exact Nat.add_le_add_left (le_largest (List.mem_map_of_mem isTree)) 1

end Parts

theorem charge_le_of_mem_ofExpression {tree : Expression} {part : Node}
    (isPart : part ∈ ofExpression tree) : part.charge ≤ tree.need := by
  cases tree with
  | binary operator left right =>
      rw [Expression.need]
      rcases List.mem_pair.mp isPart with rfl | rfl
      all_goals
        rw [charge_expression]
        omega
  | unary operator inner | grouping inner =>
      rw [List.mem_singleton.mp isPart, charge_expression]
      exact Nat.le_add_left _ _
  | array trees | call callee trees =>
      exact Nat.le_add_left_of_le (charge_le_of_mem_expressions isPart)
  | object entries =>
      rw [Expression.need, Expression.needOfEntries_eq]
      exact Nat.le_add_left_of_le (charge_le_of_mem_map (fun _ => rfl) isPart (Nat.le_refl _))
  | literal | reference | property => cases isPart

theorem charge_le_of_mem_ofStatement {tree : Statement} {part : Node}
    (isPart : part ∈ ofStatement tree) : part.charge ≤ tree.need := by
  cases tree with
  | conditional test thenBranch elseBranch location =>
      simp only [ofStatement, List.mem_cons, List.mem_append] at isPart
      rw [Statement.need]
      rcases isPart with rfl | inThen | inElse
      · rw [charge_expression]
        omega
      -- The block pays the unit that its statements are charged.
      · have charged := charge_le_of_mem_statements inThen
        omega
      · cases elseBranch with
        | none => cases inElse
        | some branch =>
            have charged : part.charge ≤ 1 + Statement.needOfAll branch :=
              charge_le_of_mem_statements inElse
            rw [Statement.needOfBranch]
            omega
  | loop name iterable body location =>
      rw [Statement.need]
      rcases List.mem_cons.mp isPart with rfl | inBody
      · rw [charge_expression]
        omega
      · have charged := charge_le_of_mem_statements inBody
        omega
  | log message extra location | alert message extra location =>
      rw [Statement.need]
      rcases List.mem_cons.mp isPart with rfl | isExtra
      · rw [charge_expression]
        omega
      · have charged := charge_le_of_mem_optional isExtra
        omega
  | notify target message data location =>
      simp only [ofStatement, List.mem_cons] at isPart
      rw [Statement.need]
      rcases isPart with rfl | rfl | isData
      · rw [charge_expression]
        omega
      · rw [charge_expression]
        omega
      · have charged := charge_le_of_mem_optional isData
        omega
  | assignment target value location =>
      rw [List.mem_singleton.mp isPart]
      exact Nat.le_of_eq (charge_expression _)
  | call name arguments location => exact charge_le_of_mem_expressions isPart

theorem charge_le_of_mem_ofDeclaration {declared : Declaration} {part : Node}
    (isPart : part ∈ ofDeclaration declared) : part.charge ≤ declared.need := by
  cases declared with
  | twin declared =>
      simp only [ofDeclaration, List.mem_append] at isPart
      rw [Declaration.need, Twin.need]
      rcases isPart with ((isProperty | isSensor) | isActuator) | isState
      · exact charge_le_of_mem_map (fun _ => rfl) isProperty (le_largest (.head _))
      · exact charge_le_of_mem_map (fun _ => rfl) isSensor (le_largest (.tail _ (.head _)))
      · exact charge_le_of_mem_map (fun _ => rfl) isActuator
          (le_largest (.tail _ (.tail _ (.head _))))
      · exact charge_le_of_mem_map (fun _ => rfl) isState
          (le_largest (.tail _ (.tail _ (.tail _ (.head _)))))
  | swarm declared =>
      rcases List.mem_append.mp isPart with isTwin | isRule
      · rcases List.mem_map.mp isTwin with ⟨member, _, rfl⟩
        exact Nat.zero_le _
      · rcases List.mem_map.mp isRule with ⟨member, _, rfl⟩
        exact Nat.zero_le _
  | event declared =>
      rcases List.mem_map.mp isPart with ⟨item, _, rfl⟩
      exact Nat.zero_le _
  | action declared =>
      rcases List.mem_append.mp isPart with isParameter | isStatement
      · rcases List.mem_map.mp isParameter with ⟨item, _, rfl⟩
        exact Nat.zero_le _
      · exact charge_le_of_mem_statements isStatement
  | rule declared =>
      rcases List.mem_pair.mp isPart with rfl | rfl
      · exact Nat.le_trans (Nat.le_of_eq (Nat.zero_add _)) (Nat.le_max_left _ _)
      · exact Nat.le_trans (Nat.le_of_eq (Nat.zero_add _)) (Nat.le_max_right _ _)
  | imported declared => cases isPart

/-- The parts of a node take no more of the budget than the node needs. -/
theorem charge_le_of_mem_parts {node part : Node} (isPart : part ∈ node.parts) :
    part.charge ≤ node.need := by
  cases node with
  | declaration declared => exact charge_le_of_mem_ofDeclaration isPart
  | property item => exact charge_le_of_mem_optional isPart
  | sensor device | actuator device =>
      rw [need, Expression.needOfEntries_eq]
      exact charge_le_of_mem_map (fun _ => rfl) isPart (Nat.le_refl _)
  | setting item | entry item =>
      rw [List.mem_singleton.mp isPart]
      exact Nat.le_of_eq (charge_expression _)
  | state item =>
      simp only [parts, List.map_append, List.mem_append] at isPart
      rw [need, StateItem.need]
      rcases isPart with (isEntry | isExit) | isTransition
      · exact charge_le_of_mem_map (fun _ => rfl) isEntry (le_largest (.head _))
      · exact charge_le_of_mem_map (fun _ => rfl) isExit (le_largest (.tail _ (.head _)))
      · exact charge_le_of_mem_map (fun _ => rfl) isTransition
          (le_largest (.tail _ (.tail _ (.head _))))
  | reference called => exact charge_le_of_mem_expressions isPart
  | transition source item => exact charge_le_of_mem_optional isPart
  | condition tree? => exact charge_le_of_mem_optional isPart
  | actions trees => exact charge_le_of_mem_statements isPart
  | statement tree => exact charge_le_of_mem_ofStatement isPart
  | expression tree => exact charge_le_of_mem_ofExpression isPart
  | twin | rule | parameter => cases isPart

end Node

/-- How many blocks and links of `else if` stand around a node.  A statement stands either in a
block of its own parent (the body of an action, of the actions of a rule or of a loop, or a branch
of a conditional) or behind one link of `else if`, so it is enough to count the statements. -/
def Occurrence.level (occurrence : Occurrence) : Nat :=
  (occurrence.node :: occurrence.around).countP Node.isStatement

/-- What is left of a limit at a node is enough for what it needs. -/
theorem Program.Holds.need_add_level_le {program : Program} {occurrence : Occurrence}
    (holds : program.Holds occurrence) {limit : Nat}
    (fits : ∀ declared ∈ program.declarations, declared.need ≤ limit) :
    occurrence.node.need + occurrence.level ≤ limit := by
  -- Along the path to the node, need and level never sum up to more than the declaration needs.
  induction holds with
  | root isDeclared => exact fits _ isDeclared
  | @part node part around _ isPart ih =>
      have charged := Node.charge_le_of_mem_parts isPart
      rw [Node.charge] at charged
      simp only [Occurrence.level, List.countP_cons] at ih ⊢
      omega

/-! ## The shape of the expressions in a node -/

/-- Each expression in the node has the shape that the table of precedence dictates. -/
inductive Node.Shaped : Node → Prop where
  | expression {tree : Expression} : tree.Shaped → Shaped (.expression tree)
  | parts {node : Node} :
      node.isExpression = false → (∀ part ∈ node.parts, Shaped part) → Shaped node

namespace Node.Shaped

theorem tree {tree : Expression} (shaped : (Node.expression tree).Shaped) : tree.Shaped := by
  cases shaped with
  | expression shapedTree => exact shapedTree
  | parts isOther _ => cases isOther

theorem of_tree_parts {tree : Expression} (shaped : tree.Shaped) :
    ∀ part ∈ Node.ofExpression tree, part.Shaped := by
  cases shaped with
  | binary shapedLeft shapedRight =>
      exact List.forall_mem_cons.mpr
        ⟨.expression shapedLeft, List.forall_mem_singleton.mpr (.expression shapedRight)⟩
  | unary shapedInner | grouping shapedInner =>
      exact List.forall_mem_singleton.mpr (.expression shapedInner)
  | array shapedParts | call _ shapedParts =>
      exact List.forall_mem_map.mpr fun part isPart => .expression (shapedParts part isPart)
  | object shapedParts =>
      refine List.forall_mem_map.mpr fun part isPart => .parts rfl ?_
      exact List.forall_mem_singleton.mpr (.expression (shapedParts part isPart))
  | literal | reference | property => exact List.forall_mem_nil _

/-- The parts of a node whose expressions have the shape are such nodes. -/
theorem of_mem_parts {node part : Node} (shaped : node.Shaped) (isPart : part ∈ node.parts) :
    part.Shaped := by
  cases shaped with
  | expression shapedTree => exact of_tree_parts shapedTree part isPart
  | parts _ shapedParts => exact shapedParts part isPart

end Node.Shaped

theorem Program.Holds.shaped {program : Program} {occurrence : Occurrence}
    (holds : program.Holds occurrence)
    (shaped : ∀ declared ∈ program.declarations, (Node.declaration declared).Shaped) :
    occurrence.node.Shaped := by
  induction holds with
  | root isDeclared => exact shaped _ isDeclared
  | part _ isPart ih => exact ih.of_mem_parts isPart

end TwinSwarm
