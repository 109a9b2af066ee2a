import TwinSwarm.Proofs.Grammar.Declaration

/-!
# The need of a tree

The nesting that a phrase needs is a function of its tree, so two phrases with the same
tree need the same.  Operators of a chain are counted along the left spine of the tree,
where a chain of one level ends at an operator of another one.
-/

namespace TwinSwarm

open Grammar

/-! ## Expressions -/

namespace Expression

/-- How many operators of a level follow each other on the left spine. -/
def links (level : Precedence) : Expression → Nat
  | .binary operator left _ => if precedence operator = level then links level left + 1 else 0
  | _ => 0

mutual

/-- The nesting that an expression needs to be read. -/
def need : Expression → Nat
  | .binary operator left right =>
      max (need left) (links (precedence operator) left + 1 + need right)
  | .unary _ operand => 1 + need operand
  | .literal _ | .reference _ | .property _ _ => 0
  | .grouping inner => 1 + need inner
  | .array elements => 1 + needOfAll elements
  | .object entries => 1 + needOfEntries entries
  | .call _ arguments => 1 + needOfAll arguments

/-- The largest need of several expressions. -/
def needOfAll : List Expression → Nat
  | [] => 0
  | first :: rest => max (need first) (needOfAll rest)

/-- The largest need of the values of several entries. -/
def needOfEntries : List (Entry Expression) → Nat
  | [] => 0
  | ⟨_, value⟩ :: rest => max (need value) (needOfEntries rest)

end

theorem needOfAll_eq (expressions : List Expression) :
    needOfAll expressions = largest (expressions.map need) := by
  induction expressions with
  | nil => rfl
  | cons first rest ih => rw [needOfAll, ih, List.map_cons, largest_cons]

theorem needOfEntries_eq (entries : List (Entry Expression)) :
    needOfEntries entries = largest (entries.map fun entry => need entry.value) := by
  induction entries with
  | nil => rfl
  | cons first rest ih => rw [needOfEntries, ih, List.map_cons, largest_cons]

end Expression

namespace Grammar

open Phrase

variable {α : Type}

theorem Phrase.Separated.need_eq_of_trees {phrases : List (Phrase α)} {inside : Phrase (List α)}
    (separated : Separated phrases inside) (needOf : α → Nat)
    (needs : ∀ phrase ∈ phrases, phrase.need = needOf phrase.tree) :
    inside.need = largest (inside.tree.map needOf) := by
  rw [separated.need_eq, separated.tree_eq, List.map_map]
  exact congrArg largest (List.map_congr_left needs)

theorem links_foldl_of_ne {level other : Precedence} {links : List Link} {first : Expression}
    (levels : ∀ link ∈ links, precedence link.operator = other) (different : other ≠ level)
    (none : first.links level = 0) : (links.foldl Link.apply first).links level = 0 := by
  induction links generalizing first with
  | nil => exact none
  | cons link links ih =>
      apply ih fun next member => levels next (List.mem_cons_of_mem link member)
      have isOther := levels link (by simp)
      simp [Link.apply, Expression.links, isOther, different]

/-- An expression of a stratum ends the chains of the levels outside of it. -/
theorem Derives.links_eq_zero {stratum : Stratum} {phrase : Phrase Expression}
    (derives : Derives stratum phrase) {level : Precedence}
    (outside : stratum.levels ≤ level.rank) : phrase.tree.links level = 0 := by
  induction derives with
  | @chain inner first links _ levels _ ih _ =>
      have firstNone := ih (by rw [levels_below]; simp [Stratum.levels] at outside; omega)
      have different : inner ≠ level := by
        rintro rfl
        exact Nat.not_succ_le_self _ outside
      exact links_foldl_of_ne levels different firstNone
  | primary _ ih => exact ih outside
  | _ => rfl

theorem need_foldl {level : Precedence} {links : List Link} {first : Expression} {count : Nat}
    (levels : ∀ link ∈ links, precedence link.operator = level)
    (needs : ∀ link ∈ links, link.operand.need = link.operand.tree.need)
    (linked : first.links level = count) :
    (links.foldl Link.apply first).need = max first.need (linksNeed (count + 1) links) := by
  induction links generalizing first count with
  | nil => simp [linksNeed]
  | cons link links ih =>
      have isLevel := levels link (by simp)
      have linked' : (link.apply first).links level = count + 1 := by
        simp [Link.apply, Expression.links, isLevel, linked]
      rw [List.foldl_cons, ih (fun next member => levels next (List.mem_cons_of_mem link member))
        (fun next member => needs next (List.mem_cons_of_mem link member)) linked', linksNeed,
        needs link (by simp), Link.apply, Expression.need, isLevel, linked, Nat.max_assoc]

/-- An expression needs what its tree needs. -/
theorem Derives.need_eq {stratum : Stratum} {phrase : Phrase Expression}
    (derives : Derives stratum phrase) : phrase.need = phrase.tree.need := by
  induction derives with
  | @chain level first links isFirst levels _ ih ihLinks =>
      have noLinks := isFirst.links_eq_zero (Nat.le_of_eq (levels_below level))
      rw [chained, need_foldl levels ihLinks noLinks, ih]
  | unary operator sign _ ih => simp [Expression.need, ih]
  | primary _ ih => exact ih
  | literal | reference | property => simp [Expression.need]
  | call name place opening closing _ separated ih | array opening closing _ separated ih =>
      simp [Expression.need, Expression.needOfAll_eq, separated.need_eq_of_trees _ ih]
  | grouping opening closing _ ih => simp [Expression.need, ih]
  | @object opening closing items inside _ separated ih =>
      have needs : ∀ phrase ∈ items.map ObjectItem.phrase,
          phrase.need = phrase.tree.value.need :=
        List.forall_mem_map.mpr ih
      simp [Expression.need, Expression.needOfEntries_eq,
        separated.need_eq_of_trees (fun entry => entry.value.need) needs]

end Grammar

/-! ## Statements -/

namespace Expression

/-- The need of an expression that may be absent. -/
def needOfOption (expression : Option Expression) : Nat := (expression.map need).getD 0

end Expression

namespace Statement

mutual

/-- The nesting that a statement needs to be read. -/
def need : Statement → Nat
  | .conditional condition thenBranch elseBranch _ =>
      max (max condition.need (1 + needOfAll thenBranch)) (needOfBranch elseBranch)
  | .loop _ iterable body _ => max iterable.need (1 + needOfAll body)
  | .log message level _ => max message.need (Expression.needOfOption level)
  | .alert message severity _ => max message.need (Expression.needOfOption severity)
  | .notify target message data _ =>
      max target.need (max message.need (Expression.needOfOption data))
  | .assignment _ value _ => value.need
  | .call _ arguments _ => Expression.needOfAll arguments

/-- The largest need of several statements. -/
def needOfAll : List Statement → Nat
  | [] => 0
  | first :: rest => max (need first) (needOfAll rest)

/-- The need of an else branch, which spends a unit in either form. -/
def needOfBranch : Option (List Statement) → Nat
  | none => 0
  | some statements => 1 + needOfAll statements

end

theorem needOfAll_eq (statements : List Statement) :
    needOfAll statements = largest (statements.map need) := by
  induction statements with
  | nil => rfl
  | cons first rest ih => rw [needOfAll, ih, List.map_cons, largest_cons]

end Statement

namespace Grammar

open Phrase

theorem Phrase.succession_need_of_trees {phrases : List (Phrase α)} (needOf : α → Nat)
    (needs : ∀ phrase ∈ phrases, phrase.need = needOf phrase.tree) :
    (succession phrases).need = largest ((phrases.map tree).map needOf) := by
  rw [succession, List.map_map]
  exact congrArg largest (List.map_congr_left needs)

theorem optionally_need_eq {kind : Token.Kind} {text : String}
    {phrase : Phrase (Option Expression)}
    (isOptional : Optionally kind text IsExpression phrase) :
    phrase.need = Expression.needOfOption phrase.tree := by
  cases isOptional with
  | absent => rfl
  | present place isExpression => exact isExpression.need_eq

theorem IsArguments.need_eq {phrase : Phrase (List Expression)}
    (isArguments : IsArguments phrase) : phrase.need = Expression.needOfAll phrase.tree := by
  cases isArguments with
  | intro opening closing isExpression separated =>
      rw [Expression.needOfAll_eq]
      exact separated.need_eq_of_trees _ fun phrase member => (isExpression phrase member).need_eq

theorem braced_need_eq {statements : List (Phrase Statement)}
    (needs : ∀ phrase ∈ statements, phrase.need = phrase.tree.need)
    (opening closing : Location) :
    (braced opening closing statements).need =
      1 + Statement.needOfAll (braced opening closing statements).tree := by
  rw [Statement.needOfAll_eq]
  exact congrArg (1 + ·) (succession_need_of_trees _ needs)

/-- A statement needs what its tree needs. -/
theorem Forms.need_eq {shape : Shape} {phrase : Phrase Statement} (forms : Forms shape phrase) :
    phrase.need = phrase.tree.need := by
  induction forms with
  | withoutElse _ _ _ _ _ isCondition _ ih =>
      simp [oneBranch, guarded, Statement.need, Statement.needOfBranch, isCondition.need_eq,
        braced_need_eq ih]
  | withElse _ _ _ _ _ _ _ _ isCondition _ _ ih ihBranch =>
      simp [twoBranches, guarded, Statement.need, Statement.needOfBranch, isCondition.need_eq,
        braced_need_eq ih, braced_need_eq ihBranch]
  | withElseIf _ _ _ _ _ _ isCondition _ _ ih ihChained =>
      simp [twoBranches, guarded, elseIf, Statement.need, Statement.needOfBranch,
        Statement.needOfAll, isCondition.need_eq, braced_need_eq ih, ihChained]
  | conditional _ ih => exact ih
  | loop _ _ _ _ _ _ _ _ isIterable _ ih =>
      simp [looping, Statement.need, isIterable.need_eq, braced_need_eq ih]
  | log _ _ _ _ isMessage isExtra | alert _ _ _ _ isMessage isExtra =>
      simp [reporting, Statement.need, isMessage.need_eq, optionally_need_eq isExtra]
  | notify _ _ _ _ _ isTarget isMessage isData =>
      simp [Statement.need, isTarget.need_eq, isMessage.need_eq, optionally_need_eq isData]
  | assignment _ _ _ _ isValue => simp [Statement.need, isValue.need_eq]
  | call _ _ _ isArguments => simp [Statement.need, isArguments.need_eq]

end Grammar

/-! ## Declarations -/

/-- The nesting that a state needs to be read. -/
def StateItem.need (state : StateItem) : Nat :=
  largest
    [largest (state.entryActions.map fun reference => Expression.needOfAll reference.arguments),
      largest (state.exitActions.map fun reference => Expression.needOfAll reference.arguments),
      largest (state.transitions.map fun item => Expression.needOfOption item.condition)]

/-- The nesting that a twin needs to be read. -/
def Twin.need (twin : Twin) : Nat :=
  largest
    [largest (twin.properties.map fun item => Expression.needOfOption item.default),
      largest (twin.sensors.map fun item => Expression.needOfEntries item.configuration),
      largest (twin.actuators.map fun item => Expression.needOfEntries item.configuration),
      largest (twin.states.map StateItem.need)]

/-- The nesting that a declaration needs to be read. -/
def Declaration.need : Declaration → Nat
  | .twin declared => declared.need
  | .action declared => 1 + Statement.needOfAll declared.body
  | .rule declared =>
      max (Expression.needOfOption declared.condition)
        (1 + Statement.needOfAll declared.actions)
  | .swarm _ | .event _ | .imported _ => 0

/-- The nesting that a program needs to be read. -/
def Program.need (program : Program) : Nat := largest (program.declarations.map Declaration.need)

namespace Grammar

open Phrase

/-- The nesting that a clause needs. -/
def StateClause.need : StateClause → Nat
  | .entry reference | .exit reference => Expression.needOfAll reference.arguments
  | .transition item => Expression.needOfOption item.condition

/-- The nesting that an item of a twin needs. -/
def TwinItem.need : TwinItem → Nat
  | .property item => Expression.needOfOption item.default
  | .sensor item | .actuator item => Expression.needOfEntries item.configuration
  | .state item => item.need

theorem IsReference.need_eq {place : Location} {phrase : Phrase ActionReference}
    (isReference : IsReference place phrase) :
    phrase.need = Expression.needOfAll phrase.tree.arguments := by
  cases isReference with
  | plain => rfl
  | applied _ _ isArguments => exact isArguments.need_eq

theorem IsClause.need_eq {phrase : Phrase StateClause} (isClause : IsClause phrase) :
    phrase.need = phrase.tree.need := by
  cases isClause with
  | entry _ _ isReference | exit _ _ isReference => exact isReference.need_eq
  | transition _ isItem =>
      cases isItem with
      | intro _ _ _ isCondition => exact optionally_need_eq isCondition

/-- The largest need of the clauses of a state does not depend on their order. -/
theorem largest_clauses (clauses : List StateClause) :
    largest (clauses.map StateClause.need) =
      largest
        [largest ((clauses.filterMap StateClause.entry?).map fun reference =>
            Expression.needOfAll reference.arguments),
          largest ((clauses.filterMap StateClause.exit?).map fun reference =>
            Expression.needOfAll reference.arguments),
          largest ((clauses.filterMap StateClause.transition?).map fun item =>
            Expression.needOfOption item.condition)] := by
  induction clauses with
  | nil => rfl
  | cons clause clauses ih =>
      cases clause <;>
        simp [List.filterMap_cons, StateClause.need, StateClause.entry?, StateClause.exit?,
          StateClause.transition?, ih] <;> omega

theorem IsState.need_eq {place : Location} {phrase : Phrase StateItem}
    (isState : IsState place phrase) : phrase.need = phrase.tree.need := by
  cases isState with
  | intro _ _ _ _ isClause =>
      exact (succession_need_of_trees _ fun clause member => (isClause clause member).need_eq).trans
        (largest_clauses _)

theorem IsDevice.need_eq {place : Location} {phrase : Phrase Device}
    (isDevice : IsDevice place phrase) :
    phrase.need = Expression.needOfEntries phrase.tree.configuration := by
  cases isDevice with
  | bare => rfl
  | @configured _ _ _ _ _ _ _ settings inside isSetting listed =>
      rcases listed.separated with ⟨plain, separated, treeEq, needEq⟩
      have needs : ∀ phrase ∈ settings, phrase.need = phrase.tree.value.need := by
        intro phrase member
        cases isSetting phrase member with
        | intro _ _ _ isValue => exact isValue.need_eq
      rw [needEq, treeEq, Expression.needOfEntries_eq]
      exact separated.need_eq_of_trees (fun entry => entry.value.need) needs

theorem IsTwinItem.need_eq {phrase : Phrase TwinItem} (isItem : IsTwinItem phrase) :
    phrase.need = phrase.tree.need := by
  cases isItem with
  | property _ isItem =>
      cases isItem with
      | intro _ _ _ _ _ _ isValue => exact optionally_need_eq isValue
  | sensor _ isItem | actuator _ isItem => exact isItem.need_eq
  | state _ isItem => exact isItem.need_eq

/-- The largest need of the items of a twin does not depend on their order. -/
theorem largest_items (items : List TwinItem) :
    largest (items.map TwinItem.need) =
      largest
        [largest ((items.filterMap TwinItem.property?).map fun item =>
            Expression.needOfOption item.default),
          largest ((items.filterMap TwinItem.sensor?).map fun item =>
            Expression.needOfEntries item.configuration),
          largest ((items.filterMap TwinItem.actuator?).map fun item =>
            Expression.needOfEntries item.configuration),
          largest ((items.filterMap TwinItem.state?).map StateItem.need)] := by
  induction items with
  | nil => rfl
  | cons item items ih =>
      cases item <;>
        simp [List.filterMap_cons, TwinItem.need, TwinItem.property?, TwinItem.sensor?,
          TwinItem.actuator?, TwinItem.state?, ih] <;> omega

theorem IsBlock.need_eq {phrase : Phrase (List Statement)} (isBlock : IsBlock phrase) :
    phrase.need = 1 + Statement.needOfAll phrase.tree := by
  cases isBlock with
  | intro opening closing isStatement =>
      exact braced_need_eq (fun phrase member => (isStatement phrase member).need_eq) _ _

/-- A declaration needs what its tree needs. -/
theorem IsDeclaration.need_eq {phrase : Phrase Declaration} (isDeclaration : IsDeclaration phrase) :
    phrase.need = phrase.tree.need := by
  cases isDeclaration with
  | twin _ isTwin =>
      cases isTwin with
      | intro _ _ _ _ _ isItem =>
          exact (succession_need_of_trees _ fun item member => (isItem item member).need_eq).trans
            (largest_items _)
  | swarm _ isSwarm => cases isSwarm; rfl
  | event _ isEvent => cases isEvent; rfl
  | action _ isAction =>
      cases isAction with
      | intro _ _ _ isBlock => exact isBlock.need_eq
  | rule _ isRule =>
      cases isRule with
      | intro _ _ _ _ _ _ _ isCondition isBlock =>
          simp [behind, Declaration.need, Expression.needOfOption, isCondition.need_eq,
            isBlock.need_eq]
  | imported _ isImport => cases isImport; rfl

end Grammar

end TwinSwarm
