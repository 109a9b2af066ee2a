import Mathlib.Data.List.Basic
import TwinSwarm.Gap

/-!
# What the nodes of a tree require

A tree is described here one node at a time: the parts of a node, what the node requires, and
the place that it has, if it has one.  The search for gaps is then what this description makes
of it.  It meets every occurrence of a node in the tree, each before its parts, and reports
each requirement that is not met once, at the nearest place around it.
-/

namespace TwinSwarm

/-- A node of a tree.  The condition and the actions of a rule count as nodes, since a rule
requires them. -/
inductive Node where
  | declaration (declared : Declaration)
  | property (item : PropertyItem)
  | sensor (device : Device)
  | actuator (device : Device)
  | setting (item : Entry Expression)
  | state (item : StateItem)
  | reference (called : ActionReference)
  | transition (source : StateItem) (item : Transition)
  | twin (member : TwinReference)
  | rule (member : RuleReference)
  | parameter (item : Parameter)
  | condition (tree? : Option Expression)
  | actions (trees : List Statement)
  | statement (tree : Statement)
  | expression (tree : Expression)
  | entry (item : Entry Expression)

/-- Something that a node requires, and whether it has it. -/
structure Requirement where
  missing : String
  isMet : Bool

/-- The requirement that a text is not blank. -/
def Requirement.filled (missing text : String) : Requirement :=
  ⟨missing, !Text.isBlankText text⟩

/-- Where the gaps of a node are reported: a description of the node, and its place. -/
structure Anchor where
  owner : String
  location : Location
  deriving Inhabited

namespace Node

/-! ## The description of a node -/

/-- The parts of a declaration. -/
@[simp] def ofDeclaration : Declaration → List Node
  | .twin declared =>
      declared.properties.map property ++ declared.sensors.map sensor ++
        declared.actuators.map actuator ++ declared.states.map state
  | .swarm declared => declared.twins.map twin ++ declared.rules.map rule
  | .event declared => declared.parameters.map parameter
  | .action declared => declared.parameters.map parameter ++ declared.body.map statement
  | .rule declared => [condition declared.condition, actions declared.actions]
  | .imported _ => []

/-- The parts of a statement. -/
@[simp] def ofStatement : Statement → List Node
  | .conditional test thenBranch elseBranch _ =>
      expression test :: (thenBranch.map statement ++ (elseBranch.getD []).map statement)
  | .loop _ iterable body _ => expression iterable :: body.map statement
  | .log message level _ => expression message :: level.toList.map expression
  | .alert message severity _ => expression message :: severity.toList.map expression
  | .notify target message data _ =>
      expression target :: expression message :: data.toList.map expression
  | .assignment _ value _ => [expression value]
  | .call _ arguments _ => arguments.map expression

/-- The parts of an expression. -/
@[simp] def ofExpression : Expression → List Node
  | .binary _ left right => [expression left, expression right]
  | .unary _ operand => [expression operand]
  | .grouping inner => [expression inner]
  | .array elements => elements.map expression
  | .object entries => entries.map entry
  | .call _ arguments => arguments.map expression
  | .literal _ | .reference _ | .property .. => []

/-- The parts of a node, in the order in which they stand in it. -/
@[simp] def parts : Node → List Node
  | .declaration declared => ofDeclaration declared
  | .property item => item.default.toList.map expression
  | .sensor device | .actuator device => device.configuration.map setting
  | .setting item | .entry item => [expression item.value]
  | .state item =>
      (item.entryActions ++ item.exitActions).map reference ++
        item.transitions.map (transition item)
  | .reference called => called.arguments.map expression
  | .transition _ item => item.condition.toList.map expression
  | .twin _ | .rule _ | .parameter _ => []
  | .condition tree? => tree?.toList.map expression
  | .actions trees => trees.map statement
  | .statement tree => ofStatement tree
  | .expression tree => ofExpression tree

/-- What a declaration requires. -/
@[simp] def requirementsOfDeclaration (declared : Declaration) : List Requirement :=
  .filled "name" declared.name ::
    match declared with
    | .twin declared => declared.parent.toList.map (.filled "parent name")
    | .imported declared => declared.path.toList.map (.filled "path")
    | _ => []

/-- What a statement requires. -/
@[simp] def requirementsOfStatement : Statement → List Requirement
  | .loop name _ _ _ => [.filled "loop variable" name]
  | .assignment target _ _ => [.filled "target" target]
  | .call name _ _ => [.filled "name" name]
  | .conditional .. | .log .. | .alert .. | .notify .. => []

/-- What an expression requires. -/
@[simp] def requirementsOfExpression : Expression → List Requirement
  | .reference name => [.filled "variable name" name]
  | .call callee _ => [.filled "callee name" callee]
  | .property owner name => [.filled "object name" owner, .filled "property name" name]
  | .binary .. | .unary .. | .literal _ | .grouping _ | .array _ | .object _ => []

/-- What a node requires. -/
@[simp] def requirements : Node → List Requirement
  | .declaration declared => requirementsOfDeclaration declared
  | .property item => [.filled "name" item.name, .filled "type" item.type]
  | .sensor device | .actuator device =>
      [.filled "name" device.name, .filled "type" device.type]
  | .setting item => [.filled "configuration key" item.key]
  | .state item => [.filled "name" item.name]
  | .reference called => [.filled "name" called.name]
  | .transition _ item => [.filled "target" item.target]
  | .twin member =>
      .filled "twin type" member.type :: member.instanceName.toList.map (.filled "instance name")
  | .rule member => [.filled "name" member.name]
  | .parameter item => [.filled "name" item.name, .filled "parameter_type" item.type]
  | .condition tree? => [⟨"condition", tree?.isSome⟩]
  | .actions trees => [⟨"actions", !trees.isEmpty⟩]
  | .statement tree => requirementsOfStatement tree
  | .expression tree => requirementsOfExpression tree
  | .entry item => [.filled "object key" item.key]

/-- Where the gaps of a node are reported, if the node has a place of its own. -/
@[simp] def anchor? : Node → Option Anchor
  | .declaration declared => some ⟨Gap.describe declared.typeName declared.name, declared.location⟩
  | .property item => some ⟨Gap.describe "property_declaration" item.name, item.location⟩
  | .sensor device => some ⟨Gap.describe "sensor_declaration" device.name, device.location⟩
  | .actuator device => some ⟨Gap.describe "actuator_declaration" device.name, device.location⟩
  | .state item => some ⟨Gap.describe "state_declaration" item.name, item.location⟩
  | .reference called => some ⟨Gap.describe "action_reference" called.name, called.location⟩
  | .transition source item =>
      some ⟨"transition in " ++ Gap.describe "state_declaration" source.name, item.location⟩
  | .twin member => some ⟨Gap.describe "twin_reference" member.type, member.location⟩
  | .rule member => some ⟨"rule_reference", member.location⟩
  | .parameter item => some ⟨Gap.describe "parameter" item.name, item.location⟩
  | .statement tree => some ⟨tree.typeName, tree.location⟩
  | .setting _ | .condition _ | .actions _ | .expression _ | .entry _ => none

/-! ## The nodes inside a node -/

/-- How much a node holds. -/
@[simp] noncomputable def weight : Node → Nat
  | .declaration declared => sizeOf declared
  | .property item => sizeOf item
  | .sensor device | .actuator device => sizeOf device
  | .setting item | .entry item => sizeOf item
  | .state item => sizeOf item
  | .reference called => sizeOf called
  | .transition _ item => sizeOf item
  | .twin member => sizeOf member
  | .rule member => sizeOf member
  | .parameter item => sizeOf item
  | .condition tree? => sizeOf tree?
  | .actions trees => sizeOf trees
  | .statement tree => sizeOf tree
  | .expression tree => sizeOf tree

section Weight

variable {α : Type} [SizeOf α] {make : α → Node} {part : Node} {bound : Nat}

/-- A node of a list holds less than what the list is in. -/
theorem weight_lt_of_mem_map (sized : ∀ item, (make item).weight = sizeOf item) {items : List α}
    (isPart : part ∈ items.map make) (fits : sizeOf items ≤ bound) : part.weight < bound := by
  rcases List.mem_map.mp isPart with ⟨item, isItem, rfl⟩
  rw [sized]
  exact Nat.lt_of_lt_of_le (List.sizeOf_lt_of_mem isItem) fits

/-- A node that is present holds less than what it is present in. -/
theorem weight_lt_of_mem_toList (sized : ∀ item, (make item).weight = sizeOf item)
    {item? : Option α} (isPart : part ∈ item?.toList.map make) (fits : sizeOf item? ≤ bound) :
    part.weight < bound := by
  cases item? with
  | none => cases isPart
  | some item =>
      rw [List.mem_singleton.mp isPart, sized]
      simp only [Option.some.sizeOf_spec] at fits
      omega

end Weight

theorem weight_lt_of_mem_ofExpression {tree : Expression} {part : Node}
    (isPart : part ∈ ofExpression tree) : part.weight < sizeOf tree := by
  cases tree with
  | binary operator left right =>
      rcases List.mem_pair.mp isPart with rfl | rfl
      all_goals simp only [weight, Expression.binary.sizeOf_spec]; omega
  | unary operator operand =>
      rw [List.mem_singleton.mp isPart]
      simp only [weight, Expression.unary.sizeOf_spec]
      omega
  | grouping inner =>
      rw [List.mem_singleton.mp isPart]
      simp only [weight, Expression.grouping.sizeOf_spec]
      omega
  | array elements => exact weight_lt_of_mem_map (fun _ => rfl) isPart (by simp)
  | object entries => exact weight_lt_of_mem_map (fun _ => rfl) isPart (by simp)
  | call callee arguments => exact weight_lt_of_mem_map (fun _ => rfl) isPart (by simp)
  | literal | reference | property => cases isPart

theorem weight_lt_of_mem_ofStatement {tree : Statement} {part : Node}
    (isPart : part ∈ ofStatement tree) : part.weight < sizeOf tree := by
  cases tree with
  | conditional test thenBranch elseBranch location =>
      simp only [ofStatement, List.mem_cons, List.mem_append] at isPart
      rcases isPart with rfl | inThen | inElse
      · simp only [weight, Statement.conditional.sizeOf_spec]
        omega
      · exact weight_lt_of_mem_map (fun _ => rfl) inThen (by simp; omega)
      · cases elseBranch with
        | none => cases inElse
        | some branch => exact weight_lt_of_mem_map (fun _ => rfl) inElse (by simp; omega)
  | loop name iterable body location =>
      rcases List.mem_cons.mp isPart with rfl | inBody
      · simp only [weight, Statement.loop.sizeOf_spec]
        omega
      · exact weight_lt_of_mem_map (fun _ => rfl) inBody (by simp; omega)
  | log message extra location | alert message extra location =>
      rcases List.mem_cons.mp isPart with rfl | isExtra
      · simp [weight]
        omega
      · exact weight_lt_of_mem_toList (fun _ => rfl) isExtra (by simp; omega)
  | notify target message data location =>
      simp only [ofStatement, List.mem_cons] at isPart
      rcases isPart with rfl | rfl | isData
      · simp only [weight, Statement.notify.sizeOf_spec]
        omega
      · simp only [weight, Statement.notify.sizeOf_spec]
        omega
      · exact weight_lt_of_mem_toList (fun _ => rfl) isData (by simp; omega)
  | assignment target value location =>
      rw [List.mem_singleton.mp isPart]
      simp only [weight, Statement.assignment.sizeOf_spec]
      omega
  | call name arguments location =>
      exact weight_lt_of_mem_map (fun _ => rfl) isPart (by simp; omega)

theorem weight_lt_of_mem_ofDeclaration {declared : Declaration} {part : Node}
    (isPart : part ∈ ofDeclaration declared) : part.weight < sizeOf declared := by
  cases declared with
  | twin declared =>
      rcases declared with ⟨name, parent, properties, sensors, actuators, states, location⟩
      simp only [ofDeclaration, List.mem_append] at isPart
      rcases isPart with ((isProperty | isSensor) | isActuator) | isState
      · exact weight_lt_of_mem_map (fun _ => rfl) isProperty (by simp; omega)
      · exact weight_lt_of_mem_map (fun _ => rfl) isSensor (by simp; omega)
      · exact weight_lt_of_mem_map (fun _ => rfl) isActuator (by simp; omega)
      · exact weight_lt_of_mem_map (fun _ => rfl) isState (by simp; omega)
  | swarm declared =>
      rcases declared with ⟨name, twins, rules, location⟩
      rcases List.mem_append.mp isPart with isTwin | isRule
      · exact weight_lt_of_mem_map (fun _ => rfl) isTwin (by simp; omega)
      · exact weight_lt_of_mem_map (fun _ => rfl) isRule (by simp; omega)
  | event declared =>
      rcases declared with ⟨name, parameters, location⟩
      exact weight_lt_of_mem_map (fun _ => rfl) isPart (by simp; omega)
  | action declared =>
      rcases declared with ⟨name, parameters, body, location⟩
      rcases List.mem_append.mp isPart with isParameter | isStatement
      · exact weight_lt_of_mem_map (fun _ => rfl) isParameter (by simp; omega)
      · exact weight_lt_of_mem_map (fun _ => rfl) isStatement (by simp; omega)
  | rule declared =>
      rcases declared with ⟨name, condition, actions, location⟩
      rcases List.mem_pair.mp isPart with rfl | rfl
      all_goals simp [weight]; omega
  | imported declared => cases isPart

/-- The parts of a node hold less than the node. -/
theorem weight_lt_of_mem_parts {node part : Node} (isPart : part ∈ node.parts) :
    part.weight < node.weight := by
  cases node with
  | declaration declared => exact weight_lt_of_mem_ofDeclaration isPart
  | property item =>
      rcases item with ⟨name, type, default, location⟩
      exact weight_lt_of_mem_toList (fun _ => rfl) isPart (by simp [weight]; omega)
  | sensor device | actuator device =>
      rcases device with ⟨name, type, configuration, location⟩
      exact weight_lt_of_mem_map (fun _ => rfl) isPart (by simp [weight]; omega)
  | setting item | entry item =>
      rcases item with ⟨key, value⟩
      rw [List.mem_singleton.mp isPart]
      simp only [weight, Entry.mk.sizeOf_spec]
      omega
  | state item =>
      rcases item with ⟨name, entryActions, exitActions, transitions, location⟩
      simp only [parts, List.map_append, List.mem_append] at isPart
      rcases isPart with (isEntry | isExit) | isTransition
      · exact weight_lt_of_mem_map (fun _ => rfl) isEntry (by simp [weight]; omega)
      · exact weight_lt_of_mem_map (fun _ => rfl) isExit (by simp [weight]; omega)
      · exact weight_lt_of_mem_map (fun _ => rfl) isTransition (by simp [weight]; omega)
  | reference called =>
      rcases called with ⟨name, arguments, location⟩
      exact weight_lt_of_mem_map (fun _ => rfl) isPart (by simp [weight]; omega)
  | transition source item =>
      rcases item with ⟨target, condition, location⟩
      exact weight_lt_of_mem_toList (fun _ => rfl) isPart (by simp [weight]; omega)
  | condition tree? => exact weight_lt_of_mem_toList (fun _ => rfl) isPart (by simp [weight])
  | actions trees => exact weight_lt_of_mem_map (fun _ => rfl) isPart (by simp [weight])
  | statement tree => exact weight_lt_of_mem_ofStatement isPart
  | expression tree => exact weight_lt_of_mem_ofExpression isPart
  | twin | rule | parameter => cases isPart

end Node

/-- A node of a tree together with the nodes around it, the nearest first. -/
structure Occurrence where
  node : Node
  around : List Node

namespace Node

/-- The occurrences of nodes in a node, each before its parts. -/
def occurrences (around : List Node) (node : Node) : List Occurrence :=
  ⟨node, around⟩ :: node.parts.attach.flatMap fun part => part.1.occurrences (node :: around)
  termination_by node.weight
  decreasing_by exact weight_lt_of_mem_parts part.2

theorem occurrences_eq (around : List Node) (node : Node) :
    node.occurrences around =
      ⟨node, around⟩ :: node.parts.flatMap (occurrences (node :: around)) := by
  rw [occurrences]
  conv_rhs => rw [← List.attach_map_subtype_val node.parts, List.flatMap_map]

end Node

/-- The nearest place among some nodes, the first of which is the nearest. -/
def Anchor.nearest (nodes : List Node) : Anchor :=
  (nodes.findSome? Node.anchor?).getD default

/-- The requirements that are not met, reported at one place. -/
def Anchor.gaps (anchor : Anchor) (requirements : List Requirement) : List Gap :=
  (requirements.filter fun requirement => !requirement.isMet).map fun requirement =>
    ⟨anchor.owner, requirement.missing, anchor.location⟩

namespace Occurrence

/-- Where the gaps of the node are reported: at its own place or, if it has none, at that of
the nearest node around it. -/
def anchor (occurrence : Occurrence) : Anchor :=
  .nearest (occurrence.node :: occurrence.around)

/-- The gaps that the node itself leaves. -/
def gaps (occurrence : Occurrence) : List Gap :=
  occurrence.anchor.gaps occurrence.node.requirements

end Occurrence

namespace Program

/-- The node occurs in the program, inside the nodes around it. -/
inductive Holds (program : Program) : Occurrence → Prop where
  | root {declared : Declaration} :
      declared ∈ program.declarations → program.Holds ⟨.declaration declared, []⟩
  | part {node part : Node} {around : List Node} :
      program.Holds ⟨node, around⟩ → part ∈ node.parts → program.Holds ⟨part, node :: around⟩

/-- The occurrences of nodes in a program, each before its parts. -/
def occurrences (program : Program) : List Occurrence :=
  program.declarations.flatMap fun declared => (Node.declaration declared).occurrences []

end Program

/-! ## The gaps of one node -/

namespace Anchor

@[simp] theorem nearest_cons (node : Node) (around : List Node) :
    nearest (node :: around) = node.anchor?.getD (nearest around) := by
  rw [nearest, List.findSome?_cons]
  cases node.anchor? <;> rfl

variable (anchor : Anchor)

@[simp] theorem gaps_nil : anchor.gaps [] = [] := rfl

@[simp] theorem gaps_filled (missing text : String) (others : List Requirement) :
    anchor.gaps (.filled missing text :: others) =
      Gap.ofText text missing anchor.owner anchor.location ++ anchor.gaps others := by
  cases blank : Text.isBlankText text <;> simp [gaps, Gap.ofText, Requirement.filled, blank]

@[simp] theorem gaps_optional (missing : String) (text? : Option String) :
    anchor.gaps (text?.toList.map (.filled missing)) =
      Gap.ofOptionalText text? missing anchor.owner anchor.location := by
  cases text? with
  | none => rfl
  | some text => simp [Gap.ofOptionalText]

end Anchor

namespace Node

/-- The gaps that are left in a node inside others. -/
def gapsIn (around : List Node) (node : Node) : List Gap :=
  (node.occurrences around).flatMap Occurrence.gaps

/-- The gaps that the node itself leaves, and those that are left in its parts. -/
theorem gapsIn_eq (around : List Node) (node : Node) :
    node.gapsIn around =
      (Anchor.nearest (node :: around)).gaps node.requirements ++
        node.parts.flatMap (gapsIn (node :: around)) := by
  rw [gapsIn, occurrences_eq, List.flatMap_cons, List.flatMap_assoc]
  rfl

/-! ## Expressions -/

mutual

/-- The gaps of an expression are those that its nodes leave. -/
theorem gapsIn_expression (around : List Node) : (tree : Expression) →
    gapsIn around (.expression tree) =
      tree.gaps (Anchor.nearest around).owner (Anchor.nearest around).location
  | .literal _ | .reference _ | .property .. => by
      rw [gapsIn_eq]
      simp [Expression.gaps]
  | .binary _ left right => by
      rw [gapsIn_eq]
      simp [Expression.gaps, gapsIn_expression _ left, gapsIn_expression _ right]
  | .unary _ inner | .grouping inner => by
      rw [gapsIn_eq]
      simp [Expression.gaps, gapsIn_expression _ inner]
  | .array elements | .call _ elements => by
      rw [gapsIn_eq]
      simp [Expression.gaps, gapsIn_expressions _ elements]
  | .object entries => by
      rw [gapsIn_eq]
      simp [Expression.gaps, gapsIn_entries _ entries]

/-- The gaps of several expressions. -/
theorem gapsIn_expressions (around : List Node) : (trees : List Expression) →
    (trees.map expression).flatMap (gapsIn around) =
      Expression.gapsOfAll (Anchor.nearest around).owner (Anchor.nearest around).location trees
  | [] => rfl
  | first :: others => by
      rw [List.map_cons, List.flatMap_cons, gapsIn_expression around first,
        gapsIn_expressions around others, Expression.gapsOfAll]

/-- The gaps of the entries of an object literal. -/
theorem gapsIn_entries (around : List Node) : (entries : List (Entry Expression)) →
    (entries.map entry).flatMap (gapsIn around) =
      Expression.gapsOfEntries (Anchor.nearest around).owner (Anchor.nearest around).location
        entries
  | [] => rfl
  | ⟨_, value⟩ :: others => by
      rw [List.map_cons, List.flatMap_cons, gapsIn_entries around others, gapsIn_eq,
        Expression.gapsOfEntries]
      simp [gapsIn_expression _ value]

end

/-- The gaps of an expression that may be absent. -/
theorem gapsIn_optional (around : List Node) (tree? : Option Expression) :
    (tree?.toList.map expression).flatMap (gapsIn around) =
      Expression.gapsOfOptional (Anchor.nearest around).owner (Anchor.nearest around).location
        tree? := by
  cases tree? with
  | none => rfl
  | some tree => simp [Expression.gapsOfOptional, gapsIn_expression]

/-! ## Statements -/

mutual

/-- The gaps of a statement are those that its nodes leave. -/
theorem gapsIn_statement (around : List Node) : (tree : Statement) →
    gapsIn around (.statement tree) = tree.gaps
  | .conditional test thenBranch elseBranch _ => by
      rw [gapsIn_eq]
      simp [Statement.gaps, Statement.typeName, Statement.location, gapsIn_expression,
        gapsIn_statements _ thenBranch, gapsIn_branch _ elseBranch]
  | .loop _ iterable body _ => by
      rw [gapsIn_eq]
      simp [Statement.gaps, Statement.typeName, Statement.location, gapsIn_expression,
        gapsIn_statements _ body]
  | .log .. | .alert .. | .notify .. => by
      rw [gapsIn_eq]
      simp [Statement.gaps, Statement.typeName, Statement.location, gapsIn_expression,
        gapsIn_optional]
  | .assignment .. | .call .. => by
      rw [gapsIn_eq]
      simp [Statement.gaps, Statement.typeName, Statement.location, gapsIn_expression,
        gapsIn_expressions]

/-- The gaps of several statements. -/
theorem gapsIn_statements (around : List Node) : (trees : List Statement) →
    (trees.map statement).flatMap (gapsIn around) = Statement.gapsOfAll trees
  | [] => rfl
  | first :: others => by
      rw [List.map_cons, List.flatMap_cons, gapsIn_statement around first,
        gapsIn_statements around others, Statement.gapsOfAll]

/-- The gaps of a branch that may be absent. -/
theorem gapsIn_branch (around : List Node) : (branch : Option (List Statement)) →
    ((branch.getD []).map statement).flatMap (gapsIn around) = Statement.gapsOfBranch branch
  | none => rfl
  | some trees => gapsIn_statements around trees

end

/-! ## Items -/

variable (around : List Node)

theorem gapsIn_property (item : PropertyItem) : gapsIn around (.property item) = item.gaps := by
  rw [gapsIn_eq]
  simp [PropertyItem.gaps, gapsIn_optional]

/-- The gaps of a configuration. -/
theorem gapsIn_settings (settings : List (Entry Expression)) :
    (settings.map setting).flatMap (gapsIn around) =
      settings.flatMap (Entry.configurationGaps (Anchor.nearest around).owner
        (Anchor.nearest around).location) := by
  rw [List.flatMap_map]
  apply List.flatMap_congr
  intro item _
  rw [gapsIn_eq]
  simp [Entry.configurationGaps, gapsIn_expression]

theorem gapsIn_sensor (device : Device) :
    gapsIn around (.sensor device) = device.gaps "sensor_declaration" := by
  rw [gapsIn_eq]
  simp [Device.gaps, gapsIn_settings]

theorem gapsIn_actuator (device : Device) :
    gapsIn around (.actuator device) = device.gaps "actuator_declaration" := by
  rw [gapsIn_eq]
  simp [Device.gaps, gapsIn_settings]

theorem gapsIn_reference (called : ActionReference) :
    gapsIn around (.reference called) = called.gaps := by
  rw [gapsIn_eq]
  simp [ActionReference.gaps, gapsIn_expressions]

theorem gapsIn_transition (source : StateItem) (item : Transition) :
    gapsIn around (.transition source item) =
      item.gaps (Gap.describe "state_declaration" source.name) := by
  rw [gapsIn_eq]
  simp [Transition.gaps, gapsIn_optional]

theorem gapsIn_state (item : StateItem) : gapsIn around (.state item) = item.gaps := by
  rw [gapsIn_eq]
  simp [StateItem.gaps, List.flatMap_map, gapsIn_reference, gapsIn_transition]

theorem gapsIn_twin (member : TwinReference) : gapsIn around (.twin member) = member.gaps := by
  rw [gapsIn_eq]
  simp [TwinReference.gaps]

theorem gapsIn_rule (member : RuleReference) : gapsIn around (.rule member) = member.gaps := by
  rw [gapsIn_eq]
  simp [RuleReference.gaps]

theorem gapsIn_parameter (item : Parameter) : gapsIn around (.parameter item) = item.gaps := by
  rw [gapsIn_eq]
  simp [Parameter.gaps]

theorem gapsIn_parameters (items : List Parameter) :
    (items.map parameter).flatMap (gapsIn around) = items.flatMap Parameter.gaps := by
  simp only [List.flatMap_map, gapsIn_parameter]

/-- The gaps of the condition of a rule. -/
theorem gapsIn_condition (declared : Rule) :
    gapsIn (.declaration (.rule declared) :: around) (.condition declared.condition) =
      declared.conditionGaps (Gap.describe "rule_declaration" declared.name) := by
  rw [gapsIn_eq, Rule.conditionGaps]
  cases declared.condition with
  | none => rfl
  | some tree => exact (List.append_nil _).trans (gapsIn_expression _ tree)

/-- The gaps of the actions of a rule. -/
theorem gapsIn_actions (declared : Rule) :
    gapsIn (.declaration (.rule declared) :: around) (.actions declared.actions) =
      (if declared.actions = [] then
          [⟨Gap.describe "rule_declaration" declared.name, "actions", declared.location⟩]
        else []) ++
        Statement.gapsOfAll declared.actions := by
  rw [gapsIn_eq]
  simp only [parts, gapsIn_statements]
  congr 1
  cases declared.actions <;> rfl

/-! ## Declarations -/

/-- The gaps of a declaration are those that its nodes leave. -/
theorem gapsIn_declaration (declared : Declaration) :
    gapsIn around (.declaration declared) = declared.gaps := by
  rw [gapsIn_eq]
  cases declared with
  | twin declared =>
      simp [Declaration.gaps, Declaration.typeName, Declaration.name, Declaration.location,
        Twin.gaps, List.flatMap_map, gapsIn_property, gapsIn_sensor, gapsIn_actuator, gapsIn_state]
  | swarm declared =>
      simp [Declaration.gaps, Declaration.typeName, Declaration.name, Declaration.location,
        Swarm.gaps, List.flatMap_map, gapsIn_twin, gapsIn_rule]
  | event declared =>
      simp only [parts, ofDeclaration, gapsIn_parameters]
      simp [Declaration.gaps]
  | action declared =>
      simp only [parts, ofDeclaration, List.flatMap_append, gapsIn_parameters, gapsIn_statements]
      simp [Declaration.gaps, Action.gaps]
  | rule declared =>
      simp [Declaration.gaps, Declaration.typeName, Declaration.name, Declaration.location,
        Rule.gaps, gapsIn_condition, gapsIn_actions]
  | imported declared =>
      simp [Declaration.gaps, Declaration.typeName, Declaration.name, Declaration.location,
        Import.gaps]

/-! ## Occurrences -/

/-- An occurrence inside a node is the node itself, or it is inside a part of the node. -/
theorem mem_occurrences {node : Node} {around : List Node} {occurrence : Occurrence} :
    occurrence ∈ node.occurrences around ↔
      occurrence = ⟨node, around⟩ ∨
        ∃ part ∈ node.parts, occurrence ∈ part.occurrences (node :: around) := by
  rw [occurrences_eq, List.mem_cons, List.mem_flatMap]

theorem holds_of_mem_occurrences {program : Program} {node : Node} {around : List Node}
    (holds : program.Holds ⟨node, around⟩) {occurrence : Occurrence}
    (isInside : occurrence ∈ node.occurrences around) : program.Holds occurrence := by
  rw [mem_occurrences] at isInside
  rcases isInside with rfl | ⟨part, isPart, isDeeper⟩
  · exact holds
  · exact holds_of_mem_occurrences (.part holds isPart) isDeeper
  termination_by node.weight
  decreasing_by exact weight_lt_of_mem_parts isPart

/-- A part of a node that occurs inside another node occurs there as well. -/
theorem part_mem_occurrences {root node part : Node} {outside around : List Node}
    (isInside : ⟨node, around⟩ ∈ root.occurrences outside) (isPart : part ∈ node.parts) :
    ⟨part, node :: around⟩ ∈ root.occurrences outside := by
  rw [mem_occurrences] at isInside ⊢
  rcases isInside with same | ⟨larger, isLarger, isDeeper⟩
  · cases same
    exact .inr ⟨part, isPart, mem_occurrences.mpr (.inl rfl)⟩
  · exact .inr ⟨larger, isLarger, part_mem_occurrences isDeeper isPart⟩
  termination_by root.weight
  decreasing_by exact weight_lt_of_mem_parts isLarger

end Node

namespace Program

variable (program : Program)

/-- The occurrences that are listed are those that the program holds. -/
theorem mem_occurrences_iff {occurrence : Occurrence} :
    occurrence ∈ program.occurrences ↔ program.Holds occurrence := by
  constructor
  · intro isInside
    rcases List.mem_flatMap.mp isInside with ⟨declared, isDeclared, isDeeper⟩
    exact Node.holds_of_mem_occurrences (.root isDeclared) isDeeper
  · intro holds
    induction holds with
    | root isDeclared =>
        exact List.mem_flatMap.mpr ⟨_, isDeclared, Node.mem_occurrences.mpr (.inl rfl)⟩
    | part _ isPart ih =>
        rcases List.mem_flatMap.mp ih with ⟨declared, isDeclared, isDeeper⟩
        exact List.mem_flatMap.mpr
          ⟨declared, isDeclared, Node.part_mem_occurrences isDeeper isPart⟩

/-- The outermost node is a declaration, so there always is a place to report at. -/
theorem exists_anchor {occurrence : Occurrence} (holds : program.Holds occurrence) :
    ∃ anchor, (occurrence.node :: occurrence.around).findSome? Node.anchor? = some anchor := by
  induction holds with
  | root isDeclared => exact ⟨_, rfl⟩
  | @part node part around _ isPart ih =>
      rw [List.findSome?_cons]
      cases part.anchor? with
      | some anchor => exact ⟨anchor, rfl⟩
      | none => exact ih

/-- The place of report is that of the node or, where it has none, of the nearest node around
it that has one. -/
theorem exists_nearest {occurrence : Occurrence} (holds : program.Holds occurrence) :
    ∃ nearer placed farther, occurrence.node :: occurrence.around = nearer ++ placed :: farther ∧
      placed.anchor? = some occurrence.anchor ∧ ∀ node ∈ nearer, node.anchor? = none := by
  rcases program.exists_anchor holds with ⟨anchor, found⟩
  have isNearest : occurrence.anchor = anchor := by
    rw [Occurrence.anchor, Anchor.nearest, found]
    rfl
  rw [isNearest]
  exact List.findSome?_eq_some_iff.mp found

/-- The gaps are those that the nodes of the program leave. -/
theorem gaps_eq_flatMap : program.gaps = program.occurrences.flatMap Occurrence.gaps := by
  rw [gaps, occurrences, List.flatMap_assoc]
  exact List.flatMap_congr fun declared _ => (Node.gapsIn_declaration [] declared).symm

end Program

/-- How an unmet requirement of the node is reported. -/
def Occurrence.report (occurrence : Occurrence) (requirement : Requirement) : Diagnostic :=
  { kind := .semantic
    message := occurrence.anchor.owner ++ " missing " ++ requirement.missing
    location := occurrence.anchor.location
    context := occurrence.anchor.owner }

theorem Occurrence.map_diagnostic_gaps (occurrence : Occurrence) :
    occurrence.gaps.map Gap.diagnostic =
      (occurrence.node.requirements.filter fun requirement => !requirement.isMet).map
        occurrence.report := by
  rw [gaps, Anchor.gaps, List.map_map]
  rfl

/-- The search for gaps meets all nodes of a program, each before its parts, and reports each
requirement that a node does not meet once, at the place of the node or the nearest one around
it.  So nothing is reported exactly if every requirement is met at every depth. -/
theorem Program.validate_reports_unmet_requirements (program : Program) :
    (program.validate = program.occurrences.flatMap fun occurrence =>
        (occurrence.node.requirements.filter fun requirement => !requirement.isMet).map
          occurrence.report) ∧
      (∀ occurrence, occurrence ∈ program.occurrences ↔ program.Holds occurrence) ∧
      (∀ occurrence, program.Holds occurrence →
        ∃ nearer placed farther,
          occurrence.node :: occurrence.around = nearer ++ placed :: farther ∧
            placed.anchor? = some occurrence.anchor ∧ ∀ node ∈ nearer, node.anchor? = none) ∧
      (program.validate = [] ↔ ∀ occurrence, program.Holds occurrence →
        ∀ requirement ∈ occurrence.node.requirements, requirement.isMet = true) := by
  have reports : program.validate = program.occurrences.flatMap fun occurrence =>
      (occurrence.node.requirements.filter fun requirement => !requirement.isMet).map
        occurrence.report := by
    rw [validate, gaps_eq_flatMap, List.map_flatMap]
    exact List.flatMap_congr fun occurrence _ => occurrence.map_diagnostic_gaps
  refine ⟨reports, fun _ => program.mem_occurrences_iff, fun _ => program.exists_nearest, ?_⟩
  rw [reports, List.flatMap_eq_nil_iff]
  simp only [List.map_eq_nil_iff, List.filter_eq_nil_iff, program.mem_occurrences_iff,
    Bool.not_eq_true', Bool.not_eq_false]

/-- A rule that assigns to nothing, inside of a conditional. -/
def namelessAssignment : Program :=
  let assignment := Statement.assignment "" (.reference "y") ⟨2, 3⟩
  ⟨[.rule
    { name := "R"
      condition := some (.reference "x")
      actions := [.conditional (.reference "x") [assignment] none ⟨2, 1⟩]
      location := ⟨1, 1⟩ }]⟩

/-- The assignment is reported, so some node does not meet what it requires. -/
theorem namelessAssignment_is_reported :
    namelessAssignment.validate =
        [⟨.semantic, "assignment missing target", ⟨2, 3⟩, "assignment"⟩] ∧
      ∃ occurrence, namelessAssignment.Holds occurrence ∧
        ∃ requirement ∈ occurrence.node.requirements, requirement.isMet ≠ true := by
  have reported : namelessAssignment.validate =
      [⟨.semantic, "assignment missing target", ⟨2, 3⟩, "assignment"⟩] := by
    decide
  refine ⟨reported, ?_⟩
  by_contra noneUnmet
  push Not at noneUnmet
  have silent :=
    (Program.validate_reports_unmet_requirements namelessAssignment).2.2.2.mpr noneUnmet
  rw [reported] at silent
  cases silent

end TwinSwarm
