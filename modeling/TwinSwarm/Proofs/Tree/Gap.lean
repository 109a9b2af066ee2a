import Mathlib.Data.List.Basic
import TwinSwarm.Gap

/-!
# The gaps that names leave room for

Where no name is blank, only few gaps can be left: the keys of object literals and the paths
of imports are quoted, so they may still be blank, and a rule may be without actions.  The
keys are listed here for each expression of a tree, together with the node that answers for
them.
-/

namespace TwinSwarm

/-! ## Keys of object literals -/

namespace Expression

mutual

/-- The keys of the object literals in an expression. -/
def objectKeys : Expression → List String
  | .binary _ left right => objectKeys left ++ objectKeys right
  | .unary _ operand => objectKeys operand
  | .literal _ | .reference _ | .property .. => []
  | .grouping inner => objectKeys inner
  | .array elements => objectKeysOfAll elements
  | .object entries => objectKeysOfEntries entries
  | .call _ arguments => objectKeysOfAll arguments

/-- The keys of the object literals in several expressions. -/
def objectKeysOfAll : List Expression → List String
  | [] => []
  | first :: rest => objectKeys first ++ objectKeysOfAll rest

/-- The keys of some entries, and those of the object literals in their values. -/
def objectKeysOfEntries : List (Entry Expression) → List String
  | [] => []
  | ⟨key, value⟩ :: rest => key :: (objectKeys value ++ objectKeysOfEntries rest)

end

end Expression

/-- An expression of a tree, with the description and the location of the node that answers
for its gaps. -/
structure Site where
  owner : String
  location : Location
  expression : Expression

namespace Site

/-- The gaps that blank keys of object literals leave, one for each of them. -/
def keyGaps (site : Site) : List Gap :=
  (site.expression.objectKeys.filter Text.isBlankText).map fun _ =>
    ⟨site.owner, "object key", site.location⟩

end Site

/-! ## The expressions of a tree -/

namespace Statement

mutual

/-- A statement and the statements inside, each before its parts. -/
def nested : Statement → List Statement
  | .conditional condition thenBranch elseBranch location =>
      .conditional condition thenBranch elseBranch location ::
        (nestedInAll thenBranch ++ nestedInBranch elseBranch)
  | .loop name iterable body location => .loop name iterable body location :: nestedInAll body
  | .log message level location => [.log message level location]
  | .alert message severity location => [.alert message severity location]
  | .notify target message data location => [.notify target message data location]
  | .assignment target value location => [.assignment target value location]
  | .call name arguments location => [.call name arguments location]

/-- Several statements and the statements inside. -/
def nestedInAll : List Statement → List Statement
  | [] => []
  | first :: rest => nested first ++ nestedInAll rest

/-- The statements of a branch that may be absent, and the statements inside. -/
def nestedInBranch : Option (List Statement) → List Statement
  | none => []
  | some branch => nestedInAll branch

end

/-- The expressions of a statement, without those of the statements inside. -/
def expressions : Statement → List Expression
  | .conditional condition _ _ _ => [condition]
  | .loop _ iterable _ _ => [iterable]
  | .log message level _ => message :: level.toList
  | .alert message severity _ => message :: severity.toList
  | .notify target message data _ => target :: message :: data.toList
  | .assignment _ value _ => [value]
  | .call _ arguments _ => arguments

/-- The expressions of a statement.  The statement answers for them. -/
def ownSites (statement : Statement) : List Site :=
  statement.expressions.map (⟨statement.typeName, statement.location, ·⟩)

/-- The expressions of a statement and of the statements inside. -/
def sites (statement : Statement) : List Site :=
  statement.nested.flatMap ownSites

end Statement

/-- The expression of a property. -/
def PropertyItem.sites (item : PropertyItem) : List Site :=
  item.default.toList.map (⟨Gap.describe "property_declaration" item.name, item.location, ·⟩)

/-- The expressions of a sensor or an actuator. -/
def Device.sites (typeName : String) (device : Device) : List Site :=
  device.configuration.map fun entry =>
    ⟨Gap.describe typeName device.name, device.location, entry.value⟩

/-- The expressions of a reference to an action. -/
def ActionReference.sites (reference : ActionReference) : List Site :=
  reference.arguments.map
    (⟨Gap.describe "action_reference" reference.name, reference.location, ·⟩)

/-- The expression of a transition, which is described by the state that it leaves. -/
def Transition.sites (state : String) (transition : Transition) : List Site :=
  transition.condition.toList.map (⟨"transition in " ++ state, transition.location, ·⟩)

/-- The expressions of a state. -/
def StateItem.sites (state : StateItem) : List Site :=
  (state.entryActions ++ state.exitActions).flatMap ActionReference.sites ++
    state.transitions.flatMap
      (Transition.sites (Gap.describe "state_declaration" state.name))

/-- The expressions of a twin. -/
def Twin.sites (twin : Twin) : List Site :=
  twin.properties.flatMap PropertyItem.sites ++
    twin.sensors.flatMap (Device.sites "sensor_declaration") ++
    twin.actuators.flatMap (Device.sites "actuator_declaration") ++
    twin.states.flatMap StateItem.sites

/-- The expressions of a rule. -/
def Rule.sites (rule : Rule) : List Site :=
  rule.condition.toList.map (⟨Gap.describe "rule_declaration" rule.name, rule.location, ·⟩) ++
    rule.actions.flatMap Statement.sites

namespace Declaration

/-- The expressions of a declaration. -/
def sites : Declaration → List Site
  | .twin declared => declared.sites
  | .swarm _ | .event _ | .imported _ => []
  | .action declared => declared.body.flatMap Statement.sites
  | .rule declared => declared.sites

/-- The gap of a rule without actions, and that of an import whose path is blank. -/
def ownGaps : Declaration → List Gap
  | .rule declared =>
      if declared.actions = [] then
        [⟨Gap.describe "rule_declaration" declared.name, "actions", declared.location⟩]
      else []
  | .imported declared =>
      (declared.path.toList.filter Text.isBlankText).map fun _ =>
        ⟨Gap.describe "import_declaration" declared.name, "path", declared.location⟩
  | _ => []

end Declaration

/-! ## Trees without blank names -/

theorem Gap.ofText_eq_nil {text missing owner : String} {location : Location}
    (filled : Text.isBlankText text = false) : ofText text missing owner location = [] := by
  rw [ofText, filled]
  rfl

theorem Gap.ofText_eq_filter (text missing owner : String) (location : Location) :
    ofText text missing owner location =
      ([text].filter Text.isBlankText).map fun _ => ⟨owner, missing, location⟩ := by
  rw [ofText, List.filter_cons]
  split <;> rfl

namespace Expression

/-- The only gaps of the expression are those that blank keys of object literals leave. -/
def LacksOnlyKeys (expression : Expression) : Prop :=
  ∀ owner location, expression.gaps owner location = Site.keyGaps ⟨owner, location, expression⟩

/-- The gaps of several expressions are those that blank keys leave. -/
theorem gapsOfAll_eq_keyGaps {expressions : List Expression}
    (lackOnlyKeys : ∀ expression ∈ expressions, expression.LacksOnlyKeys) (owner : String)
    (location : Location) :
    gapsOfAll owner location expressions =
      expressions.flatMap fun expression => Site.keyGaps ⟨owner, location, expression⟩ := by
  induction expressions with
  | nil => rfl
  | cons first rest ih =>
      rw [List.forall_mem_cons] at lackOnlyKeys
      change first.gaps owner location ++ gapsOfAll owner location rest = _
      rw [lackOnlyKeys.1, ih lackOnlyKeys.2, List.flatMap_cons]

theorem gapsOfOptional_eq_keyGaps {expression : Option Expression}
    (lackOnlyKeys : ∀ present ∈ expression, present.LacksOnlyKeys) (owner : String)
    (location : Location) :
    gapsOfOptional owner location expression =
      expression.toList.flatMap fun present => Site.keyGaps ⟨owner, location, present⟩ := by
  cases expression with
  | none => rfl
  | some present => simp [gapsOfOptional, lackOnlyKeys present rfl owner location]

theorem objectKeysOfAll_eq_flatMap (expressions : List Expression) :
    objectKeysOfAll expressions = expressions.flatMap objectKeys := by
  induction expressions with
  | nil => rfl
  | cons first rest ih =>
      change first.objectKeys ++ objectKeysOfAll rest = _
      rw [ih, List.flatMap_cons]

/-- The keys of several expressions leave the gaps that they leave in each of them. -/
theorem keyGaps_ofAll (expressions : List Expression) (owner : String) (location : Location) :
    (expressions.flatMap fun expression => Site.keyGaps ⟨owner, location, expression⟩) =
      ((objectKeysOfAll expressions).filter Text.isBlankText).map fun _ =>
        ⟨owner, "object key", location⟩ := by
  rw [objectKeysOfAll_eq_flatMap, List.filter_flatMap, List.map_flatMap]
  rfl

namespace LacksOnlyKeys

theorem literal (value : Literal) : (Expression.literal value).LacksOnlyKeys :=
  fun _ _ => rfl

theorem reference {name : String} (filled : Text.isBlankText name = false) :
    (Expression.reference name).LacksOnlyKeys :=
  fun _ _ => Gap.ofText_eq_nil filled

theorem property {owner name : String} (ownerFilled : Text.isBlankText owner = false)
    (filled : Text.isBlankText name = false) : (Expression.property owner name).LacksOnlyKeys := by
  intro holder location
  change Gap.ofText owner _ _ _ ++ Gap.ofText name _ _ _ = []
  rw [Gap.ofText_eq_nil ownerFilled, Gap.ofText_eq_nil filled, List.append_nil]

theorem binary {left right : Expression} (operator : BinaryOperator)
    (ofLeft : left.LacksOnlyKeys) (ofRight : right.LacksOnlyKeys) :
    (Expression.binary operator left right).LacksOnlyKeys := by
  intro owner location
  change left.gaps owner location ++ right.gaps owner location =
    ((left.objectKeys ++ right.objectKeys).filter Text.isBlankText).map _
  rw [ofLeft, ofRight, List.filter_append, List.map_append]
  rfl

theorem unary {operand : Expression} (operator : UnaryOperator)
    (ofOperand : operand.LacksOnlyKeys) : (Expression.unary operator operand).LacksOnlyKeys :=
  fun owner location => ofOperand owner location

theorem grouping {inner : Expression} (ofInner : inner.LacksOnlyKeys) :
    (Expression.grouping inner).LacksOnlyKeys :=
  fun owner location => ofInner owner location

theorem array {elements : List Expression}
    (ofEach : ∀ element ∈ elements, element.LacksOnlyKeys) :
    (Expression.array elements).LacksOnlyKeys := by
  intro owner location
  change gapsOfAll owner location elements = _
  rw [gapsOfAll_eq_keyGaps ofEach, keyGaps_ofAll]
  rfl

theorem call {callee : String} {arguments : List Expression}
    (filled : Text.isBlankText callee = false)
    (ofEach : ∀ argument ∈ arguments, argument.LacksOnlyKeys) :
    (Expression.call callee arguments).LacksOnlyKeys := by
  intro owner location
  change Gap.ofText callee _ _ _ ++ gapsOfAll owner location arguments = _
  rw [Gap.ofText_eq_nil filled, gapsOfAll_eq_keyGaps ofEach, keyGaps_ofAll]
  rfl

theorem object {entries : List (Entry Expression)}
    (ofEach : ∀ entry ∈ entries, entry.value.LacksOnlyKeys) :
    (Expression.object entries).LacksOnlyKeys := by
  intro owner location
  change gapsOfEntries owner location entries =
    ((objectKeysOfEntries entries).filter Text.isBlankText).map fun _ =>
      ⟨owner, "object key", location⟩
  induction entries with
  | nil => rfl
  | cons first rest ih =>
      have keysEq : objectKeysOfEntries (first :: rest) =
          [first.key] ++ first.value.objectKeys ++ objectKeysOfEntries rest := rfl
      rw [List.forall_mem_cons] at ofEach
      change Gap.ofText first.key _ _ _ ++ first.value.gaps owner location ++
        gapsOfEntries owner location rest = _
      rw [ofEach.1, ih ofEach.2, Gap.ofText_eq_filter, keysEq, List.filter_append,
        List.filter_append, List.map_append, List.map_append]
      rfl

end LacksOnlyKeys

end Expression

namespace Statement

/-- The only gaps of the statement are those that blank keys of object literals leave. -/
def LacksOnlyKeys (statement : Statement) : Prop :=
  statement.gaps = statement.sites.flatMap Site.keyGaps

/-- The gaps of several statements are those that blank keys leave. -/
theorem gapsOfAll_eq_keyGaps {statements : List Statement}
    (lackOnlyKeys : ∀ statement ∈ statements, statement.LacksOnlyKeys) :
    gapsOfAll statements = (statements.flatMap sites).flatMap Site.keyGaps := by
  induction statements with
  | nil => rfl
  | cons first rest ih =>
      rw [List.forall_mem_cons] at lackOnlyKeys
      change first.gaps ++ gapsOfAll rest = _
      rw [lackOnlyKeys.1, ih lackOnlyKeys.2, List.flatMap_cons, List.flatMap_append]

theorem flatMap_nestedInAll (statements : List Statement) :
    (nestedInAll statements).flatMap ownSites = statements.flatMap sites := by
  induction statements with
  | nil => rfl
  | cons first rest ih =>
      change (first.nested ++ nestedInAll rest).flatMap ownSites = _
      rw [List.flatMap_append, ih, List.flatMap_cons]
      rfl

theorem flatMap_nestedInBranch (branch : Option (List Statement)) :
    (nestedInBranch branch).flatMap ownSites = (branch.getD []).flatMap sites := by
  cases branch with
  | none => rfl
  | some statements => exact flatMap_nestedInAll statements

theorem sites_conditional (condition : Expression) (thenBranch : List Statement)
    (elseBranch : Option (List Statement)) (location : Location) :
    (Statement.conditional condition thenBranch elseBranch location).sites =
      ⟨"if_statement", location, condition⟩ ::
        (thenBranch.flatMap sites ++ (elseBranch.getD []).flatMap sites) := by
  change ownSites _ ++ (nestedInAll thenBranch ++ nestedInBranch elseBranch).flatMap ownSites = _
  rw [List.flatMap_append, flatMap_nestedInAll, flatMap_nestedInBranch]
  rfl

theorem sites_loop (name : String) (iterable : Expression) (body : List Statement)
    (location : Location) :
    (Statement.loop name iterable body location).sites =
      ⟨"for_statement", location, iterable⟩ :: body.flatMap sites := by
  change ownSites _ ++ (nestedInAll body).flatMap ownSites = _
  rw [flatMap_nestedInAll]
  rfl

/-- A statement without a block has only expressions of its own. -/
theorem keyGaps_of_simple {statement : Statement} (isSimple : statement.nested = [statement]) :
    statement.sites.flatMap Site.keyGaps = statement.expressions.flatMap fun expression =>
      Site.keyGaps ⟨statement.typeName, statement.location, expression⟩ := by
  rw [sites, isSimple, List.flatMap_singleton, ownSites, List.flatMap_map]

namespace LacksOnlyKeys

variable {location : Location}

theorem conditional {condition : Expression} {thenBranch : List Statement}
    {elseBranch : Option (List Statement)} (ofCondition : condition.LacksOnlyKeys)
    (ofThen : ∀ statement ∈ thenBranch, statement.LacksOnlyKeys)
    (ofElse : ∀ statement ∈ elseBranch.getD [], statement.LacksOnlyKeys) :
    (Statement.conditional condition thenBranch elseBranch location).LacksOnlyKeys := by
  have branchEq : gapsOfBranch elseBranch = gapsOfAll (elseBranch.getD []) := by
    cases elseBranch <;> rfl
  change condition.gaps _ _ ++ gapsOfAll thenBranch ++ gapsOfBranch elseBranch = _
  rw [branchEq, ofCondition, gapsOfAll_eq_keyGaps ofThen, gapsOfAll_eq_keyGaps ofElse,
    sites_conditional, List.flatMap_cons, List.flatMap_append, List.append_assoc]

theorem loop {name : String} {iterable : Expression} {body : List Statement}
    (filled : Text.isBlankText name = false) (ofIterable : iterable.LacksOnlyKeys)
    (ofBody : ∀ statement ∈ body, statement.LacksOnlyKeys) :
    (Statement.loop name iterable body location).LacksOnlyKeys := by
  change Gap.ofText name _ _ _ ++ iterable.gaps _ _ ++ gapsOfAll body = _
  rw [Gap.ofText_eq_nil filled, ofIterable, gapsOfAll_eq_keyGaps ofBody, sites_loop,
    List.flatMap_cons]
  rfl

theorem log {message : Expression} {level : Option Expression}
    (ofMessage : message.LacksOnlyKeys) (ofLevel : ∀ present ∈ level, present.LacksOnlyKeys) :
    (Statement.log message level location).LacksOnlyKeys := by
  change message.gaps _ _ ++ Expression.gapsOfOptional _ _ level = _
  rw [keyGaps_of_simple rfl, ofMessage, Expression.gapsOfOptional_eq_keyGaps ofLevel]
  rfl

theorem alert {message : Expression} {severity : Option Expression}
    (ofMessage : message.LacksOnlyKeys)
    (ofSeverity : ∀ present ∈ severity, present.LacksOnlyKeys) :
    (Statement.alert message severity location).LacksOnlyKeys := by
  change message.gaps _ _ ++ Expression.gapsOfOptional _ _ severity = _
  rw [keyGaps_of_simple rfl, ofMessage, Expression.gapsOfOptional_eq_keyGaps ofSeverity]
  rfl

theorem notify {target message : Expression} {data : Option Expression}
    (ofTarget : target.LacksOnlyKeys) (ofMessage : message.LacksOnlyKeys)
    (ofData : ∀ present ∈ data, present.LacksOnlyKeys) :
    (Statement.notify target message data location).LacksOnlyKeys := by
  change target.gaps _ _ ++ message.gaps _ _ ++ Expression.gapsOfOptional _ _ data = _
  rw [keyGaps_of_simple rfl, ofTarget, ofMessage, Expression.gapsOfOptional_eq_keyGaps ofData,
    List.append_assoc]
  rfl

theorem assignment {target : String} {value : Expression}
    (filled : Text.isBlankText target = false) (ofValue : value.LacksOnlyKeys) :
    (Statement.assignment target value location).LacksOnlyKeys := by
  change Gap.ofText target _ _ _ ++ value.gaps _ _ = _
  rw [keyGaps_of_simple rfl, Gap.ofText_eq_nil filled, ofValue]
  exact (List.append_nil _).symm

theorem call {name : String} {arguments : List Expression}
    (filled : Text.isBlankText name = false)
    (ofEach : ∀ argument ∈ arguments, argument.LacksOnlyKeys) :
    (Statement.call name arguments location).LacksOnlyKeys := by
  change Gap.ofText name _ _ _ ++ Expression.gapsOfAll _ _ arguments = _
  rw [keyGaps_of_simple rfl, Gap.ofText_eq_nil filled, Expression.gapsOfAll_eq_keyGaps ofEach]
  rfl

end LacksOnlyKeys

end Statement

/-! ## Declarations without blank names -/

/-- Where each item has only the gaps that blank keys leave, so have all of them. -/
theorem flatMap_gaps_eq_keyGaps {α : Type} {items : List α} {gapsOf : α → List Gap}
    {sitesOf : α → List Site}
    (ofEach : ∀ item ∈ items, gapsOf item = (sitesOf item).flatMap Site.keyGaps) :
    items.flatMap gapsOf = (items.flatMap sitesOf).flatMap Site.keyGaps := by
  rw [List.flatMap_assoc]
  exact List.flatMap_congr ofEach

theorem PropertyItem.gaps_eq_keyGaps {item : PropertyItem}
    (nameFilled : Text.isBlankText item.name = false)
    (typeFilled : Text.isBlankText item.type = false)
    (ofDefault : ∀ present ∈ item.default, present.LacksOnlyKeys) :
    item.gaps = item.sites.flatMap Site.keyGaps := by
  simp only [gaps, sites, Gap.ofText_eq_nil nameFilled, Gap.ofText_eq_nil typeFilled,
    Expression.gapsOfOptional_eq_keyGaps ofDefault, List.flatMap_map, List.nil_append]

theorem Device.gaps_eq_keyGaps {device : Device} (typeName : String)
    (nameFilled : Text.isBlankText device.name = false)
    (typeFilled : Text.isBlankText device.type = false)
    (ofEach : ∀ entry ∈ device.configuration,
      Text.isBlankText entry.key = false ∧ entry.value.LacksOnlyKeys) :
    device.gaps typeName = (device.sites typeName).flatMap Site.keyGaps := by
  simp only [gaps, sites, Gap.ofText_eq_nil nameFilled, Gap.ofText_eq_nil typeFilled,
    List.flatMap_map, List.nil_append]
  apply List.flatMap_congr
  intro entry isEntry
  rcases ofEach entry isEntry with ⟨keyFilled, ofValue⟩
  rw [Entry.configurationGaps, Gap.ofText_eq_nil keyFilled, ofValue, List.nil_append]

theorem ActionReference.gaps_eq_keyGaps {reference : ActionReference}
    (nameFilled : Text.isBlankText reference.name = false)
    (ofEach : ∀ argument ∈ reference.arguments, argument.LacksOnlyKeys) :
    reference.gaps = reference.sites.flatMap Site.keyGaps := by
  simp only [gaps, sites, Gap.ofText_eq_nil nameFilled, Expression.gapsOfAll_eq_keyGaps ofEach,
    List.flatMap_map, List.nil_append]

theorem Transition.gaps_eq_keyGaps {transition : Transition} (state : String)
    (targetFilled : Text.isBlankText transition.target = false)
    (ofCondition : ∀ present ∈ transition.condition, present.LacksOnlyKeys) :
    transition.gaps state = (transition.sites state).flatMap Site.keyGaps := by
  simp only [gaps, sites, Gap.ofText_eq_nil targetFilled,
    Expression.gapsOfOptional_eq_keyGaps ofCondition, List.flatMap_map, List.nil_append]

theorem StateItem.gaps_eq_keyGaps {state : StateItem}
    (nameFilled : Text.isBlankText state.name = false)
    (ofReferences : ∀ reference ∈ state.entryActions ++ state.exitActions,
      reference.gaps = reference.sites.flatMap Site.keyGaps)
    (ofTransitions : ∀ transition ∈ state.transitions, ∀ owner,
      transition.gaps owner = (transition.sites owner).flatMap Site.keyGaps) :
    state.gaps = state.sites.flatMap Site.keyGaps := by
  simp only [gaps, sites, Gap.ofText_eq_nil nameFilled, List.nil_append, List.flatMap_append,
    flatMap_gaps_eq_keyGaps ofReferences,
    flatMap_gaps_eq_keyGaps fun transition isMember => ofTransitions transition isMember _]

/-- An absent name is not blank. -/
theorem Gap.ofOptionalText_eq_nil {text : Option String} {missing owner : String}
    {location : Location} (filled : ∀ present ∈ text, Text.isBlankText present = false) :
    ofOptionalText text missing owner location = [] := by
  cases text with
  | none => rfl
  | some present => exact ofText_eq_nil (filled present rfl)

theorem TwinReference.gaps_eq_nil {reference : TwinReference}
    (typeFilled : Text.isBlankText reference.type = false)
    (nameFilled : ∀ present ∈ reference.instanceName, Text.isBlankText present = false) :
    reference.gaps = [] := by
  simp only [gaps, Gap.ofText_eq_nil typeFilled, Gap.ofOptionalText_eq_nil nameFilled,
    List.nil_append]

theorem Parameter.gaps_eq_nil {parameter : Parameter}
    (nameFilled : Text.isBlankText parameter.name = false)
    (typeFilled : Text.isBlankText parameter.type = false) : parameter.gaps = [] := by
  simp only [gaps, Gap.ofText_eq_nil nameFilled, Gap.ofText_eq_nil typeFilled, List.nil_append]

namespace Declaration

/-- The only gaps of the declaration are those that blank keys of object literals leave, the
lack of actions and a blank path. -/
def LacksOnlyQuoted (declaration : Declaration) : Prop :=
  declaration.gaps = declaration.sites.flatMap Site.keyGaps ++ declaration.ownGaps

namespace LacksOnlyQuoted

theorem twin {declared : Twin} (nameFilled : Text.isBlankText declared.name = false)
    (parentFilled : ∀ present ∈ declared.parent, Text.isBlankText present = false)
    (ofProperties : ∀ item ∈ declared.properties, item.gaps = item.sites.flatMap Site.keyGaps)
    (ofSensors : ∀ device ∈ declared.sensors, device.gaps "sensor_declaration" =
      (device.sites "sensor_declaration").flatMap Site.keyGaps)
    (ofActuators : ∀ device ∈ declared.actuators, device.gaps "actuator_declaration" =
      (device.sites "actuator_declaration").flatMap Site.keyGaps)
    (ofStates : ∀ state ∈ declared.states, state.gaps = state.sites.flatMap Site.keyGaps) :
    (Declaration.twin declared).LacksOnlyQuoted := by
  change Gap.ofText declared.name _ _ _ ++ declared.gaps _ =
    declared.sites.flatMap Site.keyGaps ++ []
  simp only [Twin.gaps, Twin.sites, Gap.ofText_eq_nil nameFilled,
    Gap.ofOptionalText_eq_nil parentFilled, flatMap_gaps_eq_keyGaps ofProperties,
    flatMap_gaps_eq_keyGaps ofSensors, flatMap_gaps_eq_keyGaps ofActuators,
    flatMap_gaps_eq_keyGaps ofStates, List.flatMap_append, List.nil_append, List.append_nil]

theorem swarm {declared : Swarm} (nameFilled : Text.isBlankText declared.name = false)
    (ofTwins : ∀ reference ∈ declared.twins, reference.gaps = [])
    (ofRules : ∀ reference ∈ declared.rules, Text.isBlankText reference.name = false) :
    (Declaration.swarm declared).LacksOnlyQuoted := by
  have rulesFilled : ∀ reference ∈ declared.rules, reference.gaps = [] :=
    fun reference isMember => Gap.ofText_eq_nil (ofRules reference isMember)
  change Gap.ofText declared.name _ _ _ ++
    (declared.twins.flatMap TwinReference.gaps ++ declared.rules.flatMap RuleReference.gaps) = []
  simp only [Gap.ofText_eq_nil nameFilled, List.flatMap_eq_nil_iff.mpr ofTwins,
    List.flatMap_eq_nil_iff.mpr rulesFilled, List.append_nil]

theorem event {declared : Event} (nameFilled : Text.isBlankText declared.name = false)
    (ofParameters : ∀ parameter ∈ declared.parameters, parameter.gaps = []) :
    (Declaration.event declared).LacksOnlyQuoted := by
  change Gap.ofText declared.name _ _ _ ++ declared.parameters.flatMap Parameter.gaps = []
  simp only [Gap.ofText_eq_nil nameFilled, List.flatMap_eq_nil_iff.mpr ofParameters,
    List.append_nil]

theorem action {declared : Action} (nameFilled : Text.isBlankText declared.name = false)
    (ofParameters : ∀ parameter ∈ declared.parameters, parameter.gaps = [])
    (ofBody : ∀ statement ∈ declared.body, statement.LacksOnlyKeys) :
    (Declaration.action declared).LacksOnlyQuoted := by
  change Gap.ofText declared.name _ _ _ ++
      (declared.parameters.flatMap Parameter.gaps ++ Statement.gapsOfAll declared.body) =
    (declared.body.flatMap Statement.sites).flatMap Site.keyGaps ++ []
  simp only [Gap.ofText_eq_nil nameFilled, List.flatMap_eq_nil_iff.mpr ofParameters,
    Statement.gapsOfAll_eq_keyGaps ofBody, List.nil_append, List.append_nil]

theorem rule {declared : Rule} {condition : Expression}
    (nameFilled : Text.isBlankText declared.name = false)
    (hasCondition : declared.condition = some condition) (ofCondition : condition.LacksOnlyKeys)
    (ofActions : ∀ statement ∈ declared.actions, statement.LacksOnlyKeys) :
    (Declaration.rule declared).LacksOnlyQuoted := by
  change Gap.ofText declared.name _ _ _ ++
      declared.gaps (Gap.describe "rule_declaration" declared.name) =
    declared.sites.flatMap Site.keyGaps ++ if declared.actions = [] then _ else []
  simp only [Rule.gaps, Rule.sites, Rule.conditionGaps, Gap.ofText_eq_nil nameFilled, hasCondition,
    ofCondition _ _, Statement.gapsOfAll_eq_keyGaps ofActions, Option.toList_some, List.map_cons,
    List.map_nil, List.flatMap_append, List.flatMap_singleton, List.nil_append]
  -- A rule without actions has no statements whose keys could follow.
  by_cases idle : declared.actions = []
  · simp [idle]
  · simp [idle]

theorem imported {declared : Import} (nameFilled : Text.isBlankText declared.name = false) :
    (Declaration.imported declared).LacksOnlyQuoted := by
  change Gap.ofText declared.name _ _ _ ++ Gap.ofOptionalText declared.path "path" _ _ =
    (declared.path.toList.filter Text.isBlankText).map fun _ => _
  rw [Gap.ofText_eq_nil nameFilled, List.nil_append]
  cases declared.path with
  | none => rfl
  | some path => exact Gap.ofText_eq_filter ..

end LacksOnlyQuoted

end Declaration

end TwinSwarm
