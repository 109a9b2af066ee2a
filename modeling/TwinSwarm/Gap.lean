import TwinSwarm.Diagnostic
import TwinSwarm.Text.Blank
import TwinSwarm.Tree.Program

/-!
# Gaps in trees

A tree may lack what the language requires: a name that is blank, a rule without a
condition.  A tree that was read from a source text has few such gaps, but one that
was built by hand may have any.  The whole tree is walked, each node before its parts,
and every gap is listed once.
-/

namespace TwinSwarm

/-- Something that a node requires and lacks.  The owner is described in words; the
place is that of the nearest enclosing node that has one. -/
structure Gap where
  owner : String
  missing : String
  location : Location
  deriving Repr, DecidableEq, Inhabited

namespace Gap

/-- The gap as it is reported. -/
def diagnostic (gap : Gap) : Diagnostic :=
  { kind := .semantic
    message := gap.owner ++ " missing " ++ gap.missing
    location := gap.location
    context := gap.owner }

/-- The gap that a blank text leaves. -/
def ofText (text missing owner : String) (location : Location) : List Gap :=
  if Text.isBlankText text then [⟨owner, missing, location⟩] else []

/-- The gap that a blank text leaves; an absent text leaves none. -/
def ofOptionalText (text : Option String) (missing owner : String) (location : Location) :
    List Gap :=
  match text with
  | some text => ofText text missing owner location
  | none => []

/-- A node in words: its kind and, unless that is blank, its name. -/
def describe (typeName name : String) : String :=
  if Text.isBlankText name then typeName else typeName ++ " '" ++ name ++ "'"

end Gap

namespace Expression

mutual

/-- The gaps of an expression, reported for the owner that encloses it. -/
def gaps (owner : String) (location : Location) : Expression → List Gap
  | .binary _ left right => gaps owner location left ++ gaps owner location right
  | .unary _ operand => gaps owner location operand
  | .literal _ => []
  | .grouping inner => gaps owner location inner
  | .array elements => gapsOfAll owner location elements
  | .object entries => gapsOfEntries owner location entries
  | .reference name => Gap.ofText name "variable name" owner location
  | .call callee arguments =>
      Gap.ofText callee "callee name" owner location ++ gapsOfAll owner location arguments
  | .property holder name =>
      Gap.ofText holder "object name" owner location ++
        Gap.ofText name "property name" owner location

/-- The gaps of several expressions. -/
def gapsOfAll (owner : String) (location : Location) : List Expression → List Gap
  | [] => []
  | first :: rest => gaps owner location first ++ gapsOfAll owner location rest

/-- The gaps of the entries of an object literal. -/
def gapsOfEntries (owner : String) (location : Location) :
    List (Entry Expression) → List Gap
  | [] => []
  | ⟨key, value⟩ :: rest =>
      Gap.ofText key "object key" owner location ++ gaps owner location value ++
        gapsOfEntries owner location rest

end

/-- The gaps of an expression that may be absent. -/
def gapsOfOptional (owner : String) (location : Location) : Option Expression → List Gap
  | some expression => gaps owner location expression
  | none => []

end Expression

namespace Statement

mutual

/-- The gaps of a statement. -/
def gaps : Statement → List Gap
  | .conditional condition thenBranch elseBranch location =>
      condition.gaps "if_statement" location ++ gapsOfAll thenBranch ++ gapsOfBranch elseBranch
  | .loop name iterable body location =>
      Gap.ofText name "loop variable" "for_statement" location ++
        iterable.gaps "for_statement" location ++ gapsOfAll body
  | .log message level location =>
      message.gaps "log_statement" location ++
        Expression.gapsOfOptional "log_statement" location level
  | .alert message severity location =>
      message.gaps "alert_statement" location ++
        Expression.gapsOfOptional "alert_statement" location severity
  | .notify target message data location =>
      target.gaps "notify_statement" location ++ message.gaps "notify_statement" location ++
        Expression.gapsOfOptional "notify_statement" location data
  | .assignment target value location =>
      Gap.ofText target "target" "assignment" location ++ value.gaps "assignment" location
  | .call name arguments location =>
      Gap.ofText name "name" "function_call" location ++
        Expression.gapsOfAll "function_call" location arguments

/-- The gaps of several statements. -/
def gapsOfAll : List Statement → List Gap
  | [] => []
  | first :: rest => gaps first ++ gapsOfAll rest

/-- The gaps of a branch that may be absent. -/
def gapsOfBranch : Option (List Statement) → List Gap
  | none => []
  | some branch => gapsOfAll branch

end

end Statement

/-- The gaps of a configuration, reported for the device that has it. -/
def Entry.configurationGaps (owner : String) (location : Location)
    (entry : Entry Expression) : List Gap :=
  Gap.ofText entry.key "configuration key" owner location ++ entry.value.gaps owner location

/-- The gaps of a property. -/
def PropertyItem.gaps (item : PropertyItem) : List Gap :=
  let owner := Gap.describe "property_declaration" item.name
  Gap.ofText item.name "name" owner item.location ++
    Gap.ofText item.type "type" owner item.location ++
    Expression.gapsOfOptional owner item.location item.default

/-- The gaps of a sensor or an actuator. -/
def Device.gaps (typeName : String) (device : Device) : List Gap :=
  let owner := Gap.describe typeName device.name
  Gap.ofText device.name "name" owner device.location ++
    Gap.ofText device.type "type" owner device.location ++
    device.configuration.flatMap (Entry.configurationGaps owner device.location)

/-- The gaps of a reference to an action. -/
def ActionReference.gaps (reference : ActionReference) : List Gap :=
  let owner := Gap.describe "action_reference" reference.name
  Gap.ofText reference.name "name" owner reference.location ++
    Expression.gapsOfAll owner reference.location reference.arguments

/-- The gaps of a transition, which is described by the state that it leaves. -/
def Transition.gaps (state : String) (transition : Transition) : List Gap :=
  let owner := "transition in " ++ state
  Gap.ofText transition.target "target" owner transition.location ++
    Expression.gapsOfOptional owner transition.location transition.condition

/-- The gaps of a state. -/
def StateItem.gaps (state : StateItem) : List Gap :=
  let owner := Gap.describe "state_declaration" state.name
  Gap.ofText state.name "name" owner state.location ++
    (state.entryActions ++ state.exitActions).flatMap ActionReference.gaps ++
    state.transitions.flatMap (Transition.gaps owner)

/-- The gaps inside a twin. -/
def Twin.gaps (owner : String) (twin : Twin) : List Gap :=
  Gap.ofOptionalText twin.parent "parent name" owner twin.location ++
    twin.properties.flatMap PropertyItem.gaps ++
    twin.sensors.flatMap (Device.gaps "sensor_declaration") ++
    twin.actuators.flatMap (Device.gaps "actuator_declaration") ++
    twin.states.flatMap StateItem.gaps

/-- The gaps of a twin of a swarm. -/
def TwinReference.gaps (reference : TwinReference) : List Gap :=
  let owner := Gap.describe "twin_reference" reference.type
  Gap.ofText reference.type "twin type" owner reference.location ++
    Gap.ofOptionalText reference.instanceName "instance name" owner reference.location

/-- The gaps of a rule of a swarm. -/
def RuleReference.gaps (reference : RuleReference) : List Gap :=
  Gap.ofText reference.name "name" "rule_reference" reference.location

/-- The gaps inside a swarm. -/
def Swarm.gaps (swarm : Swarm) : List Gap :=
  swarm.twins.flatMap TwinReference.gaps ++ swarm.rules.flatMap RuleReference.gaps

/-- The gaps of a parameter. -/
def Parameter.gaps (parameter : Parameter) : List Gap :=
  let owner := Gap.describe "parameter" parameter.name
  Gap.ofText parameter.name "name" owner parameter.location ++
    Gap.ofText parameter.type "parameter_type" owner parameter.location

/-- The gaps inside an action. -/
def Action.gaps (action : Action) : List Gap :=
  action.parameters.flatMap Parameter.gaps ++ Statement.gapsOfAll action.body

/-- The gap that a rule without a condition has, or the gaps of its condition. -/
def Rule.conditionGaps (owner : String) (rule : Rule) : List Gap :=
  match rule.condition with
  | some condition => condition.gaps owner rule.location
  | none => [⟨owner, "condition", rule.location⟩]

/-- The gaps inside a rule. -/
def Rule.gaps (owner : String) (rule : Rule) : List Gap :=
  rule.conditionGaps owner ++
    (if rule.actions = [] then [⟨owner, "actions", rule.location⟩] else []) ++
    Statement.gapsOfAll rule.actions

/-- The gaps inside an import. -/
def Import.gaps (owner : String) (imported : Import) : List Gap :=
  Gap.ofOptionalText imported.path "path" owner imported.location

/-- The gaps of a declaration. -/
def Declaration.gaps (declaration : Declaration) : List Gap :=
  let owner := Gap.describe declaration.typeName declaration.name
  Gap.ofText declaration.name "name" owner declaration.location ++
    match declaration with
    | .twin declared => declared.gaps owner
    | .swarm declared => declared.gaps
    | .event declared => declared.parameters.flatMap Parameter.gaps
    | .action declared => declared.gaps
    | .rule declared => declared.gaps owner
    | .imported declared => declared.gaps owner

namespace Program

/-- Every gap of a program. -/
def gaps (program : Program) : List Gap :=
  program.declarations.flatMap Declaration.gaps

/-- Every gap of a program, as it is reported. -/
def validate (program : Program) : List Diagnostic :=
  program.gaps.map Gap.diagnostic

end Program

end TwinSwarm
