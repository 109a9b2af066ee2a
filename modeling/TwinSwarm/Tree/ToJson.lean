import TwinSwarm.Json.Printer
import TwinSwarm.Settings

/-!
# Trees as JSON documents

Each node is an object that begins with the name of its kind, followed by its parts in
a fixed order.  Entries and locations have no kind.  Absent parts are written as null,
so every node of a kind has the same members.
-/

namespace TwinSwarm

/-- A node: the name of its kind, then its parts. -/
def Json.node (typeName : String) (parts : List (Entry Json)) : Json :=
  .object (⟨"type", .string typeName⟩ :: parts)

/-- A text that may be absent. -/
def Json.ofOptionalText (text : Option String) : Json :=
  .ofOption (text.map .string)

namespace Location

/-- A location as a document. -/
def toJson (location : Location) : Json :=
  .object [⟨"line", .integer location.line⟩, ⟨"column", .integer location.column⟩]

/-- A location as a part of a node. -/
def member (location : Location) : Entry Json := ⟨"location", location.toJson⟩

end Location

/-- The value of a literal as a document. -/
def Literal.toJson : Literal → Json
  | .null => .null
  | .boolean value => .boolean value
  | .integer value => .integer value.toInt
  | .decimal value => .float value
  | .string value => .string value

/-- A binary operator as a document. -/
def BinaryOperator.toJson (operator : BinaryOperator) : Json := .string operator.symbol

/-- A unary operator as a document. -/
def UnaryOperator.toJson (operator : UnaryOperator) : Json := .string operator.symbol

namespace Expression

mutual

/-- An expression as a document. -/
def toJson : Expression → Json
  | .binary operator left right => .node "binary_expression"
      [⟨"operator", operator.toJson⟩, ⟨"left", toJson left⟩, ⟨"right", toJson right⟩]
  | .unary operator operand => .node "unary_expression"
      [⟨"operator", operator.toJson⟩, ⟨"operand", toJson operand⟩]
  | .literal value => .node "literal" [⟨"value", value.toJson⟩]
  | .grouping inner => .node "grouping" [⟨"expression", toJson inner⟩]
  | .array elements => .node "array_literal" [⟨"elements", .array (allToJson elements)⟩]
  | .object entries => .node "object_literal" [⟨"entries", .array (entriesToJson entries)⟩]
  | .reference name => .node "variable_reference" [⟨"name", .string name⟩]
  | .call callee arguments => .node "call_expression"
      [⟨"callee", .string callee⟩, ⟨"arguments", .array (allToJson arguments)⟩]
  | .property owner name => .node "property_access"
      [⟨"object", .string owner⟩, ⟨"property", .string name⟩]

/-- Several expressions as documents. -/
def allToJson : List Expression → List Json
  | [] => []
  | first :: rest => toJson first :: allToJson rest

/-- The entries of an object literal as documents. -/
def entriesToJson : List (Entry Expression) → List Json
  | [] => []
  | ⟨key, value⟩ :: rest =>
      .object [⟨"key", .string key⟩, ⟨"value", toJson value⟩] :: entriesToJson rest

end

theorem allToJson_eq_map (expressions : List Expression) :
    allToJson expressions = expressions.map toJson := by
  induction expressions with
  | nil => rfl
  | cons first rest ih => simp [allToJson, ih]

/-- An expression that may be absent, as a document. -/
def optionalToJson : Option Expression → Json
  | some expression => toJson expression
  | none => .null

end Expression

namespace Statement

mutual

/-- A statement as a document. -/
def toJson : Statement → Json
  | .conditional condition thenBranch elseBranch location => .node "if_statement"
      [⟨"condition", condition.toJson⟩, ⟨"then_branch", .array (allToJson thenBranch)⟩,
        ⟨"else_branch", branchToJson elseBranch⟩, location.member]
  | .loop name iterable body location => .node "for_statement"
      [⟨"variable", .string name⟩, ⟨"iterable", iterable.toJson⟩,
        ⟨"body", .array (allToJson body)⟩, location.member]
  | .log message level location => .node "log_statement"
      [⟨"message", message.toJson⟩, ⟨"level", Expression.optionalToJson level⟩,
        location.member]
  | .alert message severity location => .node "alert_statement"
      [⟨"message", message.toJson⟩, ⟨"severity", Expression.optionalToJson severity⟩,
        location.member]
  | .notify target message data location => .node "notify_statement"
      [⟨"target", target.toJson⟩, ⟨"message", message.toJson⟩,
        ⟨"data", Expression.optionalToJson data⟩, location.member]
  | .assignment target value location => .node "assignment"
      [⟨"target", .string target⟩, ⟨"value", value.toJson⟩, location.member]
  | .call name arguments location => .node "function_call"
      [⟨"name", .string name⟩, ⟨"arguments", .array (arguments.map Expression.toJson)⟩,
        location.member]

/-- Several statements as documents. -/
def allToJson : List Statement → List Json
  | [] => []
  | first :: rest => toJson first :: allToJson rest

/-- A branch that may be absent, as a document. -/
def branchToJson : Option (List Statement) → Json
  | none => .null
  | some branch => .array (allToJson branch)

end

theorem allToJson_eq_map (statements : List Statement) :
    allToJson statements = statements.map toJson := by
  induction statements with
  | nil => rfl
  | cons first rest ih => simp [allToJson, ih]

end Statement

/-- A setting as a document. -/
def Entry.settingToJson (entry : Entry Expression) : Json :=
  .object [⟨"key", .string entry.key⟩, ⟨"value", entry.value.toJson⟩]

/-- A property as a document. -/
def PropertyItem.toJson (item : PropertyItem) : Json := .node "property_declaration"
  [⟨"name", .string item.name⟩, ⟨"property_type", .string item.type⟩,
    ⟨"default_value", Expression.optionalToJson item.default⟩, item.location.member]

/-- A sensor as a document. -/
def Device.sensorToJson (sensor : Device) : Json := .node "sensor_declaration"
  [⟨"name", .string sensor.name⟩, ⟨"sensor_type", .string sensor.type⟩,
    ⟨"config", .array (sensor.configuration.map Entry.settingToJson)⟩, sensor.location.member]

/-- An actuator as a document. -/
def Device.actuatorToJson (actuator : Device) : Json := .node "actuator_declaration"
  [⟨"name", .string actuator.name⟩, ⟨"actuator_type", .string actuator.type⟩,
    ⟨"config", .array (actuator.configuration.map Entry.settingToJson)⟩,
    actuator.location.member]

/-- A reference to an action as a document. -/
def ActionReference.toJson (reference : ActionReference) : Json := .node "action_reference"
  [⟨"name", .string reference.name⟩,
    ⟨"arguments", .array (reference.arguments.map Expression.toJson)⟩,
    reference.location.member]

/-- A transition as a document. -/
def Transition.toJson (transition : Transition) : Json := .node "transition"
  [⟨"target", .string transition.target⟩,
    ⟨"condition", Expression.optionalToJson transition.condition⟩, transition.location.member]

/-- A state as a document. -/
def StateItem.toJson (state : StateItem) : Json := .node "state_declaration"
  [⟨"name", .string state.name⟩,
    ⟨"entry_actions", .array (state.entryActions.map ActionReference.toJson)⟩,
    ⟨"exit_actions", .array (state.exitActions.map ActionReference.toJson)⟩,
    ⟨"transitions", .array (state.transitions.map Transition.toJson)⟩, state.location.member]

/-- A reference to a twin as a document. -/
def TwinReference.toJson (reference : TwinReference) : Json := .node "twin_reference"
  [⟨"twin_type", .string reference.type⟩,
    ⟨"instance_name", .ofOptionalText reference.instanceName⟩,
    ⟨"count", .ofOption (reference.count.map fun count => .integer count.toInt)⟩,
    reference.location.member]

/-- A reference to a rule as a document. -/
def RuleReference.toJson (reference : RuleReference) : Json := .node "rule_reference"
  [⟨"name", .string reference.name⟩, reference.location.member]

/-- A parameter as a document. -/
def Parameter.toJson (parameter : Parameter) : Json := .node "parameter"
  [⟨"name", .string parameter.name⟩, ⟨"parameter_type", .string parameter.type⟩,
    parameter.location.member]

/-- The parts of a declaration. -/
def Declaration.members : Declaration → List (Entry Json)
  | .twin declared =>
      [⟨"name", .string declared.name⟩, ⟨"parent", .ofOptionalText declared.parent⟩,
        ⟨"properties", .array (declared.properties.map PropertyItem.toJson)⟩,
        ⟨"sensors", .array (declared.sensors.map Device.sensorToJson)⟩,
        ⟨"actuators", .array (declared.actuators.map Device.actuatorToJson)⟩,
        ⟨"states", .array (declared.states.map StateItem.toJson)⟩, declared.location.member]
  | .swarm declared =>
      [⟨"name", .string declared.name⟩,
        ⟨"twins", .array (declared.twins.map TwinReference.toJson)⟩,
        ⟨"rules", .array (declared.rules.map RuleReference.toJson)⟩, declared.location.member]
  | .event declared =>
      [⟨"name", .string declared.name⟩,
        ⟨"parameters", .array (declared.parameters.map Parameter.toJson)⟩,
        declared.location.member]
  | .action declared =>
      [⟨"name", .string declared.name⟩,
        ⟨"parameters", .array (declared.parameters.map Parameter.toJson)⟩,
        ⟨"body", .array (declared.body.map Statement.toJson)⟩, declared.location.member]
  | .rule declared =>
      [⟨"name", .string declared.name⟩,
        ⟨"condition", Expression.optionalToJson declared.condition⟩,
        ⟨"actions", .array (declared.actions.map Statement.toJson)⟩, declared.location.member]
  | .imported declared =>
      [⟨"name", .string declared.name⟩, ⟨"path", .ofOptionalText declared.path⟩,
        declared.location.member]

/-- A declaration as a document. -/
def Declaration.toJson (declaration : Declaration) : Json :=
  .node declaration.typeName declaration.members

namespace Program

/-- A program as a document. -/
def toJson (program : Program) : Json :=
  .node "program" [⟨"declarations", .array (program.declarations.map Declaration.toJson)⟩]

/-- The text of the document of a program. -/
def jsonText (program : Program) : String := program.toJson.text

end Program

/-- Settings as a document. -/
def Settings.toJson (settings : Settings) : Json := .object
  [⟨"max_nesting_depth", .integer settings.maxNestingDepth⟩,
    ⟨"context_radius", .integer settings.contextRadius⟩,
    ⟨"validate", .boolean settings.validate⟩]

/-- The kind of a diagnostic as a document. -/
def Diagnostic.Kind.toJson (kind : Diagnostic.Kind) : Json := .string kind.name

/-- A diagnostic as a document. -/
def Diagnostic.toJson (diagnostic : Diagnostic) : Json := .object
  [⟨"kind", diagnostic.kind.toJson⟩, ⟨"message", .string diagnostic.message⟩,
    ⟨"line", .integer diagnostic.location.line⟩,
    ⟨"column", .integer diagnostic.location.column⟩,
    ⟨"context", .string diagnostic.context⟩]

end TwinSwarm
