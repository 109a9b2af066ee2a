import TwinSwarm.Gap
import TwinSwarm.Json.Decoder
import TwinSwarm.Tree.ToJson

/-!
# Trees from JSON documents

How each kind of node is read back from a document.  Members may stand in any order,
members that a node does not know are ignored, optional parts may be missing or null,
and a missing location counts as no place.  Declarations, statements and expressions
have to name their kind; the kind that other nodes name is not looked at.
-/

namespace TwinSwarm

open Json (Buffered Cause Fields Medium Variant)

variable {D : Type → Type} [Medium D]

/-- The names of kinds, as entries for a choice. -/
def Json.namesOf {α : Type} (name : α → String) (values : List α) : List (Entry α) :=
  values.map fun value => ⟨name value, value⟩

namespace Location

/-- A location in a document. -/
def decoder : D Location :=
  Medium.record "struct SourceLocation"
    (.required "line" Medium.natural <| .required "column" Medium.natural .nil)
    fun (line, column, ()) => ⟨line, column⟩

/-- The location of a node, which is its last field. -/
def field : Fields D [Location] := .defaulted "location" .nowhere decoder .nil

end Location

namespace Literal

/-- The literal that a value stands for.  A whole number that does not fit 64 bits with a
sign is a decimal. -/
def ofJson : Json → Except Cause Literal
  | .null => .ok .null
  | .boolean value => .ok (.boolean value)
  | .integer value =>
      if TwinSwarm.Numeral.isWord value then .ok (.integer (Int64.ofInt value))
      else
        match Double.ofNat? value.natAbs with
        | some magnitude => .ok (.decimal (Json.Numeral.withSign (value < 0) magnitude))
        | none => .error .noLiteral
  | .float value => .ok (.decimal value)
  | .string value => .ok (.string value)
  | .array _ | .object _ => .error .noLiteral

/-- The value of a literal in a document. -/
def decoder : D Literal := Medium.whole ofJson

end Literal

/-- A binary operator in a document. -/
def BinaryOperator.decoder : D BinaryOperator :=
  Medium.choice (Json.namesOf BinaryOperator.symbol BinaryOperator.all)

/-- A unary operator in a document. -/
def UnaryOperator.decoder : D UnaryOperator :=
  Medium.choice (Json.namesOf UnaryOperator.symbol UnaryOperator.all)

/-- An entry in a document. -/
def Entry.decoder (description : String) (value : D Expression) : D (Entry Expression) :=
  Medium.record description
    (.required "key" Medium.string <| .required "value" value .nil)
    fun (key, value, ()) => ⟨key, value⟩

namespace Expression

/-- The kinds of expressions, given how the expressions inside are decoded. -/
def variants (inner : Buffered Expression) : List (Variant Expression) :=
  [⟨"binary_expression", Medium.record "struct variant Expression::Binary"
      (.required "operator" BinaryOperator.decoder <| .required "left" inner <|
        .required "right" inner .nil)
      fun (operator, left, right, ()) => .binary operator left right⟩,
    ⟨"unary_expression", Medium.record "struct variant Expression::Unary"
      (.required "operator" UnaryOperator.decoder <| .required "operand" inner .nil)
      fun (operator, operand, ()) => .unary operator operand⟩,
    ⟨"literal", Medium.record "struct variant Expression::Literal"
      (.required "value" Literal.decoder .nil)
      fun (value, ()) => .literal value⟩,
    ⟨"grouping", Medium.record "struct variant Expression::Grouping"
      (.required "expression" inner .nil)
      fun (expression, ()) => .grouping expression⟩,
    ⟨"array_literal", Medium.record "struct variant Expression::ArrayLiteral"
      (.required "elements" (Medium.list inner) .nil)
      fun (elements, ()) => .array elements⟩,
    ⟨"object_literal", Medium.record "struct variant Expression::ObjectLiteral"
      (.required "entries" (Medium.list (Entry.decoder "struct ObjectEntry" inner)) .nil)
      fun (entries, ()) => .object entries⟩,
    ⟨"variable_reference", Medium.record "struct variant Expression::VariableReference"
      (.required "name" Medium.string .nil)
      fun (name, ()) => .reference name⟩,
    ⟨"call_expression", Medium.record "struct variant Expression::Call"
      (.required "callee" Medium.string <| .required "arguments" (Medium.list inner) .nil)
      fun (callee, arguments, ()) => .call callee arguments⟩,
    ⟨"property_access", Medium.record "struct variant Expression::PropertyAccess"
      (.required "object" Medium.string <| .required "property" Medium.string .nil)
      fun (owner, name, ()) => .property owner name⟩]

/-- What a document is called where an expression is wanted. -/
def description : String := "Expression"

/-- The expression that a value of bounded height describes. -/
def ofJsonWithin : (height : Nat) → Buffered Expression
  | 0 => fun _ => .error .nestedTooDeeply
  | height + 1 => Medium.node description (variants (ofJsonWithin height))

/-- The expression that a value describes. -/
def ofJson : Buffered Expression := fun value => ofJsonWithin value.height value

/-- An expression in a document. -/
def decoder : D Expression := Medium.node description (variants ofJson)

end Expression

namespace Statement

/-- The kinds of statements, given how the statements inside are decoded. -/
def variants (inner : Buffered Statement) : List (Variant Statement) :=
  [⟨"if_statement", Medium.record "struct variant Statement::If"
      (.required "condition" Expression.decoder <|
        .required "then_branch" (Medium.list inner) <|
        .nullable "else_branch" (Medium.list inner) Location.field)
      fun (condition, thenBranch, elseBranch, location, ()) =>
        .conditional condition thenBranch elseBranch location⟩,
    ⟨"for_statement", Medium.record "struct variant Statement::For"
      (.required "variable" Medium.string <| .required "iterable" Expression.decoder <|
        .required "body" (Medium.list inner) Location.field)
      fun (name, iterable, body, location, ()) => .loop name iterable body location⟩,
    ⟨"log_statement", Medium.record "struct variant Statement::Log"
      (.required "message" Expression.decoder <|
        .nullable "level" Expression.decoder Location.field)
      fun (message, level, location, ()) => .log message level location⟩,
    ⟨"alert_statement", Medium.record "struct variant Statement::Alert"
      (.required "message" Expression.decoder <|
        .nullable "severity" Expression.decoder Location.field)
      fun (message, severity, location, ()) => .alert message severity location⟩,
    ⟨"notify_statement", Medium.record "struct variant Statement::Notify"
      (.required "target" Expression.decoder <| .required "message" Expression.decoder <|
        .nullable "data" Expression.decoder Location.field)
      fun (target, message, data, location, ()) => .notify target message data location⟩,
    ⟨"assignment", Medium.record "struct variant Statement::Assignment"
      (.required "target" Medium.string <| .required "value" Expression.decoder Location.field)
      fun (target, value, location, ()) => .assignment target value location⟩,
    ⟨"function_call", Medium.record "struct variant Statement::FunctionCall"
      (.required "name" Medium.string <|
        .required "arguments" (Medium.list Expression.decoder) Location.field)
      fun (name, arguments, location, ()) => .call name arguments location⟩]

/-- What a document is called where a statement is wanted. -/
def description : String := "Statement"

/-- The statement that a value of bounded height describes. -/
def ofJsonWithin : (height : Nat) → Buffered Statement
  | 0 => fun _ => .error .nestedTooDeeply
  | height + 1 => Medium.node description (variants (ofJsonWithin height))

/-- The statement that a value describes. -/
def ofJson : Buffered Statement := fun value => ofJsonWithin value.height value

/-- A statement in a document. -/
def decoder : D Statement := Medium.node description (variants ofJson)

end Statement

/-- A property in a document. -/
def PropertyItem.decoder : D PropertyItem :=
  Medium.record "struct PropertyDeclaration"
    (.required "name" Medium.string <| .required "property_type" Medium.string <|
      .nullable "default_value" Expression.decoder Location.field)
    fun (name, type, value, location, ()) => ⟨name, type, value, location⟩

/-- The configuration of a device in a document. -/
def Device.configurationDecoder : D (List (Entry Expression)) :=
  Medium.list (Entry.decoder "struct ConfigEntry" Expression.decoder)

/-- A sensor in a document. -/
def Device.sensorDecoder : D Device :=
  Medium.record "struct SensorDeclaration"
    (.required "name" Medium.string <| .required "sensor_type" Medium.string <|
      .required "config" Device.configurationDecoder Location.field)
    fun (name, type, configuration, location, ()) => ⟨name, type, configuration, location⟩

/-- An actuator in a document. -/
def Device.actuatorDecoder : D Device :=
  Medium.record "struct ActuatorDeclaration"
    (.required "name" Medium.string <| .required "actuator_type" Medium.string <|
      .required "config" Device.configurationDecoder Location.field)
    fun (name, type, configuration, location, ()) => ⟨name, type, configuration, location⟩

/-- A reference to an action in a document. -/
def ActionReference.decoder : D ActionReference :=
  Medium.record "struct ActionReference"
    (.required "name" Medium.string <|
      .defaulted "arguments" [] (Medium.list Expression.decoder) Location.field)
    fun (name, arguments, location, ()) => ⟨name, arguments, location⟩

/-- A transition in a document. -/
def Transition.decoder : D Transition :=
  Medium.record "struct Transition"
    (.required "target" Medium.string <|
      .nullable "condition" Expression.decoder Location.field)
    fun (target, condition, location, ()) => ⟨target, condition, location⟩

/-- A state in a document. -/
def StateItem.decoder : D StateItem :=
  Medium.record "struct StateDeclaration"
    (.required "name" Medium.string <|
      .required "entry_actions" (Medium.list ActionReference.decoder) <|
      .required "exit_actions" (Medium.list ActionReference.decoder) <|
      .required "transitions" (Medium.list Transition.decoder) Location.field)
    fun (name, entryActions, exitActions, transitions, location, ()) =>
      ⟨name, entryActions, exitActions, transitions, location⟩

/-- A reference to a twin in a document. -/
def TwinReference.decoder : D TwinReference :=
  Medium.record "struct TwinReference"
    (.required "twin_type" Medium.string <| .nullable "instance_name" Medium.string <|
      .nullable "count" Medium.word Location.field)
    fun (type, instanceName, count, location, ()) => ⟨type, instanceName, count, location⟩

/-- A reference to a rule in a document. -/
def RuleReference.decoder : D RuleReference :=
  Medium.record "struct RuleReference"
    (.required "name" Medium.string Location.field)
    fun (name, location, ()) => ⟨name, location⟩

/-- A parameter in a document. -/
def Parameter.decoder : D Parameter :=
  Medium.record "struct Parameter"
    (.required "name" Medium.string <| .required "parameter_type" Medium.string Location.field)
    fun (name, type, location, ()) => ⟨name, type, location⟩

/-- A twin in a document. -/
def Twin.decoder : D Twin :=
  Medium.record "struct TwinDeclaration"
    (.required "name" Medium.string <| .nullable "parent" Medium.string <|
      .required "properties" (Medium.list PropertyItem.decoder) <|
      .required "sensors" (Medium.list Device.sensorDecoder) <|
      .required "actuators" (Medium.list Device.actuatorDecoder) <|
      .required "states" (Medium.list StateItem.decoder) Location.field)
    fun (name, parent, properties, sensors, actuators, states, location, ()) =>
      ⟨name, parent, properties, sensors, actuators, states, location⟩

/-- A swarm in a document. -/
def Swarm.decoder : D Swarm :=
  Medium.record "struct SwarmDeclaration"
    (.required "name" Medium.string <|
      .required "twins" (Medium.list TwinReference.decoder) <|
      .required "rules" (Medium.list RuleReference.decoder) Location.field)
    fun (name, twins, rules, location, ()) => ⟨name, twins, rules, location⟩

/-- An event in a document. -/
def Event.decoder : D Event :=
  Medium.record "struct EventDeclaration"
    (.required "name" Medium.string <|
      .required "parameters" (Medium.list Parameter.decoder) Location.field)
    fun (name, parameters, location, ()) => ⟨name, parameters, location⟩

/-- An action in a document. -/
def Action.decoder : D Action :=
  Medium.record "struct ActionDeclaration"
    (.required "name" Medium.string <|
      .required "parameters" (Medium.list Parameter.decoder) <|
      .required "body" (Medium.list Statement.decoder) Location.field)
    fun (name, parameters, body, location, ()) => ⟨name, parameters, body, location⟩

/-- A rule in a document. -/
def Rule.decoder : D Rule :=
  Medium.record "struct RuleDeclaration"
    (.required "name" Medium.string <| .nullable "condition" Expression.decoder <|
      .required "actions" (Medium.list Statement.decoder) Location.field)
    fun (name, condition, actions, location, ()) => ⟨name, condition, actions, location⟩

/-- An import in a document. -/
def Import.decoder : D Import :=
  Medium.record "struct ImportDeclaration"
    (.required "name" Medium.string <| .nullable "path" Medium.string Location.field)
    fun (name, path, location, ()) => ⟨name, path, location⟩

namespace Declaration

/-- A kind of declaration, given how the declared thing is decoded. -/
def variant {α : Type} (tag : String) (make : α → Declaration) (body : Buffered α) :
    Variant Declaration :=
  ⟨tag, fun value => (body value).map make⟩

/-- The kinds of declarations. -/
def variants : List (Variant Declaration) :=
  [variant "twin_declaration" .twin Twin.decoder,
    variant "swarm_declaration" .swarm Swarm.decoder,
    variant "event_declaration" .event Event.decoder,
    variant "action_declaration" .action Action.decoder,
    variant "rule_declaration" .rule Rule.decoder,
    variant "import_declaration" .imported Import.decoder]

/-- A declaration in a document. -/
def decoder : D Declaration := Medium.node "Declaration" variants

end Declaration

namespace Program

/-- A program in a document. -/
def decoder : D Program :=
  Medium.record "struct Program"
    (.required "declarations" (Medium.list Declaration.decoder) .nil)
    fun (declarations, ()) => ⟨declarations⟩

/-- The program that a text describes. -/
def ofJsonText (text : String) : Except Json.Report Program :=
  Json.Reading.report decoder text

/-- The words by which a report shows that a node names an unknown kind. -/
def unknownKindWords : String := "unknown variant"

/-- A text holds some words at some place. -/
def holds (words : List Char) : (text : List Char) → Bool
  | [] => words.isEmpty
  | character :: rest => words.isPrefixOf (character :: rest) || holds words rest

/-- The report of a text that describes no program. -/
def unreadable (report : Json.Report) : Diagnostic :=
  let message := report.display
  { kind := .semantic
    message :=
      if holds unknownKindWords.toList message.toList then "Unknown node type: " ++ message
      else "Invalid program: " ++ message
    location := report.place
    context := "" }

/-- The gaps of the program that a text describes, or the one reason why it describes
none. -/
def validateJsonText (text : String) : List Diagnostic :=
  match ofJsonText text with
  | .ok program => program.validate
  | .error report => [unreadable report]

end Program

/-- Settings in a document. -/
def Settings.decoder : D Settings :=
  Medium.record "struct PipelineConfig"
    (.defaulted "max_nesting_depth" Settings.default.maxNestingDepth Medium.natural <|
      .defaulted "context_radius" Settings.default.contextRadius Medium.natural <|
      .defaulted "validate" Settings.default.validate Medium.boolean .nil)
    fun (maxNestingDepth, contextRadius, validate, ()) =>
      ⟨maxNestingDepth, contextRadius, validate⟩

/-- The kind of a diagnostic in a document. -/
def Diagnostic.Kind.decoder : D Diagnostic.Kind :=
  Medium.choice (Json.namesOf Diagnostic.Kind.name Diagnostic.Kind.all)

/-- A diagnostic in a document. -/
def Diagnostic.decoder : D Diagnostic :=
  Medium.record "struct ParseError"
    (.required "kind" Diagnostic.Kind.decoder <| .required "message" Medium.string <|
      .required "line" Medium.natural <| .required "column" Medium.natural <|
      .required "context" Medium.string .nil)
    fun (kind, message, line, column, context, ()) => ⟨kind, message, ⟨line, column⟩, context⟩

end TwinSwarm
