import TwinSwarm.Proofs.Json.Drawn
import TwinSwarm.Proofs.Json.Message
import TwinSwarm.Proofs.Tree.RoundTrip

/-!
# The format of trees

Each kind of node has a decoder and an encoder that name the same fields in the same order.  What
is to be shown of both can be shown for all kinds at once: it holds of every kind if it holds of
texts, numbers, literals and operators and is closed under the ways in which formats are put
together from smaller ones.
-/

namespace TwinSwarm

open Json (Buffered Fields Medium Quiet Values Variant)

/-! ## Kinds of nodes -/

/-- The kinds of declarations. -/
def Declaration.kinds : List String :=
  ["twin_declaration", "swarm_declaration", "event_declaration", "action_declaration",
    "rule_declaration", "import_declaration"]

/-- The kinds of statements. -/
def Statement.kinds : List String :=
  ["if_statement", "for_statement", "log_statement", "alert_statement", "notify_statement",
    "assignment", "function_call"]

/-- The kinds of expressions. -/
def Expression.kinds : List String :=
  ["binary_expression", "unary_expression", "literal", "grouping", "array_literal",
    "object_literal", "variable_reference", "call_expression", "property_access"]

/-- The kinds by which nodes are told apart. -/
def nodeKinds : List (List String) := [Declaration.kinds, Statement.kinds, Expression.kinds]

theorem Declaration.tags_mem : variants.map Variant.tag ∈ nodeKinds := .head _

theorem Statement.tags_mem (inner : Buffered Statement) :
    (variants inner).map Variant.tag ∈ nodeKinds := .tail _ (.head _)

theorem Expression.tags_mem (inner : Buffered Expression) :
    (variants inner).map Variant.tag ∈ nodeKinds := .tail _ (.tail _ (.head _))

/-! ## Parts that may be left out -/

/-- The names of the parts that a node may lack, which are written as null then. -/
def optionalNames : List String :=
  ["else_branch", "level", "severity", "data", "default_value", "condition", "parent",
    "instance_name", "count", "path"]

/-- A part of this name is no location, and it is written as null only if it may be left out. -/
def Lasting {α : Type} (name : String) (encode : α → Json) : Prop :=
  name ≠ "location" ∧ (name ∈ optionalNames → ∀ value, encode value ≠ .null)

theorem lasting_of_notMem {α : Type} {name : String} (encode : α → Json)
    (plain : name ∉ "location" :: optionalNames) : Lasting name encode := by
  rw [List.mem_cons, not_or] at plain
  exact ⟨plain.1, fun isOptional => absurd isOptional plain.2⟩

/-! ## Formats of records and nodes -/

namespace Json

/-- The names of a record: none of them occurs twice or is that of the kind, and none of them is
noticed in a message. -/
def Named (description : String) (names : List String) : Prop :=
  (tagKey :: names).Nodup ∧ ∀ text ∈ description :: names, Quiet text.toList

instance (description : String) (names : List String) : Decidable (Named description names) := by
  unfold Named
  infer_instance

section Relations

variable (room : Prop) (R : {α : Type} → Buffered α → (α → Json) → Prop)

/-- The fields of a record and the members that are written for them.  Parts that are written
although a document may lack them need room. -/
inductive Written : {types : List Type} → Fields Buffered types →
    (Values types → List (Entry Json)) → Prop where
  | nil : Written .nil fun _ => []
  | lasting {α : Type} {types : List Type} {decoder : Buffered α} {encode : α → Json}
      {rest : Fields Buffered types} {write : Values types → List (Entry Json)} (name : String) :
      Lasting name encode → R decoder encode → Written rest write →
        Written (.required name decoder rest) fun values =>
          ⟨name, encode values.1⟩ :: write values.2
  | nullable {α : Type} {types : List Type} {decoder : Buffered α} {encode : α → Json}
      {rest : Fields Buffered types} {write : Values types → List (Entry Json)} (name : String) :
      name ∈ optionalNames → R decoder encode → (∀ value, encode value ≠ .null) →
        Written rest write → Written (.nullable name decoder rest) fun values =>
          ⟨name, .ofOption (values.1.map encode)⟩ :: write values.2
  | emptied {α : Type} {types : List Type} {decoder : Buffered (List α)}
      {encode : List α → Json} {rest : Fields Buffered types}
      {write : Values types → List (Entry Json)} (name : String) :
      name ∉ "location" :: optionalNames → room → encode [] = .array [] → R decoder encode →
        Written rest write → Written (.defaulted name [] decoder rest) fun values =>
          ⟨name, encode values.1⟩ :: write values.2
  | located : room → R Location.decoder Location.toJson →
      Written Location.field fun values => [values.1.member]

variable {room R} in
theorem Written.required {α : Type} {types : List Type} {decoder : Buffered α} {encode : α → Json}
    {rest : Fields Buffered types} {write : Values types → List (Entry Json)} (name : String)
    (plain : name ∉ "location" :: optionalNames) (ofPart : R decoder encode)
    (ofRest : Written room R rest write) :
    Written room R (.required name decoder rest) fun values =>
      ⟨name, encode values.1⟩ :: write values.2 :=
  .lasting name (lasting_of_notMem encode plain) ofPart ofRest

theorem Written.keys {types : List Type} {fields : Fields Buffered types}
    {write : Values types → List (Entry Json)} (written : Written room R fields write)
    (values : Values types) : (write values).map Entry.key = fields.names := by
  induction written with
  | nil | located => rfl
  | lasting name _ _ _ fromRest | nullable name _ _ _ _ fromRest
  | emptied name _ _ _ _ _ fromRest =>
      rw [List.map_cons, fromRest]
      rfl

/-- A kind of a node: what it makes of a record is written as the members of the record behind the
name of the kind. -/
structure IsKind {α β : Type} (encode : α → Json) (variant : Variant α) (bare : Buffered β)
    (write : β → List (Entry Json)) (make : β → α) : Prop where
  format : R bare fun part => .object (write part)
  body (document : Json) : variant.body document = (bare document).map make
  encodes (part : β) : encode (make part) = .node variant.tag (write part)
  plain (part : β) : tagKey ∉ (write part).map Entry.key

/-- The kinds of a node and the values that they make. -/
inductive Kinds {α : Type} (encode : α → Json) : List (Variant α) → (α → Prop) → Prop where
  | nil : Kinds encode [] fun _ => False
  | cons {β : Type} {variant : Variant α} {bare : Buffered β} {write : β → List (Entry Json)}
      {make : β → α} {rest : List (Variant α)} {made : α → Prop} :
      IsKind R encode variant bare write make → Kinds encode rest made →
        Kinds encode (variant :: rest) fun value => (∃ part, make part = value) ∨ made value

section Kinds

variable {R} {α : Type} {encode : α → Json} {variants : List (Variant α)} {made : α → Prop}

theorem Kinds.of_mem {variant : Variant α} (kinds : Kinds R encode variants made)
    (isVariant : variant ∈ variants) :
    ∃ (β : Type) (bare : Buffered β) (write : β → List (Entry Json)) (make : β → α),
      IsKind R encode variant bare write make := by
  induction kinds with
  | nil => cases isVariant
  | cons isKind _ ofOthers =>
      rcases List.mem_cons.mp isVariant with rfl | isOther
      · exact ⟨_, _, _, _, isKind⟩
      · exact ofOthers isOther

theorem Kinds.of_made {value : α} (kinds : Kinds R encode variants made) (isMade : made value) :
    ∃ variant ∈ variants, ∃ (β : Type) (bare : Buffered β) (write : β → List (Entry Json))
      (make : β → α) (part : β), IsKind R encode variant bare write make ∧ make part = value := by
  induction kinds with
  | nil => cases isMade
  | cons isKind _ ofOthers =>
      rcases isMade with ⟨part, isValue⟩ | isOther
      · exact ⟨_, List.mem_cons_self, _, _, _, _, part, isKind, isValue⟩
      · rcases ofOthers isOther with ⟨variant, isVariant, others⟩
        exact ⟨variant, List.mem_cons_of_mem _ isVariant, others⟩

end Kinds

/-- The kinds of a node make all its values. -/
def Describes {α : Type} (variants : List (Variant α)) (encode : α → Json) : Prop :=
  ∃ made, Kinds R encode variants made ∧ ∀ value, made value

end Relations

end Json

open Json (Describes Kinds Named Written)

theorem Expression.toJson_ne_null (expression : Expression) : expression.toJson ≠ .null := by
  cases expression <;> exact Json.noConfusion

theorem Expression.optionalToJson_eq_ofOption (expression : Option Expression) :
    optionalToJson expression = .ofOption (expression.map toJson) := by
  cases expression <;> rfl

/-- A relation of decoders and encoders that is closed under the ways in which formats are put
together.  It may depend on a number that gets smaller from a document to its parts. -/
structure Closed (room : Nat → Prop)
    (R : Nat → {α : Type} → Buffered α → (α → Json) → Prop) : Prop where
  string (size : Nat) : R size Medium.string .string
  word (size : Nat) : R size Medium.word fun number => .integer number.toInt
  natural (size : Nat) : R size Medium.natural fun number => .integer number
  literal (size : Nat) : R size Literal.decoder Literal.toJson
  binaryOperator (size : Nat) : R size BinaryOperator.decoder BinaryOperator.toJson
  unaryOperator (size : Nat) : R size UnaryOperator.decoder UnaryOperator.toJson
  list {size : Nat} {α : Type} {decoder : Buffered α} {encode : α → Json} :
    R (size - 1) decoder encode →
      R size (Medium.list decoder) fun values => .array (values.map encode)
  record {size : Nat} {α : Type} {types : List Type} {fields : Fields Buffered types}
      {write : Values types → List (Entry Json)} {build : Values types → α} {encode : α → Json}
      (description : String) (header : Option String) (names : List String) :
    Written (room (size - 1)) (R (size - 1)) fields write → fields.names = names →
      Named description names → (∀ typeName ∈ header, typeName ∉ nodeKinds.flatten) →
      (∀ values, encode (build values) = Json.headed header (write values)) →
      (∀ value, ∃ values, build values = value) →
        R size (Medium.record description fields build) encode
  node {size : Nat} {α : Type} {variants : List (Variant α)} {encode : α → Json}
      (description : String) : Describes (R size) variants encode →
    variants.map Variant.tag ∈ nodeKinds → Quiet description.toList →
      R size (Medium.node description variants) encode

theorem Json.Buffered.record_eq_map {α : Type} {types : List Type} (description : String)
    (fields : Fields Buffered types) (build : Values types → α) (document : Json) :
    record description fields build document =
      (record description fields id document).map build := by
  cases document with
  | object members =>
      simp only [record]
      cases fillAll fields members (.empty types) with
      | error cause => rfl
      | ok slots => cases isFinished : fields.finish slots <;> simp [isFinished, Except.map]
  | array items =>
      simp only [record]
      cases takeItems (elementsWanted description fields.count) 0 fields items with
      | error cause => rfl
      | ok result => rcases result with ⟨values, _ | _⟩ <;> rfl
  | _ => rfl

section Formats

variable {room : Nat → Prop} {R : Nat → {α : Type} → Buffered α → (α → Json) → Prop}
variable (closed : Closed room R) {size : Nat}

include closed

/-- A kind whose rest is a record. -/
theorem Closed.kind {α : Type} {types : List Type} {fields : Fields Buffered types}
    {write : Values types → List (Entry Json)} {build : Values types → α} {encode : α → Json}
    {tag : String} {rest : List (Variant α)} {made : α → Prop} (description : String)
    (names : List String) (written : Written (room (size - 1)) (R (size - 1)) fields write)
    (named : fields.names = names) (fit : Named description names)
    (encodes : ∀ values, encode (build values) = .node tag (write values))
    (others : Kinds (R size) encode rest made) :
    Kinds (R size) encode (⟨tag, Medium.record description fields build⟩ :: rest) fun value =>
      (∃ values, build values = value) ∨ made value := by
  have bare : R size (Medium.record description fields id) fun values => .object (write values) :=
    closed.record description none names written named fit
      (fun _ isSome => (Option.not_mem_none _ isSome).elim) (fun _ => rfl)
      fun values => ⟨values, rfl⟩
  refine .cons ⟨bare, Json.Buffered.record_eq_map description fields build, encodes, ?_⟩ others
  intro values
  rw [written.keys, named]
  exact (List.nodup_cons.mp fit.1).1

/-! ## Expressions -/

theorem Location.format : R size decoder toJson :=
  closed.record "struct SourceLocation" none ["line", "column"]
    (.required "line" (by decide) (closed.natural _)
      (.required "column" (by decide) (closed.natural _) .nil)) rfl
    (by decide) (by decide) (fun _ => rfl) fun location =>
      ⟨(location.line, location.column, ()), rfl⟩

theorem Entry.format {decoder : Buffered Expression} (description : String)
    (fit : Named description ["key", "value"])
    (ofValue : R (size - 1) decoder Expression.toJson) :
    R size (Entry.decoder description decoder) Entry.settingToJson :=
  closed.record description none ["key", "value"]
    (.required "key" (by decide) (closed.string _) (.required "value" (by decide) ofValue .nil)) rfl
      fit (by decide)
    (fun _ => rfl) fun entry => ⟨(entry.key, entry.value, ()), rfl⟩

/-- The format of expressions, given that of the expressions inside. -/
theorem Expression.format_step {inner : Buffered Expression}
    (ofInner : ∀ smaller ≤ size - 1, R smaller inner toJson) :
    R size (Medium.node description (variants inner)) toJson := by
  have ofPart := ofInner (size - 1) (Nat.le_refl _)
  have ofItem := ofInner (size - 1 - 1) (Nat.sub_le _ _)
  have ofValue := ofInner (size - 1 - 1 - 1) (by omega)
  have ofEntry := Entry.format closed "struct ObjectEntry" (by decide) ofValue
  refine closed.node description ⟨_,
    closed.kind "struct variant Expression::Binary" ["operator", "left", "right"]
      (.required "operator" (by decide) (closed.binaryOperator _) <|
        .required "left" (by decide) ofPart <|
        .required "right" (by decide) ofPart .nil) rfl (by decide) ?_ <|
    closed.kind "struct variant Expression::Unary" ["operator", "operand"]
      (.required "operator" (by decide) (closed.unaryOperator _) <|
        .required "operand" (by decide) ofPart .nil) rfl
      (by decide) ?_ <|
    closed.kind "struct variant Expression::Literal" ["value"]
      (.required "value" (by decide) (closed.literal _) .nil) rfl (by decide) ?_ <|
    closed.kind "struct variant Expression::Grouping" ["expression"]
      (.required "expression" (by decide) ofPart .nil) rfl (by decide) ?_ <|
    closed.kind "struct variant Expression::ArrayLiteral" ["elements"]
      (.required "elements" (by decide) (closed.list ofItem) .nil) rfl (by decide) ?_ <|
    closed.kind "struct variant Expression::ObjectLiteral" ["entries"]
      (.required "entries" (by decide) (closed.list ofEntry) .nil) rfl (by decide) ?_ <|
    closed.kind "struct variant Expression::VariableReference" ["name"]
      (.required "name" (by decide) (closed.string _) .nil) rfl (by decide) ?_ <|
    closed.kind "struct variant Expression::Call" ["callee", "arguments"]
      (.required "callee" (by decide) (closed.string _) <|
        .required "arguments" (by decide) (closed.list ofItem) .nil) rfl
      (by decide) ?_ <|
    closed.kind "struct variant Expression::PropertyAccess" ["object", "property"]
      (.required "object" (by decide) (closed.string _) <|
        .required "property" (by decide) (closed.string _) .nil) rfl
      (by decide) ?_ .nil,
    ?_⟩ (tags_mem inner) (by decide)
  case refine_10 =>
    intro expression
    cases expression with
    | binary operator left right => exact .inl ⟨(operator, left, right, ()), rfl⟩
    | unary operator operand => exact .inr (.inl ⟨(operator, operand, ()), rfl⟩)
    | literal value => exact .inr (.inr (.inl ⟨(value, ()), rfl⟩))
    | grouping inner => exact .inr (.inr (.inr (.inl ⟨(inner, ()), rfl⟩)))
    | array elements => exact .inr (.inr (.inr (.inr (.inl ⟨(elements, ()), rfl⟩))))
    | object entries => exact .inr (.inr (.inr (.inr (.inr (.inl ⟨(entries, ()), rfl⟩)))))
    | reference name => exact .inr (.inr (.inr (.inr (.inr (.inr (.inl ⟨(name, ()), rfl⟩))))))
    | call callee arguments =>
        exact .inr (.inr (.inr (.inr (.inr (.inr (.inr (.inl ⟨(callee, arguments, ()), rfl⟩)))))))
    | property owner name =>
        exact .inr (.inr (.inr (.inr (.inr (.inr (.inr (.inr (.inl ⟨(owner, name, ()), rfl⟩))))))))
  all_goals
    intro values
    simp [toJson, allToJson_eq_map, entriesToJson_eq_map]

/-! ## Statements -/

theorem Closed.located (roomy : room size) :
    Written (room size) (R size) Location.field fun values => [values.1.member] :=
  .located roomy (Location.format closed)

variable (expressions : ∀ size, R size Expression.decoder Expression.toJson)

include expressions

/-- The format of statements, given that of the statements inside. -/
theorem Statement.format_step {inner : Buffered Statement} (roomy : room (size - 1))
    (ofInner : ∀ smaller ≤ size - 1, R smaller inner toJson) :
    R size (Medium.node description (variants inner)) toJson := by
  have ofBlock := closed.list (ofInner (size - 1 - 1) (Nat.sub_le _ _))
  have located := closed.located roomy
  refine closed.node description ⟨_,
    closed.kind "struct variant Statement::If"
      ["condition", "then_branch", "else_branch", "location"]
      (.lasting "condition" ⟨by decide, fun _ => Expression.toJson_ne_null⟩ (expressions _) <|
        .required "then_branch" (by decide) ofBlock <|
        .nullable "else_branch" (by decide) ofBlock (fun _ => Json.noConfusion) located) rfl
        (by decide) ?_ <|
    closed.kind "struct variant Statement::For" ["variable", "iterable", "body", "location"]
      (.required "variable" (by decide) (closed.string _) <|
        .required "iterable" (by decide) (expressions _) <|
        .required "body" (by decide) ofBlock located) rfl (by decide) ?_ <|
    closed.kind "struct variant Statement::Log" ["message", "level", "location"]
      (.required "message" (by decide) (expressions _) <|
        .nullable "level" (by decide) (expressions _) Expression.toJson_ne_null located) rfl
      (by decide) ?_ <|
    closed.kind "struct variant Statement::Alert" ["message", "severity", "location"]
      (.required "message" (by decide) (expressions _) <|
        .nullable "severity" (by decide) (expressions _) Expression.toJson_ne_null located)
      rfl (by decide) ?_ <|
    closed.kind "struct variant Statement::Notify" ["target", "message", "data", "location"]
      (.required "target" (by decide) (expressions _) <|
        .required "message" (by decide) (expressions _) <|
        .nullable "data" (by decide) (expressions _) Expression.toJson_ne_null located) rfl
        (by decide) ?_ <|
    closed.kind "struct variant Statement::Assignment" ["target", "value", "location"]
      (.required "target" (by decide) (closed.string _) <|
        .required "value" (by decide) (expressions _) located) rfl
      (by decide) ?_ <|
    closed.kind "struct variant Statement::FunctionCall" ["name", "arguments", "location"]
      (.required "name" (by decide) (closed.string _) <|
        .required "arguments" (by decide) (closed.list (expressions _)) located) rfl (by decide) ?_
        .nil,
    ?_⟩ (tags_mem inner) (by decide)
  case refine_8 =>
    intro statement
    cases statement with
    | conditional condition thenBranch elseBranch place =>
        exact .inl ⟨(condition, thenBranch, elseBranch, place, ()), rfl⟩
    | loop name iterable body place => exact .inr (.inl ⟨(name, iterable, body, place, ()), rfl⟩)
    | log message level place => exact .inr (.inr (.inl ⟨(message, level, place, ()), rfl⟩))
    | alert message severity place =>
        exact .inr (.inr (.inr (.inl ⟨(message, severity, place, ()), rfl⟩)))
    | notify target message data place =>
        exact .inr (.inr (.inr (.inr (.inl ⟨(target, message, data, place, ()), rfl⟩))))
    | assignment target value place =>
        exact .inr (.inr (.inr (.inr (.inr (.inl ⟨(target, value, place, ()), rfl⟩)))))
    | call name arguments place =>
        exact .inr (.inr (.inr (.inr (.inr (.inr (.inl ⟨(name, arguments, place, ()), rfl⟩))))))
  case refine_1 =>
    rintro ⟨condition, thenBranch, _ | elseBranch, place, ⟨⟩⟩ <;>
      simp [toJson, branchToJson, allToJson_eq_map, Json.ofOption]
  all_goals
    rintro ⟨_, _, values⟩
    simp [toJson, allToJson_eq_map, Expression.optionalToJson_eq_ofOption]

/-! ## Parts of twins and swarms -/

theorem PropertyItem.format (roomy : room (size - 1)) : R size decoder toJson :=
  closed.record "struct PropertyDeclaration" "property_declaration"
    ["name", "property_type", "default_value", "location"]
    (.required "name" (by decide) (closed.string _) <|
      .required "property_type" (by decide) (closed.string _) <|
      .nullable "default_value" (by decide) (expressions _) Expression.toJson_ne_null <|
      closed.located roomy)
    rfl (by decide) (by decide)
    (fun _ => by simp [toJson, Json.headed, Expression.optionalToJson_eq_ofOption])
    fun item => ⟨(item.name, item.type, item.default, item.location, ()), rfl⟩

theorem Device.configuration_format : R size configurationDecoder fun configuration =>
    .array (configuration.map Entry.settingToJson) :=
  closed.list (Entry.format closed "struct ConfigEntry" (by decide) (expressions _))

theorem Device.sensor_format (roomy : room (size - 1)) : R size sensorDecoder sensorToJson :=
  closed.record "struct SensorDeclaration" "sensor_declaration"
    ["name", "sensor_type", "config", "location"]
    (.required "name" (by decide) (closed.string _) <|
      .required "sensor_type" (by decide) (closed.string _) <|
      .required "config" (by decide) (Device.configuration_format closed expressions) <|
      closed.located roomy)
    rfl (by decide) (by decide) (fun _ => rfl)
    fun device => ⟨(device.name, device.type, device.configuration, device.location, ()), rfl⟩

theorem Device.actuator_format (roomy : room (size - 1)) : R size actuatorDecoder actuatorToJson :=
  closed.record "struct ActuatorDeclaration" "actuator_declaration"
    ["name", "actuator_type", "config", "location"]
    (.required "name" (by decide) (closed.string _) <|
      .required "actuator_type" (by decide) (closed.string _) <|
      .required "config" (by decide) (Device.configuration_format closed expressions) <|
      closed.located roomy)
    rfl (by decide) (by decide) (fun _ => rfl)
    fun device => ⟨(device.name, device.type, device.configuration, device.location, ()), rfl⟩

theorem ActionReference.format (roomy : room (size - 1)) : R size decoder toJson :=
  closed.record "struct ActionReference" "action_reference" ["name", "arguments", "location"]
    (.required "name" (by decide) (closed.string _) <|
      .emptied "arguments" (by decide) roomy rfl (closed.list (expressions _)) <|
      closed.located roomy)
    rfl (by decide) (by decide) (fun _ => rfl)
    fun reference => ⟨(reference.name, reference.arguments, reference.location, ()), rfl⟩

theorem Transition.format (roomy : room (size - 1)) : R size decoder toJson :=
  closed.record "struct Transition" "transition" ["target", "condition", "location"]
    (.required "target" (by decide) (closed.string _) <|
      .nullable "condition" (by decide) (expressions _) Expression.toJson_ne_null <|
      closed.located roomy)
    rfl (by decide) (by decide)
    (fun _ => by simp [toJson, Json.headed, Expression.optionalToJson_eq_ofOption])
    fun item => ⟨(item.target, item.condition, item.location, ()), rfl⟩

theorem StateItem.format (roomy : ∀ smaller, size ≤ smaller + 3 → room smaller) :
    R size decoder toJson := by
  have ofReferences := closed.list
    (ActionReference.format closed expressions (roomy (size - 1 - 1 - 1) (by omega)))
  have ofTransitions := closed.list
    (Transition.format closed expressions (roomy (size - 1 - 1 - 1) (by omega)))
  exact closed.record "struct StateDeclaration" "state_declaration"
    ["name", "entry_actions", "exit_actions", "transitions", "location"]
    (.required "name" (by decide) (closed.string _) <|
      .required "entry_actions" (by decide) ofReferences <|
      .required "exit_actions" (by decide) ofReferences <|
      .required "transitions" (by decide) ofTransitions
        (closed.located (roomy _ (by omega)))) rfl (by decide) (by decide) (fun _ => rfl)
    fun state => ⟨(state.name, state.entryActions, state.exitActions, state.transitions,
      state.location, ()), rfl⟩

omit expressions in
theorem TwinReference.format (roomy : room (size - 1)) : R size decoder toJson :=
  closed.record "struct TwinReference" "twin_reference"
    ["twin_type", "instance_name", "count", "location"]
    (.required "twin_type" (by decide) (closed.string _) <|
      .nullable "instance_name" (by decide) (closed.string _) (fun _ => Json.noConfusion) <|
      .nullable "count" (by decide) (closed.word _) (fun _ => Json.noConfusion) <|
      closed.located roomy)
    rfl (by decide) (by decide) (fun _ => rfl)
    fun reference => ⟨(reference.type, reference.instanceName, reference.count,
      reference.location, ()), rfl⟩

omit expressions in
theorem RuleReference.format (roomy : room (size - 1)) : R size decoder toJson :=
  closed.record "struct RuleReference" "rule_reference" ["name", "location"]
    (.required "name" (by decide) (closed.string _) (closed.located roomy)) rfl (by decide)
      (by decide)
    (fun _ => rfl) fun reference => ⟨(reference.name, reference.location, ()), rfl⟩

omit expressions in
theorem Parameter.format (roomy : room (size - 1)) : R size decoder toJson :=
  closed.record "struct Parameter" "parameter" ["name", "parameter_type", "location"]
    (.required "name" (by decide) (closed.string _) <|
      .required "parameter_type" (by decide) (closed.string _) <|
      closed.located roomy) rfl (by decide) (by decide)
    (fun _ => rfl) fun parameter => ⟨(parameter.name, parameter.type, parameter.location, ()), rfl⟩

/-! ## Declarations -/

theorem Twin.format (roomy : ∀ smaller, size ≤ smaller + 5 → room smaller) :
    R size decoder fun declared => .object (Declaration.twin declared).members := by
  have deeper : room (size - 1 - 1 - 1) := roomy _ (by omega)
  have ofProperties := closed.list (PropertyItem.format closed expressions deeper)
  have ofSensors := closed.list (Device.sensor_format closed expressions deeper)
  have ofActuators := closed.list (Device.actuator_format closed expressions deeper)
  have ofState : R (size - 1 - 1) StateItem.decoder StateItem.toJson :=
    StateItem.format closed expressions fun smaller near => roomy smaller (by omega)
  have ofStates := closed.list ofState
  exact closed.record "struct TwinDeclaration" none
    ["name", "parent", "properties", "sensors", "actuators", "states", "location"]
    (.required "name" (by decide) (closed.string _) <|
      .nullable "parent" (by decide) (closed.string _) (fun _ => Json.noConfusion) <|
      .required "properties" (by decide) ofProperties <|
      .required "sensors" (by decide) ofSensors <|
      .required "actuators" (by decide) ofActuators <|
      .required "states" (by decide) ofStates (closed.located (roomy _ (by omega))))
    rfl (by decide) (by decide) (fun _ => rfl)
    fun declared => ⟨(declared.name, declared.parent, declared.properties, declared.sensors,
      declared.actuators, declared.states, declared.location, ()), rfl⟩

omit expressions in
theorem Swarm.format (roomy : ∀ smaller, size ≤ smaller + 5 → room smaller) :
    R size decoder fun declared => .object (Declaration.swarm declared).members := by
  have deeper : room (size - 1 - 1 - 1) := roomy _ (by omega)
  have ofTwins := closed.list (TwinReference.format closed deeper)
  have ofRules := closed.list (RuleReference.format closed deeper)
  exact closed.record "struct SwarmDeclaration" none ["name", "twins", "rules", "location"]
    (.required "name" (by decide) (closed.string _) <|
      .required "twins" (by decide) ofTwins <|
      .required "rules" (by decide) ofRules (closed.located (roomy _ (by omega))))
    rfl (by decide) (by decide) (fun _ => rfl)
    fun declared => ⟨(declared.name, declared.twins, declared.rules, declared.location, ()), rfl⟩

omit expressions in
theorem Event.format (roomy : ∀ smaller, size ≤ smaller + 5 → room smaller) :
    R size decoder fun declared => .object (Declaration.event declared).members := by
  have ofParameters := closed.list (Parameter.format closed (roomy (size - 1 - 1 - 1) (by omega)))
  exact closed.record "struct EventDeclaration" none ["name", "parameters", "location"]
    (.required "name" (by decide) (closed.string _) <|
      .required "parameters" (by decide) ofParameters (closed.located (roomy _ (by omega))))
    rfl (by decide) (by decide) (fun _ => rfl)
    fun declared => ⟨(declared.name, declared.parameters, declared.location, ()), rfl⟩

omit expressions in
theorem Import.format (roomy : room (size - 1)) :
    R size decoder fun declared => .object (Declaration.imported declared).members :=
  closed.record "struct ImportDeclaration" none ["name", "path", "location"]
    (.required "name" (by decide) (closed.string _) <|
      .nullable "path" (by decide) (closed.string _) (fun _ => Json.noConfusion) <|
      closed.located roomy)
    rfl (by decide) (by decide) (fun _ => rfl)
    fun declared => ⟨(declared.name, declared.path, declared.location, ()), rfl⟩

variable (statements : ∀ size, R size Statement.decoder Statement.toJson)

include statements

omit expressions in
theorem Action.format (roomy : ∀ smaller, size ≤ smaller + 5 → room smaller) :
    R size decoder fun declared => .object (Declaration.action declared).members := by
  have ofParameters := closed.list (Parameter.format closed (roomy (size - 1 - 1 - 1) (by omega)))
  have ofBody := closed.list (statements (size - 1 - 1))
  exact closed.record "struct ActionDeclaration" none ["name", "parameters", "body", "location"]
    (.required "name" (by decide) (closed.string _) <|
      .required "parameters" (by decide) ofParameters <|
      .required "body" (by decide) ofBody (closed.located (roomy _ (by omega))))
    rfl (by decide) (by decide) (fun _ => rfl)
    fun declared =>
      ⟨(declared.name, declared.parameters, declared.body, declared.location, ()), rfl⟩

theorem Rule.format (roomy : room (size - 1)) :
    R size decoder fun declared => .object (Declaration.rule declared).members := by
  have ofActions := closed.list (statements (size - 1 - 1))
  exact closed.record "struct RuleDeclaration" none ["name", "condition", "actions", "location"]
    (.required "name" (by decide) (closed.string _) <|
      .nullable "condition" (by decide) (expressions _) Expression.toJson_ne_null <|
      .required "actions" (by decide) ofActions (closed.located roomy))
    rfl (by decide) (by decide)
    (fun _ => by
      simp [Declaration.members, Json.headed, Expression.optionalToJson_eq_ofOption])
    fun declared =>
      ⟨(declared.name, declared.condition, declared.actions, declared.location, ()), rfl⟩

/-- The format of declarations, given those of expressions and statements. -/
theorem Declaration.format (roomy : ∀ smaller, size ≤ smaller + 5 → room smaller) :
    Describes (R size) Declaration.variants Declaration.toJson := by
  have nearby : room (size - 1) := roomy (size - 1) (by omega)
  have ofTwin := Twin.format closed expressions roomy
  have ofSwarm := Swarm.format closed roomy
  have ofEvent := Event.format closed roomy
  have ofAction := Action.format closed statements roomy
  have ofRule := Rule.format closed expressions statements nearby
  have ofImport := Import.format closed nearby
  refine ⟨_, .cons ⟨ofTwin, fun _ => rfl, fun _ => rfl, fun _ => members_plain _⟩ <|
    .cons ⟨ofSwarm, fun _ => rfl, fun _ => rfl, fun _ => members_plain _⟩ <|
    .cons ⟨ofEvent, fun _ => rfl, fun _ => rfl, fun _ => members_plain _⟩ <|
    .cons ⟨ofAction, fun _ => rfl, fun _ => rfl, fun _ => members_plain _⟩ <|
    .cons ⟨ofRule, fun _ => rfl, fun _ => rfl, fun _ => members_plain _⟩ <|
    .cons ⟨ofImport, fun _ => rfl, fun _ => rfl, fun _ => members_plain _⟩ .nil, ?_⟩
  intro declaration
  cases declaration with
  | twin declared => exact .inl ⟨declared, rfl⟩
  | swarm declared => exact .inr (.inl ⟨declared, rfl⟩)
  | event declared => exact .inr (.inr (.inl ⟨declared, rfl⟩))
  | action declared => exact .inr (.inr (.inr (.inl ⟨declared, rfl⟩)))
  | rule declared => exact .inr (.inr (.inr (.inr (.inl ⟨declared, rfl⟩))))
  | imported declared => exact .inr (.inr (.inr (.inr (.inr (.inl ⟨declared, rfl⟩)))))

end Formats

/-! ## Recursive kinds -/

/-- A relation that depends on documents of limited height only, and so on decoders that look no
deeper than the height of what they are given. -/
structure Bounded (R : Nat → {α : Type} → Buffered α → (α → Json) → Prop) : Prop where
  zero {α : Type} (decoder : Buffered α) (encode : α → Json) : R 0 decoder encode
  smaller {size smaller : Nat} {α : Type} {decoder : Buffered α} {encode : α → Json} :
    smaller ≤ size → R size decoder encode → R smaller decoder encode
  ofHeight {α : Type} {within : Nat → Buffered α} {encode : α → Json} :
    (∀ size, R size (within size) encode) →
      ∀ size, R size (fun document => within document.height document) encode

section Recursive

variable {room : Nat → Prop} {R : Nat → {α : Type} → Buffered α → (α → Json) → Prop}
variable (closed : Closed room R) (bounded : Bounded R)

include closed bounded

theorem Expression.format (size : Nat) : R size decoder toJson := by
  have ofWithin (size : Nat) : R size (ofJsonWithin size) toJson := by
    induction size with
    | zero => exact bounded.zero _ _
    | succ size fromBelow =>
        exact Expression.format_step closed fun _ isSmaller => bounded.smaller isSmaller fromBelow
  have ofInner := bounded.ofHeight ofWithin
  exact Expression.format_step closed fun smaller _ => ofInner smaller

theorem Statement.format (roomy : ∀ size, room size) (size : Nat) : R size decoder toJson := by
  have expressions := Expression.format closed bounded
  have ofWithin (size : Nat) : R size (ofJsonWithin size) toJson := by
    induction size with
    | zero => exact bounded.zero _ _
    | succ size fromBelow =>
        exact Statement.format_step closed expressions (roomy _) fun _ isSmaller =>
          bounded.smaller isSmaller fromBelow
  have ofInner := bounded.ofHeight ofWithin
  exact Statement.format_step closed expressions (roomy _) fun smaller _ => ofInner smaller

end Recursive

end TwinSwarm
