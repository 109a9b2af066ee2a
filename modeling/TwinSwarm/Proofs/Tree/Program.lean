import TwinSwarm.Proofs.Tree.Statement

/-!
# Declarations and their documents

The document of everything that a declaration is made of is decoded to the same thing if
its locations fit 64 bits, and so are the parts of the declaration itself.
-/

namespace TwinSwarm

open Json (Buffered exists_map_eq_mapDoubles WholesFit wholesFit_of_item)
open Json.Buffered (list_of_decodes record_of_holds record_of_node)

/-! ## Lists and optional values -/

/-- A list that is a part of a node is decoded if its items are. -/
theorem list_of_part {α : Type} {encode : α → Json} {decoder : Buffered α} {typeName key : String}
    {values : List α} {parts : List (Entry Json)}
    (decodes : ∀ {value}, WholesFit (encode value).leaves → decoder (encode value) = .ok value)
    (fit : WholesFit (Json.node typeName parts).leaves)
    (isPart : ⟨key, .array (values.map encode)⟩ ∈ parts) :
    Buffered.list decoder (.array (values.map encode)) = .ok values :=
  list_of_decodes fun _ isMember =>
    decodes (wholesFit_of_item fit (List.mem_map_of_mem isMember) isPart)

theorem optional_ofOptionalText (text : Option String) :
    Buffered.optional Json.Medium.string (.ofOptionalText text) = .ok text := by
  cases text with
  | none => rfl
  | some text => rfl

theorem optional_word (number : Option Int64) :
    Buffered.optional Json.Medium.word
      (.ofOption (number.map fun number => .integer number.toInt)) = .ok number := by
  cases number with
  | none => rfl
  | some number =>
      apply Json.Buffered.optional_of_decodes Json.noConfusion
      simp only [Option.map_some, Json.ofOption, Json.Medium.word, Json.Medium.scalar,
        if_pos (Numeral.isWord_toInt number), Int64.ofInt_toInt]

theorem list_of_expressions (expressions : List Expression) :
    Buffered.list Expression.decoder (.array (expressions.map Expression.toJson)) =
      .ok expressions :=
  list_of_decodes fun expression _ => expression.decoder_toJson

/-! ## Parts of twins and swarms -/

theorem PropertyItem.decoder_toJson {item : PropertyItem} (fit : WholesFit item.toJson.leaves) :
    (decoder : Buffered PropertyItem) item.toJson = .ok item := by
  unfold decoder
  exact record_of_node "struct PropertyDeclaration" "property_declaration"
    ["name", "property_type", "default_value", "location"] rfl (by decide)
    (.cons rfl (.cons rfl (.cons (Expression.optional_optionalToJson item.default)
      (Location.field_holds fit rfl)))) rfl

theorem Device.configurationDecoder_map (configuration : List (Entry Expression)) :
    (configurationDecoder : Buffered _) (.array (configuration.map Entry.settingToJson)) =
      .ok configuration :=
  list_of_decodes fun entry _ =>
    Entry.decoder_of_decodes "struct ConfigEntry" entry.key entry.value.decoder_toJson

theorem Device.sensorDecoder_toJson {sensor : Device} (fit : WholesFit sensor.sensorToJson.leaves) :
    (sensorDecoder : Buffered Device) sensor.sensorToJson = .ok sensor := by
  unfold sensorDecoder
  exact record_of_node "struct SensorDeclaration" "sensor_declaration"
    ["name", "sensor_type", "config", "location"] rfl (by decide)
    (.cons rfl (.cons rfl (.cons (Device.configurationDecoder_map sensor.configuration)
      (Location.field_holds fit rfl)))) rfl

theorem Device.actuatorDecoder_toJson {actuator : Device}
    (fit : WholesFit actuator.actuatorToJson.leaves) :
    (actuatorDecoder : Buffered Device) actuator.actuatorToJson = .ok actuator := by
  unfold actuatorDecoder
  exact record_of_node "struct ActuatorDeclaration" "actuator_declaration"
    ["name", "actuator_type", "config", "location"] rfl (by decide)
    (.cons rfl (.cons rfl (.cons (Device.configurationDecoder_map actuator.configuration)
      (Location.field_holds fit rfl)))) rfl

theorem ActionReference.decoder_toJson {reference : ActionReference}
    (fit : WholesFit reference.toJson.leaves) :
    (decoder : Buffered ActionReference) reference.toJson = .ok reference := by
  unfold decoder
  exact record_of_node "struct ActionReference" "action_reference"
    ["name", "arguments", "location"] rfl (by decide)
    (.cons rfl (.cons (list_of_expressions reference.arguments)
      (Location.field_holds fit rfl))) rfl

theorem Transition.decoder_toJson {transition : Transition}
    (fit : WholesFit transition.toJson.leaves) :
    (decoder : Buffered Transition) transition.toJson = .ok transition := by
  unfold decoder
  exact record_of_node "struct Transition" "transition" ["target", "condition", "location"] rfl
    (by decide) (.cons rfl (.cons (Expression.optional_optionalToJson transition.condition)
      (Location.field_holds fit rfl))) rfl

theorem StateItem.decoder_toJson {state : StateItem} (fit : WholesFit state.toJson.leaves) :
    (decoder : Buffered StateItem) state.toJson = .ok state := by
  unfold decoder
  exact record_of_node "struct StateDeclaration" "state_declaration"
    ["name", "entry_actions", "exit_actions", "transitions", "location"] rfl (by decide)
    (.cons rfl (.cons (list_of_part ActionReference.decoder_toJson fit (.tail _ (.head _)))
      (.cons (list_of_part ActionReference.decoder_toJson fit (.tail _ (.tail _ (.head _))))
        (.cons (list_of_part Transition.decoder_toJson fit
          (.tail _ (.tail _ (.tail _ (.head _))))) (Location.field_holds fit rfl))))) rfl

theorem TwinReference.decoder_toJson {reference : TwinReference}
    (fit : WholesFit reference.toJson.leaves) :
    (decoder : Buffered TwinReference) reference.toJson = .ok reference := by
  unfold decoder
  exact record_of_node "struct TwinReference" "twin_reference"
    ["twin_type", "instance_name", "count", "location"] rfl (by decide)
    (.cons rfl (.cons (optional_ofOptionalText reference.instanceName)
      (.cons (optional_word reference.count) (Location.field_holds fit rfl)))) rfl

theorem RuleReference.decoder_toJson {reference : RuleReference}
    (fit : WholesFit reference.toJson.leaves) :
    (decoder : Buffered RuleReference) reference.toJson = .ok reference := by
  unfold decoder
  exact record_of_node "struct RuleReference" "rule_reference" ["name", "location"] rfl
    (by decide) (.cons rfl (Location.field_holds fit rfl)) rfl

theorem Parameter.decoder_toJson {parameter : Parameter}
    (fit : WholesFit parameter.toJson.leaves) :
    (decoder : Buffered Parameter) parameter.toJson = .ok parameter := by
  unfold decoder
  exact record_of_node "struct Parameter" "parameter" ["name", "parameter_type", "location"] rfl
    (by decide) (.cons rfl (.cons rfl (Location.field_holds fit rfl))) rfl

/-! ## Members of declarations -/

theorem Twin.decoder_members {declared : Twin}
    (fit : WholesFit (Declaration.twin declared).toJson.leaves) :
    (decoder : Buffered Twin) (.object (Declaration.twin declared).members) = .ok declared := by
  unfold decoder
  exact record_of_holds "struct TwinDeclaration"
    ["name", "parent", "properties", "sensors", "actuators", "states", "location"] rfl (by decide)
    (.cons rfl (.cons (optional_ofOptionalText declared.parent)
      (.cons (list_of_part PropertyItem.decoder_toJson fit (.tail _ (.tail _ (.head _))))
        (.cons (list_of_part Device.sensorDecoder_toJson fit
            (.tail _ (.tail _ (.tail _ (.head _)))))
          (.cons (list_of_part Device.actuatorDecoder_toJson fit
              (.tail _ (.tail _ (.tail _ (.tail _ (.head _))))))
            (.cons (list_of_part StateItem.decoder_toJson fit
                (.tail _ (.tail _ (.tail _ (.tail _ (.tail _ (.head _)))))))
              (Location.field_holds fit rfl))))))) rfl

theorem Swarm.decoder_members {declared : Swarm}
    (fit : WholesFit (Declaration.swarm declared).toJson.leaves) :
    (decoder : Buffered Swarm) (.object (Declaration.swarm declared).members) = .ok declared := by
  unfold decoder
  exact record_of_holds "struct SwarmDeclaration" ["name", "twins", "rules", "location"] rfl
    (by decide) (.cons rfl
      (.cons (list_of_part TwinReference.decoder_toJson fit (.tail _ (.head _)))
        (.cons (list_of_part RuleReference.decoder_toJson fit (.tail _ (.tail _ (.head _))))
          (Location.field_holds fit rfl)))) rfl

theorem Event.decoder_members {declared : Event}
    (fit : WholesFit (Declaration.event declared).toJson.leaves) :
    (decoder : Buffered Event) (.object (Declaration.event declared).members) = .ok declared := by
  unfold decoder
  exact record_of_holds "struct EventDeclaration" ["name", "parameters", "location"] rfl
    (by decide) (.cons rfl (.cons (list_of_part Parameter.decoder_toJson fit (.tail _ (.head _)))
      (Location.field_holds fit rfl))) rfl

theorem Action.decoder_members {declared : Action}
    (fit : WholesFit (Declaration.action declared).toJson.leaves) :
    (decoder : Buffered Action) (.object (Declaration.action declared).members) =
      .ok declared := by
  unfold decoder
  exact record_of_holds "struct ActionDeclaration" ["name", "parameters", "body", "location"] rfl
    (by decide) (.cons rfl
      (.cons (list_of_part Parameter.decoder_toJson fit (.tail _ (.head _)))
        (.cons (list_of_part Statement.decoder_toJson fit (.tail _ (.tail _ (.head _))))
          (Location.field_holds fit rfl)))) rfl

theorem Rule.decoder_members {declared : Rule}
    (fit : WholesFit (Declaration.rule declared).toJson.leaves) :
    (decoder : Buffered Rule) (.object (Declaration.rule declared).members) = .ok declared := by
  unfold decoder
  exact record_of_holds "struct RuleDeclaration" ["name", "condition", "actions", "location"] rfl
    (by decide) (.cons rfl
      (.cons (Expression.optional_optionalToJson declared.condition)
        (.cons (list_of_part Statement.decoder_toJson fit (.tail _ (.tail _ (.head _))))
          (Location.field_holds fit rfl)))) rfl

theorem Import.decoder_members {declared : Import}
    (fit : WholesFit (Declaration.imported declared).toJson.leaves) :
    (decoder : Buffered Import) (.object (Declaration.imported declared).members) =
      .ok declared := by
  unfold decoder
  exact record_of_holds "struct ImportDeclaration" ["name", "path", "location"] rfl (by decide)
    (.cons rfl (.cons (optional_ofOptionalText declared.path) (Location.field_holds fit rfl))) rfl

namespace Declaration

/-- The kind under which a declaration is written takes its members back to it. -/
theorem exists_variant {declaration : Declaration} (fit : WholesFit declaration.toJson.leaves) :
    ∃ kind, Json.choose (Json.Variant.entries variants) declaration.typeName = .ok kind ∧
      kind.body (.object declaration.members) = .ok declaration := by
  cases declaration with
  | twin declared =>
      refine ⟨variant "twin_declaration" .twin Twin.decoder, rfl, ?_⟩
      simp only [variant, Twin.decoder_members fit, Except.map]
  | swarm declared =>
      refine ⟨variant "swarm_declaration" .swarm Swarm.decoder, rfl, ?_⟩
      simp only [variant, Swarm.decoder_members fit, Except.map]
  | event declared =>
      refine ⟨variant "event_declaration" .event Event.decoder, rfl, ?_⟩
      simp only [variant, Event.decoder_members fit, Except.map]
  | action declared =>
      refine ⟨variant "action_declaration" .action Action.decoder, rfl, ?_⟩
      simp only [variant, Action.decoder_members fit, Except.map]
  | rule declared =>
      refine ⟨variant "rule_declaration" .rule Rule.decoder, rfl, ?_⟩
      simp only [variant, Rule.decoder_members fit, Except.map]
  | imported declared =>
      refine ⟨variant "import_declaration" .imported Import.decoder, rfl, ?_⟩
      simp only [variant, Import.decoder_members fit, Except.map]

end Declaration

/-! ## Other doubles -/

variable (change : Double → Double)

theorem mapDoubles_ofOptionalText (text : Option String) :
    (Json.ofOptionalText text).mapDoubles change = .ofOptionalText text := by
  cases text with
  | none => rfl
  | some text => rfl

theorem mapDoubles_word (number : Option Int64) :
    (Json.ofOption (number.map fun number => .integer number.toInt)).mapDoubles change =
      .ofOption (number.map fun number => .integer number.toInt) := by
  cases number with
  | none => rfl
  | some number => rfl

theorem Expression.exists_map_toJson (expressions : List Expression) :
    ∃ others : List Expression, others.map toJson =
      Json.mapDoublesOfAll change (expressions.map toJson) :=
  exists_map_eq_mapDoubles change (exists_toJson_eq_mapDoubles change) expressions

theorem Statement.exists_map_toJson (statements : List Statement) :
    ∃ others : List Statement, others.map toJson =
      Json.mapDoublesOfAll change (statements.map toJson) :=
  exists_map_eq_mapDoubles change (exists_toJson_eq_mapDoubles change) statements

theorem PropertyItem.exists_toJson_eq_mapDoubles (item : PropertyItem) :
    ∃ other : PropertyItem, other.toJson = item.toJson.mapDoubles change := by
  rcases Expression.exists_optionalToJson_eq_mapDoubles change item.default with
    ⟨default, changed⟩
  refine ⟨{ item with default }, ?_⟩
  simp [toJson, Json.mapDoubles, Json.mapDoublesOfMembers, Location.member, changed]

theorem Entry.exists_settingToJson_eq_mapDoubles (entry : Entry Expression) :
    ∃ other : Entry Expression, other.settingToJson = entry.settingToJson.mapDoubles change := by
  rcases entry.value.exists_toJson_eq_mapDoubles change with ⟨value, changed⟩
  refine ⟨{ entry with value }, ?_⟩
  simp [settingToJson, Json.mapDoubles, Json.mapDoublesOfMembers, changed]

theorem Device.exists_sensorToJson_eq_mapDoubles (sensor : Device) :
    ∃ other : Device, other.sensorToJson = sensor.sensorToJson.mapDoubles change := by
  rcases exists_map_eq_mapDoubles change (Entry.exists_settingToJson_eq_mapDoubles change)
    sensor.configuration with ⟨configuration, changed⟩
  refine ⟨{ sensor with configuration }, ?_⟩
  simp [sensorToJson, Json.mapDoubles, Json.mapDoublesOfMembers, Location.member, changed]

theorem Device.exists_actuatorToJson_eq_mapDoubles (actuator : Device) :
    ∃ other : Device, other.actuatorToJson = actuator.actuatorToJson.mapDoubles change := by
  rcases exists_map_eq_mapDoubles change (Entry.exists_settingToJson_eq_mapDoubles change)
    actuator.configuration with ⟨configuration, changed⟩
  refine ⟨{ actuator with configuration }, ?_⟩
  simp [actuatorToJson, Json.mapDoubles, Json.mapDoublesOfMembers, Location.member, changed]

theorem ActionReference.exists_toJson_eq_mapDoubles (reference : ActionReference) :
    ∃ other : ActionReference, other.toJson = reference.toJson.mapDoubles change := by
  rcases Expression.exists_map_toJson change reference.arguments with ⟨arguments, changed⟩
  refine ⟨{ reference with arguments }, ?_⟩
  simp [toJson, Json.mapDoubles, Json.mapDoublesOfMembers, Location.member, changed]

theorem Transition.exists_toJson_eq_mapDoubles (transition : Transition) :
    ∃ other : Transition, other.toJson = transition.toJson.mapDoubles change := by
  rcases Expression.exists_optionalToJson_eq_mapDoubles change transition.condition with
    ⟨condition, changed⟩
  refine ⟨{ transition with condition }, ?_⟩
  simp [toJson, Json.mapDoubles, Json.mapDoublesOfMembers, Location.member, changed]

theorem StateItem.exists_toJson_eq_mapDoubles (state : StateItem) :
    ∃ other : StateItem, other.toJson = state.toJson.mapDoubles change := by
  rcases exists_map_eq_mapDoubles change (ActionReference.exists_toJson_eq_mapDoubles change)
    state.entryActions with ⟨entryActions, entryChanged⟩
  rcases exists_map_eq_mapDoubles change (ActionReference.exists_toJson_eq_mapDoubles change)
    state.exitActions with ⟨exitActions, exitChanged⟩
  rcases exists_map_eq_mapDoubles change (Transition.exists_toJson_eq_mapDoubles change)
    state.transitions with ⟨transitions, transitionsChanged⟩
  refine ⟨{ state with entryActions, exitActions, transitions }, ?_⟩
  simp [toJson, Json.mapDoubles, Json.mapDoublesOfMembers, Location.member, entryChanged,
    exitChanged, transitionsChanged]

theorem TwinReference.mapDoubles_toJson (reference : TwinReference) :
    reference.toJson.mapDoubles change = reference.toJson := by
  simp [toJson, Json.mapDoubles, Json.mapDoublesOfMembers, Location.member,
    mapDoubles_ofOptionalText, mapDoubles_word]

theorem RuleReference.exists_map_toJson (references : List RuleReference) :
    ∃ others : List RuleReference, others.map toJson =
      Json.mapDoublesOfAll change (references.map toJson) :=
  exists_map_eq_mapDoubles change (fun reference => ⟨reference, rfl⟩) references

theorem Parameter.exists_map_toJson (parameters : List Parameter) :
    ∃ others : List Parameter, others.map toJson =
      Json.mapDoublesOfAll change (parameters.map toJson) :=
  exists_map_eq_mapDoubles change (fun parameter => ⟨parameter, rfl⟩) parameters

/-- With other doubles, the document of a declaration is still one of a declaration. -/
theorem Declaration.exists_toJson_eq_mapDoubles (declaration : Declaration) :
    ∃ other : Declaration, other.toJson = declaration.toJson.mapDoubles change := by
  cases declaration with
  | twin declared =>
      rcases exists_map_eq_mapDoubles change (PropertyItem.exists_toJson_eq_mapDoubles change)
        declared.properties with ⟨properties, propertiesChanged⟩
      rcases exists_map_eq_mapDoubles change (Device.exists_sensorToJson_eq_mapDoubles change)
        declared.sensors with ⟨sensors, sensorsChanged⟩
      rcases exists_map_eq_mapDoubles change (Device.exists_actuatorToJson_eq_mapDoubles change)
        declared.actuators with ⟨actuators, actuatorsChanged⟩
      rcases exists_map_eq_mapDoubles change (StateItem.exists_toJson_eq_mapDoubles change)
        declared.states with ⟨states, statesChanged⟩
      refine ⟨.twin { declared with properties, sensors, actuators, states }, ?_⟩
      simp [toJson, typeName, members, Json.mapDoubles, Json.mapDoublesOfMembers,
        Location.member, mapDoubles_ofOptionalText, propertiesChanged, sensorsChanged,
        actuatorsChanged, statesChanged]
  | swarm declared =>
      rcases exists_map_eq_mapDoubles change
        (fun reference => ⟨reference, (TwinReference.mapDoubles_toJson change reference).symm⟩)
        declared.twins with ⟨twins, twinsChanged⟩
      rcases RuleReference.exists_map_toJson change declared.rules with ⟨rules, rulesChanged⟩
      refine ⟨.swarm { declared with twins, rules }, ?_⟩
      simp [toJson, typeName, members, Json.mapDoubles, Json.mapDoublesOfMembers,
        Location.member, twinsChanged, rulesChanged]
  | event declared =>
      rcases Parameter.exists_map_toJson change declared.parameters with ⟨parameters, changed⟩
      refine ⟨.event { declared with parameters }, ?_⟩
      simp [toJson, typeName, members, Json.mapDoubles, Json.mapDoublesOfMembers,
        Location.member, changed]
  | action declared =>
      rcases Parameter.exists_map_toJson change declared.parameters with ⟨parameters, changed⟩
      rcases Statement.exists_map_toJson change declared.body with ⟨body, bodyChanged⟩
      refine ⟨.action { declared with parameters, body }, ?_⟩
      simp [toJson, typeName, members, Json.mapDoubles, Json.mapDoublesOfMembers,
        Location.member, changed, bodyChanged]
  | rule declared =>
      rcases Expression.exists_optionalToJson_eq_mapDoubles change declared.condition with
        ⟨condition, changed⟩
      rcases Statement.exists_map_toJson change declared.actions with ⟨actions, actionsChanged⟩
      refine ⟨.rule { declared with condition, actions }, ?_⟩
      simp [toJson, typeName, members, Json.mapDoubles, Json.mapDoublesOfMembers,
        Location.member, changed, actionsChanged]
  | imported declared =>
      refine ⟨.imported declared, ?_⟩
      simp [toJson, typeName, members, Json.mapDoubles, Json.mapDoublesOfMembers,
        Location.member, mapDoubles_ofOptionalText]

end TwinSwarm
