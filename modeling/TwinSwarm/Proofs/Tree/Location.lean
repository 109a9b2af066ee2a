import TwinSwarm.Proofs.Tree.Program

/-!
# The locations of a program

Statements, declarations and the parts of declarations know where they start.  The whole
numbers in the document of a program are these locations and literals, so all of them fit
64 bits if the locations do.
-/

namespace TwinSwarm

open Json (leavesOfAll leavesOfMembers WholesFit)

/-! ## Statements -/

namespace Statement

mutual

/-- The locations of a statement and of the statements inside. -/
def locations : Statement → List Location
  | .conditional _ thenBranch elseBranch location =>
      location :: (locationsOfAll thenBranch ++ locationsOfBranch elseBranch)
  | .loop _ _ body location => location :: locationsOfAll body
  | .log _ _ location | .alert _ _ location | .notify _ _ _ location
  | .assignment _ _ location | .call _ _ location => [location]

/-- The locations of several statements. -/
def locationsOfAll : List Statement → List Location
  | [] => []
  | first :: rest => locations first ++ locationsOfAll rest

/-- The locations of a branch that may be absent. -/
def locationsOfBranch : Option (List Statement) → List Location
  | none => []
  | some branch => locationsOfAll branch

end

end Statement

/-! ## Declarations -/

/-- The locations of a state and its parts. -/
def StateItem.locations (state : StateItem) : List Location :=
  state.location :: (state.entryActions.map ActionReference.location ++
    state.exitActions.map ActionReference.location ++ state.transitions.map Transition.location)

namespace Declaration

/-- The locations of a declaration and its parts. -/
def locations : Declaration → List Location
  | .twin declared =>
      declared.location :: (declared.properties.map PropertyItem.location ++
        declared.sensors.map Device.location ++ declared.actuators.map Device.location ++
          declared.states.flatMap StateItem.locations)
  | .swarm declared =>
      declared.location :: (declared.twins.map TwinReference.location ++
        declared.rules.map RuleReference.location)
  | .event declared => declared.location :: declared.parameters.map Parameter.location
  | .action declared =>
      declared.location :: (declared.parameters.map Parameter.location ++
        Statement.locationsOfAll declared.body)
  | .rule declared => declared.location :: Statement.locationsOfAll declared.actions
  | .imported declared => [declared.location]

end Declaration

/-- The locations of all declarations. -/
def Program.locations (program : Program) : List Location :=
  program.declarations.flatMap Declaration.locations

/-! ## Whole numbers -/

theorem Expression.wholesFit_optional (expression : Option Expression) :
    WholesFit (optionalToJson expression).leaves := by
  cases expression with
  | none => simp [optionalToJson, Json.leaves]
  | some expression => exact expression.wholesFit

theorem wholesFit_map {α : Type} {encode : α → Json} {values : List α}
    (fit : ∀ value ∈ values, WholesFit (encode value).leaves) :
    WholesFit (leavesOfAll (values.map encode)) := by
  induction values with
  | nil => exact Json.wholesFit_nil
  | cons first rest fromRest =>
      rw [List.map_cons, leavesOfAll, Json.wholesFit_append]
      exact ⟨fit first List.mem_cons_self,
        fromRest fun value isMember => fit value (List.mem_cons_of_mem first isMember)⟩

namespace Statement

mutual

/-- The whole numbers of a statement fit 64 bits if its locations do. -/
theorem wholesFit : (statement : Statement) → (∀ location ∈ statement.locations, location.Fits) →
    WholesFit statement.toJson.leaves
  | .conditional condition thenBranch elseBranch location, fit => by
      simp only [locations, List.forall_mem_cons, List.forall_mem_append] at fit
      simp [toJson, leavesOfMembers, Json.leaves, Location.member, Location.wholesFit_toJson, fit.1,
        condition.wholesFit, wholesFit_all thenBranch fit.2.1,
        wholesFit_branch elseBranch fit.2.2]
  | .loop name iterable body location, fit => by
      simp only [locations, List.forall_mem_cons] at fit
      simp [toJson, leavesOfMembers, Json.leaves, Location.member, Location.wholesFit_toJson, fit.1,
        iterable.wholesFit, wholesFit_all body fit.2]
  | .log message level location, fit => by
      simp [toJson, leavesOfMembers, Location.member, Location.wholesFit_toJson,
        fit location List.mem_cons_self, message.wholesFit, Expression.wholesFit_optional]
  | .alert message severity location, fit => by
      simp [toJson, leavesOfMembers, Location.member, Location.wholesFit_toJson,
        fit location List.mem_cons_self, message.wholesFit, Expression.wholesFit_optional]
  | .notify target message data location, fit => by
      simp [toJson, leavesOfMembers, Location.member, Location.wholesFit_toJson,
        fit location List.mem_cons_self, target.wholesFit, message.wholesFit,
        Expression.wholesFit_optional]
  | .assignment target value location, fit => by
      simp [toJson, leavesOfMembers, Json.leaves, Location.member, Location.wholesFit_toJson,
        fit location List.mem_cons_self, value.wholesFit]
  | .call name arguments location, fit => by
      have argumentsFit := wholesFit_map fun argument (_ : argument ∈ arguments) =>
        argument.wholesFit
      simp [toJson, leavesOfMembers, Json.leaves, Location.member, Location.wholesFit_toJson,
        fit location List.mem_cons_self, argumentsFit]

theorem wholesFit_all : (statements : List Statement) →
    (∀ location ∈ locationsOfAll statements, location.Fits) →
      WholesFit (leavesOfAll (allToJson statements))
  | [], _ => Json.wholesFit_nil
  | first :: rest, fit => by
      rw [locationsOfAll, List.forall_mem_append] at fit
      simp [allToJson, leavesOfAll, wholesFit first fit.1, wholesFit_all rest fit.2]

theorem wholesFit_branch : (branch : Option (List Statement)) →
    (∀ location ∈ locationsOfBranch branch, location.Fits) →
      WholesFit (branchToJson branch).leaves
  | none, _ => by simp [branchToJson, Json.leaves]
  | some branch, fit => wholesFit_all branch fit

end

end Statement

theorem wholesFit_ofOptionalText (text : Option String) :
    WholesFit (Json.ofOptionalText text).leaves := by
  cases text <;> simp [Json.ofOptionalText, Json.ofOption, Json.leaves]

theorem wholesFit_word (number : Option Int64) :
    WholesFit (Json.ofOption (number.map fun number => .integer number.toInt)).leaves := by
  cases number <;> simp [Json.ofOption, Json.leaves, Json.Numeral.fits_toInt]

theorem PropertyItem.wholesFit {item : PropertyItem} (fits : item.location.Fits) :
    WholesFit item.toJson.leaves := by
  simp [toJson, leavesOfMembers, Json.leaves, Location.member, Location.wholesFit_toJson, fits,
    Expression.wholesFit_optional]

theorem wholesFit_configuration (configuration : List (Entry Expression)) :
    WholesFit (leavesOfAll (configuration.map Entry.settingToJson)) := by
  apply wholesFit_map
  intro entry _
  simp [Entry.settingToJson, leavesOfMembers, Json.leaves, entry.value.wholesFit]

theorem Device.wholesFit_sensor {sensor : Device} (fits : sensor.location.Fits) :
    WholesFit sensor.sensorToJson.leaves := by
  simp [sensorToJson, leavesOfMembers, Json.leaves, Location.member, Location.wholesFit_toJson,
    fits, wholesFit_configuration]

theorem Device.wholesFit_actuator {actuator : Device} (fits : actuator.location.Fits) :
    WholesFit actuator.actuatorToJson.leaves := by
  simp [actuatorToJson, leavesOfMembers, Json.leaves, Location.member, Location.wholesFit_toJson,
    fits, wholesFit_configuration]

theorem ActionReference.wholesFit {reference : ActionReference}
    (fits : reference.location.Fits) : WholesFit reference.toJson.leaves := by
  have argumentsFit := wholesFit_map fun argument (_ : argument ∈ reference.arguments) =>
    argument.wholesFit
  simp [toJson, leavesOfMembers, Json.leaves, Location.member, Location.wholesFit_toJson, fits,
    argumentsFit]

theorem Transition.wholesFit {transition : Transition} (fits : transition.location.Fits) :
    WholesFit transition.toJson.leaves := by
  simp [toJson, leavesOfMembers, Json.leaves, Location.member, Location.wholesFit_toJson, fits,
    Expression.wholesFit_optional]

theorem StateItem.wholesFit {state : StateItem}
    (fit : ∀ location ∈ state.locations, location.Fits) : WholesFit state.toJson.leaves := by
  simp only [locations, List.forall_mem_cons, List.forall_mem_append, List.forall_mem_map] at fit
  rcases fit with ⟨fits, ⟨entriesFit, exitsFit⟩, transitionsFit⟩
  have entryLeaves := wholesFit_map fun reference isMember =>
    ActionReference.wholesFit (entriesFit reference isMember)
  have exitLeaves := wholesFit_map fun reference isMember =>
    ActionReference.wholesFit (exitsFit reference isMember)
  have transitionLeaves := wholesFit_map fun transition isMember =>
    Transition.wholesFit (transitionsFit transition isMember)
  simp [toJson, leavesOfMembers, Json.leaves, Location.member, Location.wholesFit_toJson, fits,
    entryLeaves, exitLeaves, transitionLeaves]

theorem TwinReference.wholesFit {reference : TwinReference} (fits : reference.location.Fits) :
    WholesFit reference.toJson.leaves := by
  simp [toJson, leavesOfMembers, Json.leaves, Location.member, Location.wholesFit_toJson, fits,
    wholesFit_ofOptionalText, wholesFit_word]

theorem RuleReference.wholesFit {reference : RuleReference} (fits : reference.location.Fits) :
    WholesFit reference.toJson.leaves := by
  simp [toJson, leavesOfMembers, Json.leaves, Location.member, Location.wholesFit_toJson, fits]

theorem Parameter.wholesFit {parameter : Parameter} (fits : parameter.location.Fits) :
    WholesFit parameter.toJson.leaves := by
  simp [toJson, leavesOfMembers, Json.leaves, Location.member, Location.wholesFit_toJson, fits]

/-- The whole numbers of a declaration fit 64 bits if its locations do. -/
theorem Declaration.wholesFit {declaration : Declaration}
    (fit : ∀ location ∈ declaration.locations, location.Fits) :
    WholesFit declaration.toJson.leaves := by
  cases declaration with
  | twin declared =>
      simp only [locations, List.forall_mem_cons, List.forall_mem_append, List.forall_mem_map,
        List.forall_mem_flatMap] at fit
      rcases fit with ⟨fits, ⟨⟨propertiesFit, sensorsFit⟩, actuatorsFit⟩, statesFit⟩
      have propertyLeaves := wholesFit_map fun item isMember =>
        PropertyItem.wholesFit (propertiesFit item isMember)
      have sensorLeaves := wholesFit_map fun sensor isMember =>
        Device.wholesFit_sensor (sensorsFit sensor isMember)
      have actuatorLeaves := wholesFit_map fun actuator isMember =>
        Device.wholesFit_actuator (actuatorsFit actuator isMember)
      have stateLeaves := wholesFit_map fun state isMember =>
        StateItem.wholesFit (statesFit state isMember)
      simp [toJson, members, leavesOfMembers, Json.leaves, Location.member,
        Location.wholesFit_toJson, fits, wholesFit_ofOptionalText, propertyLeaves, sensorLeaves,
        actuatorLeaves, stateLeaves]
  | swarm declared =>
      simp only [locations, List.forall_mem_cons, List.forall_mem_append,
        List.forall_mem_map] at fit
      rcases fit with ⟨fits, twinsFit, rulesFit⟩
      have twinLeaves := wholesFit_map fun reference isMember =>
        TwinReference.wholesFit (twinsFit reference isMember)
      have ruleLeaves := wholesFit_map fun reference isMember =>
        RuleReference.wholesFit (rulesFit reference isMember)
      simp [toJson, members, leavesOfMembers, Json.leaves, Location.member,
        Location.wholesFit_toJson, fits, twinLeaves, ruleLeaves]
  | event declared =>
      simp only [locations, List.forall_mem_cons, List.forall_mem_map] at fit
      have parameterLeaves := wholesFit_map fun parameter isMember =>
        Parameter.wholesFit (fit.2 parameter isMember)
      simp [toJson, members, leavesOfMembers, Json.leaves, Location.member,
        Location.wholesFit_toJson, fit.1, parameterLeaves]
  | action declared =>
      simp only [locations, List.forall_mem_cons, List.forall_mem_append,
        List.forall_mem_map] at fit
      rcases fit with ⟨fits, parametersFit, bodyFit⟩
      have parameterLeaves := wholesFit_map fun parameter isMember =>
        Parameter.wholesFit (parametersFit parameter isMember)
      have bodyLeaves := Statement.wholesFit_all declared.body bodyFit
      rw [Statement.allToJson_eq_map] at bodyLeaves
      simp [toJson, members, leavesOfMembers, Json.leaves, Location.member,
        Location.wholesFit_toJson, fits, parameterLeaves, bodyLeaves]
  | rule declared =>
      simp only [locations, List.forall_mem_cons] at fit
      have actionLeaves := Statement.wholesFit_all declared.actions fit.2
      rw [Statement.allToJson_eq_map] at actionLeaves
      simp [toJson, members, leavesOfMembers, Json.leaves, Location.member,
        Location.wholesFit_toJson, fit.1, Expression.wholesFit_optional, actionLeaves]
  | imported declared =>
      simp [toJson, members, leavesOfMembers, Json.leaves, Location.member,
        Location.wholesFit_toJson, fit declared.location List.mem_cons_self,
        wholesFit_ofOptionalText]

theorem Program.wholesFit {program : Program}
    (fit : ∀ location ∈ program.locations, location.Fits) : WholesFit program.toJson.leaves := by
  have declarationLeaves := wholesFit_map fun declaration isMember =>
    Declaration.wholesFit fun location isLocation =>
      fit location (List.mem_flatMap_of_mem isMember isLocation)
  simp [toJson, leavesOfMembers, Json.leaves, declarationLeaves]

end TwinSwarm
