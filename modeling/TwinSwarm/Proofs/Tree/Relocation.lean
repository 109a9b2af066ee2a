import TwinSwarm.Gap
import TwinSwarm.Token

/-!
# Trees at other places

A tree is moved by moving each of its locations.  Nothing else in it changes, so the moved
tree has the same gaps, at the moved places.
-/

namespace TwinSwarm

namespace Location

/-- The place some lines further down, in the same column. -/
def down (lines : Nat) (location : Location) : Location :=
  ⟨location.line + lines, location.column⟩

end Location

section Moves

variable (move : Location → Location)

/-- The token at its new place. -/
def Token.relocated (token : Token) : Token :=
  { token with location := move token.location }

namespace Statement

mutual

/-- The statement and the statements inside at their new places. -/
def relocated : Statement → Statement
  | .conditional condition thenBranch elseBranch location =>
      .conditional condition (relocatedAll thenBranch) (relocatedBranch elseBranch)
        (move location)
  | .loop name iterable body location =>
      .loop name iterable (relocatedAll body) (move location)
  | .log message level location => .log message level (move location)
  | .alert message severity location => .alert message severity (move location)
  | .notify target message data location => .notify target message data (move location)
  | .assignment target value location => .assignment target value (move location)
  | .call name arguments location => .call name arguments (move location)

/-- Several statements at their new places. -/
def relocatedAll : List Statement → List Statement
  | [] => []
  | first :: rest => relocated first :: relocatedAll rest

/-- A branch that may be absent, with its statements at their new places. -/
def relocatedBranch : Option (List Statement) → Option (List Statement)
  | none => none
  | some branch => some (relocatedAll branch)

end

theorem relocatedAll_eq_map (statements : List Statement) :
    relocatedAll move statements = statements.map (relocated move) := by
  induction statements with
  | nil => rfl
  | cons first rest ih => rw [relocatedAll, ih, List.map_cons]

end Statement

/-- The property at its new place. -/
def PropertyItem.relocated (item : PropertyItem) : PropertyItem :=
  { item with location := move item.location }

/-- The device at its new place. -/
def Device.relocated (device : Device) : Device :=
  { device with location := move device.location }

/-- The reference at its new place. -/
def ActionReference.relocated (reference : ActionReference) : ActionReference :=
  { reference with location := move reference.location }

/-- The transition at its new place. -/
def Transition.relocated (transition : Transition) : Transition :=
  { transition with location := move transition.location }

/-- The state and its parts at their new places. -/
def StateItem.relocated (state : StateItem) : StateItem :=
  { state with
    entryActions := state.entryActions.map (ActionReference.relocated move)
    exitActions := state.exitActions.map (ActionReference.relocated move)
    transitions := state.transitions.map (Transition.relocated move)
    location := move state.location }

/-- The twin and its parts at their new places. -/
def Twin.relocated (twin : Twin) : Twin :=
  { twin with
    properties := twin.properties.map (PropertyItem.relocated move)
    sensors := twin.sensors.map (Device.relocated move)
    actuators := twin.actuators.map (Device.relocated move)
    states := twin.states.map (StateItem.relocated move)
    location := move twin.location }

/-- The reference at its new place. -/
def TwinReference.relocated (reference : TwinReference) : TwinReference :=
  { reference with location := move reference.location }

/-- The reference at its new place. -/
def RuleReference.relocated (reference : RuleReference) : RuleReference :=
  { reference with location := move reference.location }

/-- The swarm and its members at their new places. -/
def Swarm.relocated (swarm : Swarm) : Swarm :=
  { swarm with
    twins := swarm.twins.map (TwinReference.relocated move)
    rules := swarm.rules.map (RuleReference.relocated move)
    location := move swarm.location }

/-- The parameter at its new place. -/
def Parameter.relocated (parameter : Parameter) : Parameter :=
  { parameter with location := move parameter.location }

/-- The event and its parameters at their new places. -/
def Event.relocated (event : Event) : Event :=
  { event with
    parameters := event.parameters.map (Parameter.relocated move)
    location := move event.location }

/-- The action and its parts at their new places. -/
def Action.relocated (action : Action) : Action :=
  { action with
    parameters := action.parameters.map (Parameter.relocated move)
    body := action.body.map (Statement.relocated move)
    location := move action.location }

/-- The rule and its statements at their new places. -/
def Rule.relocated (rule : Rule) : Rule :=
  { rule with
    actions := rule.actions.map (Statement.relocated move)
    location := move rule.location }

/-- The import at its new place. -/
def Import.relocated (imported : Import) : Import :=
  { imported with location := move imported.location }

/-- The declaration and its parts at their new places. -/
def Declaration.relocated : Declaration → Declaration
  | .twin declared => .twin (declared.relocated move)
  | .swarm declared => .swarm (declared.relocated move)
  | .event declared => .event (declared.relocated move)
  | .action declared => .action (declared.relocated move)
  | .rule declared => .rule (declared.relocated move)
  | .imported declared => .imported (declared.relocated move)

/-- The program with all its parts at their new places. -/
def Program.relocated (program : Program) : Program :=
  ⟨program.declarations.map (Declaration.relocated move)⟩

/-! ## Gaps -/

/-- The gap at its new place. -/
def Gap.relocated (gap : Gap) : Gap :=
  { gap with location := move gap.location }

@[simp] theorem Gap.ofText_relocated (text missing owner : String) (location : Location) :
    ofText text missing owner (move location) =
      (ofText text missing owner location).map (Gap.relocated move) := by
  simp only [ofText]
  split <;> rfl

@[simp] theorem Gap.ofOptionalText_relocated (text : Option String) (missing owner : String)
    (location : Location) :
    ofOptionalText text missing owner (move location) =
      (ofOptionalText text missing owner location).map (Gap.relocated move) := by
  cases text with
  | none => rfl
  | some text => exact Gap.ofText_relocated move text missing owner location

namespace Expression

mutual

@[simp] theorem gaps_relocated (owner : String) (location : Location) :
    (expression : Expression) →
      gaps owner (move location) expression =
        (gaps owner location expression).map (Gap.relocated move)
  | .binary _ left right => by simp [gaps, gaps_relocated owner location left,
      gaps_relocated owner location right]
  | .unary _ operand => by simp [gaps, gaps_relocated owner location operand]
  | .literal _ => rfl
  | .grouping inner => by simp [gaps, gaps_relocated owner location inner]
  | .array elements => by simp [gaps, gapsOfAll_relocated owner location elements]
  | .object entries => by simp [gaps, gapsOfEntries_relocated owner location entries]
  | .reference _ => by simp [gaps]
  | .call _ arguments => by simp [gaps, gapsOfAll_relocated owner location arguments]
  | .property .. => by simp [gaps]

@[simp] theorem gapsOfAll_relocated (owner : String) (location : Location) :
    (expressions : List Expression) →
      gapsOfAll owner (move location) expressions =
        (gapsOfAll owner location expressions).map (Gap.relocated move)
  | [] => rfl
  | first :: rest => by simp [gapsOfAll, gaps_relocated owner location first,
      gapsOfAll_relocated owner location rest]

theorem gapsOfEntries_relocated (owner : String) (location : Location) :
    (entries : List (Entry Expression)) →
      gapsOfEntries owner (move location) entries =
        (gapsOfEntries owner location entries).map (Gap.relocated move)
  | [] => rfl
  | ⟨_, value⟩ :: rest => by simp [gapsOfEntries, gaps_relocated owner location value,
      gapsOfEntries_relocated owner location rest]

end

@[simp] theorem gapsOfOptional_relocated (owner : String) (location : Location)
    (expression : Option Expression) :
    gapsOfOptional owner (move location) expression =
      (gapsOfOptional owner location expression).map (Gap.relocated move) := by
  cases expression with
  | none => rfl
  | some expression => exact gaps_relocated move owner location expression

end Expression

namespace Statement

mutual

theorem gaps_relocated : (statement : Statement) →
    (statement.relocated move).gaps = statement.gaps.map (Gap.relocated move)
  | .conditional _ thenBranch elseBranch _ => by
      simp [gaps, relocated, gapsOfAll_relocated thenBranch, gapsOfBranch_relocated elseBranch]
  | .loop _ _ body _ => by simp [gaps, relocated, gapsOfAll_relocated body]
  | .log .. | .alert .. | .notify .. | .assignment .. | .call .. => by simp [gaps, relocated]

theorem gapsOfAll_relocated : (statements : List Statement) →
    gapsOfAll (relocatedAll move statements) =
      (gapsOfAll statements).map (Gap.relocated move)
  | [] => rfl
  | first :: rest => by simp [gapsOfAll, relocatedAll, gaps_relocated first,
      gapsOfAll_relocated rest]

theorem gapsOfBranch_relocated : (branch : Option (List Statement)) →
    gapsOfBranch (relocatedBranch move branch) =
      (gapsOfBranch branch).map (Gap.relocated move)
  | none => rfl
  | some branch => gapsOfAll_relocated branch

end

end Statement

/-- Where the parts of a node have the same gaps at their new places, so have all of them. -/
theorem flatMap_gaps_relocated {α : Type} {gapsOf : α → List Gap} {relocated : α → α}
    (ofEach : ∀ part, gapsOf (relocated part) = (gapsOf part).map (Gap.relocated move))
    (parts : List α) :
    (parts.map relocated).flatMap gapsOf = (parts.flatMap gapsOf).map (Gap.relocated move) := by
  rw [List.flatMap_map, List.map_flatMap]
  simp only [ofEach]

theorem PropertyItem.gaps_relocated (item : PropertyItem) :
    (item.relocated move).gaps = item.gaps.map (Gap.relocated move) := by
  simp [gaps, relocated]

theorem Device.gaps_relocated (typeName : String) (device : Device) :
    (device.relocated move).gaps typeName = (device.gaps typeName).map (Gap.relocated move) := by
  have entries (owner : String) : Entry.configurationGaps owner (move device.location) =
      fun entry => (entry.configurationGaps owner device.location).map (Gap.relocated move) := by
    funext entry
    simp [Entry.configurationGaps]
  simp [gaps, relocated, entries, List.map_flatMap]

theorem ActionReference.gaps_relocated (reference : ActionReference) :
    (reference.relocated move).gaps = reference.gaps.map (Gap.relocated move) := by
  simp [gaps, relocated]

theorem Transition.gaps_relocated (state : String) (transition : Transition) :
    (transition.relocated move).gaps state =
      (transition.gaps state).map (Gap.relocated move) := by
  simp [gaps, relocated]

theorem StateItem.gaps_relocated (state : StateItem) :
    (state.relocated move).gaps = state.gaps.map (Gap.relocated move) := by
  simp only [gaps, relocated, Gap.ofText_relocated, List.flatMap_append, List.map_append,
    flatMap_gaps_relocated move (ActionReference.gaps_relocated move),
    flatMap_gaps_relocated move (Transition.gaps_relocated move _)]

theorem Twin.gaps_relocated (owner : String) (twin : Twin) :
    (twin.relocated move).gaps owner = (twin.gaps owner).map (Gap.relocated move) := by
  simp only [gaps, relocated, Gap.ofOptionalText_relocated, List.map_append,
    flatMap_gaps_relocated move (PropertyItem.gaps_relocated move),
    flatMap_gaps_relocated move (Device.gaps_relocated move _),
    flatMap_gaps_relocated move (StateItem.gaps_relocated move)]

theorem TwinReference.gaps_relocated (reference : TwinReference) :
    (reference.relocated move).gaps = reference.gaps.map (Gap.relocated move) := by
  simp [gaps, relocated]

theorem RuleReference.gaps_relocated (reference : RuleReference) :
    (reference.relocated move).gaps = reference.gaps.map (Gap.relocated move) := by
  simp [gaps, relocated]

theorem Swarm.gaps_relocated (swarm : Swarm) :
    (swarm.relocated move).gaps = swarm.gaps.map (Gap.relocated move) := by
  simp only [gaps, relocated, List.map_append,
    flatMap_gaps_relocated move (TwinReference.gaps_relocated move),
    flatMap_gaps_relocated move (RuleReference.gaps_relocated move)]

theorem Parameter.gaps_relocated (parameter : Parameter) :
    (parameter.relocated move).gaps = parameter.gaps.map (Gap.relocated move) := by
  simp [gaps, relocated]

theorem Action.gaps_relocated (action : Action) :
    (action.relocated move).gaps = action.gaps.map (Gap.relocated move) := by
  simp only [gaps, relocated, List.map_append,
    flatMap_gaps_relocated move (Parameter.gaps_relocated move),
    ← Statement.relocatedAll_eq_map, Statement.gapsOfAll_relocated]

theorem Rule.gaps_relocated (owner : String) (rule : Rule) :
    (rule.relocated move).gaps owner = (rule.gaps owner).map (Gap.relocated move) := by
  have condition : (rule.relocated move).conditionGaps owner =
      (rule.conditionGaps owner).map (Gap.relocated move) := by
    simp only [conditionGaps, relocated]
    cases rule.condition with
    | none => rfl
    | some condition => exact Expression.gaps_relocated move owner rule.location condition
  have idle : (rule.relocated move).actions = [] ↔ rule.actions = [] := List.map_eq_nil_iff
  simp only [gaps, condition, idle, List.map_append]
  simp only [relocated, ← Statement.relocatedAll_eq_map, Statement.gapsOfAll_relocated]
  split <;> rfl

theorem Declaration.gaps_relocated (declaration : Declaration) :
    (declaration.relocated move).gaps = declaration.gaps.map (Gap.relocated move) := by
  cases declaration with
  | twin declared =>
      simp only [gaps, relocated, List.map_append, Twin.gaps_relocated]
      exact congrArg (· ++ _) (Gap.ofText_relocated ..)
  | swarm declared =>
      simp only [gaps, relocated, List.map_append, Swarm.gaps_relocated]
      exact congrArg (· ++ _) (Gap.ofText_relocated ..)
  | event declared =>
      simp only [gaps, relocated, List.map_append, Event.relocated,
        flatMap_gaps_relocated move (Parameter.gaps_relocated move)]
      exact congrArg (· ++ _) (Gap.ofText_relocated ..)
  | action declared =>
      simp only [gaps, relocated, List.map_append, Action.gaps_relocated]
      exact congrArg (· ++ _) (Gap.ofText_relocated ..)
  | rule declared =>
      simp only [gaps, relocated, List.map_append]
      rw [← Rule.gaps_relocated]
      exact congrArg (· ++ _) (Gap.ofText_relocated ..)
  | imported declared =>
      simp only [gaps, relocated, List.map_append]
      rw [Import.gaps, Import.gaps, ← Gap.ofOptionalText_relocated]
      exact congrArg (· ++ _) (Gap.ofText_relocated ..)

/-- A moved program has the same gaps at the moved places. -/
theorem Program.gaps_relocated (program : Program) :
    (program.relocated move).gaps = program.gaps.map (Gap.relocated move) :=
  flatMap_gaps_relocated move (Declaration.gaps_relocated move) program.declarations

end Moves

end TwinSwarm
