import TwinSwarm.Proofs.Grammar.Recogniser
import TwinSwarm.Proofs.Tree.Location

/-!
# Nodes with a place

Declarations, their items and statements know where they start.  Each of them begins with a
token whose kind and text the node itself tells: a keyword for most of them, a name for
parameters, assignments and calls.
-/

namespace TwinSwarm

/-- A node that has a place.  An action that a state calls is told apart by whether it is called
when the state is entered or when it is left. -/
inductive Placed where
  | declaration (declared : Declaration)
  | property (item : PropertyItem)
  | sensor (device : Device)
  | actuator (device : Device)
  | state (item : StateItem)
  | entry (called : ActionReference)
  | exit (called : ActionReference)
  | transition (item : Transition)
  | twin (member : TwinReference)
  | rule (member : RuleReference)
  | parameter (item : Parameter)
  | statement (tree : Statement)

/-! ## The first token of a node -/

/-- The keyword of a declaration. -/
def Declaration.word : Declaration → String
  | .twin _ => "twin"
  | .swarm _ => "swarm"
  | .event _ => "event"
  | .action _ => "action"
  | .rule _ => "rule"
  | .imported _ => "import"

/-- The token that a statement begins with. -/
def Statement.first : Statement → Token
  | .conditional _ _ _ place => .ofKeyword "if" place
  | .loop _ _ _ place => .ofKeyword "for" place
  | .log _ _ place => .ofKeyword "log" place
  | .alert _ _ place => .ofKeyword "alert" place
  | .notify _ _ _ place => .ofKeyword "notify" place
  | .assignment target _ place => .ofName target place
  | .call name _ place => .ofName name place

namespace Placed

/-- The token that a node begins with. -/
def first : Placed → Token
  | declaration declared => .ofKeyword declared.word declared.location
  | property item => .ofKeyword "property" item.location
  | sensor device => .ofKeyword "sensor" device.location
  | actuator device => .ofKeyword "actuator" device.location
  | state item => .ofKeyword "state" item.location
  | entry called => .ofKeyword "entry" called.location
  | exit called => .ofKeyword "exit" called.location
  | transition item => .ofKeyword "transition" item.location
  | twin member => .ofKeyword "twin" member.location
  | rule member => .ofKeyword "rule" member.location
  | parameter item => .ofName item.name item.location
  | statement tree => tree.first

/-- The place of a node. -/
def location (node : Placed) : Location := node.first.location

end Placed

/-! ## The nodes of a tree -/

namespace Statement

mutual

/-- A statement and the statements inside. -/
def placed : Statement → List Placed
  | .conditional condition thenBranch elseBranch place =>
      .statement (.conditional condition thenBranch elseBranch place) ::
        (placedOfAll thenBranch ++ placedOfBranch elseBranch)
  | .loop name iterable body place =>
      .statement (.loop name iterable body place) :: placedOfAll body
  | .log message level place => [.statement (.log message level place)]
  | .alert message severity place => [.statement (.alert message severity place)]
  | .notify target message data place => [.statement (.notify target message data place)]
  | .assignment target value place => [.statement (.assignment target value place)]
  | .call name arguments place => [.statement (.call name arguments place)]

/-- Several statements and the statements inside. -/
def placedOfAll : List Statement → List Placed
  | [] => []
  | first :: rest => placed first ++ placedOfAll rest

/-- The statements of a branch that may be absent. -/
def placedOfBranch : Option (List Statement) → List Placed
  | none => []
  | some branch => placedOfAll branch

end

mutual

theorem map_location_placed : (statement : Statement) →
    statement.placed.map Placed.location = statement.locations
  | .conditional _ thenBranch elseBranch _ => by
      simp only [placed, locations, List.map_cons, List.map_append,
        map_location_placedOfAll thenBranch, map_location_placedOfBranch elseBranch]
      rfl
  | .loop _ _ body _ => by
      simp only [placed, locations, List.map_cons, map_location_placedOfAll body]
      rfl
  | .log .. | .alert .. | .notify .. | .assignment .. | .call .. => by
      simp only [placed, locations]
      rfl

theorem map_location_placedOfAll : (statements : List Statement) →
    (placedOfAll statements).map Placed.location = locationsOfAll statements
  | [] => rfl
  | first :: rest => by
      rw [placedOfAll, locationsOfAll, List.map_append, map_location_placed first,
        map_location_placedOfAll rest]

theorem map_location_placedOfBranch : (branch : Option (List Statement)) →
    (placedOfBranch branch).map Placed.location = locationsOfBranch branch
  | none => rfl
  | some branch => map_location_placedOfAll branch

end

theorem placedOfAll_eq_flatMap (statements : List Statement) :
    placedOfAll statements = statements.flatMap placed := by
  induction statements with
  | nil => rfl
  | cons first rest fromRest => rw [placedOfAll, fromRest, List.flatMap_cons]

end Statement

/-- A state and its parts. -/
def StateItem.placed (state : StateItem) : List Placed :=
  .state state :: (state.entryActions.map .entry ++ state.exitActions.map .exit ++
    state.transitions.map .transition)

namespace Declaration

/-- The parts of a declaration that have a place, at any depth. -/
def placedInside : Declaration → List Placed
  | .twin declared =>
      declared.properties.map .property ++ declared.sensors.map .sensor ++
        declared.actuators.map .actuator ++ declared.states.flatMap StateItem.placed
  | .swarm declared => declared.twins.map .twin ++ declared.rules.map .rule
  | .event declared => declared.parameters.map .parameter
  | .action declared =>
      declared.parameters.map .parameter ++ Statement.placedOfAll declared.body
  | .rule declared => Statement.placedOfAll declared.actions
  | .imported _ => []

/-- A declaration and its parts that have a place. -/
def placed (declared : Declaration) : List Placed :=
  .declaration declared :: declared.placedInside

/-- The places of a declaration are those of the nodes that have one. -/
theorem map_location_placed (declared : Declaration) :
    declared.placed.map Placed.location = declared.locations := by
  have ofState (state : StateItem) : state.placed.map Placed.location = state.locations := by
    simp [StateItem.placed, StateItem.locations, Placed.location, Placed.first,
      Function.comp_def]
  have ofStates (states : List StateItem) :
      (states.flatMap StateItem.placed).map Placed.location =
        states.flatMap StateItem.locations := by
    rw [List.map_flatMap]
    exact List.flatMap_congr fun state _ => ofState state
  have itself : (Placed.declaration declared).location = declared.location := rfl
  rw [placed, List.map_cons, itself]
  cases declared with
  | twin declared | swarm declared | event declared | imported declared =>
      simp [placedInside, locations, Placed.location, Placed.first, Declaration.location,
        Function.comp_def, ofStates]
  | action declared | rule declared =>
      simp [placedInside, locations, Placed.location, Placed.first, Declaration.location,
        Function.comp_def, Statement.map_location_placedOfAll]

end Declaration

/-- The nodes of a program that have a place. -/
def Program.placed (program : Program) : List Placed :=
  program.declarations.flatMap Declaration.placed

theorem Program.map_location_placed (program : Program) :
    program.placed.map Placed.location = program.locations := by
  rw [placed, List.map_flatMap]
  exact List.flatMap_congr fun declared _ => declared.map_location_placed

end TwinSwarm
