import TwinSwarm.Tree.Statement

/-!
# Programs

The tree form of a program: declarations of twins, swarms, events, actions, rules
and imports.  A twin holds its properties, devices and states by kind, each kind in
the order of the source.
-/

namespace TwinSwarm

/-- A typed value of a twin, with the value it starts from. -/
structure PropertyItem where
  name : String
  type : String
  default : Option Expression
  location : Location
  deriving Repr, DecidableEq, Inhabited

/-- A sensor or an actuator of a twin, with its configuration. -/
structure Device where
  name : String
  type : String
  configuration : List (Entry Expression)
  location : Location
  deriving Repr, DecidableEq, Inhabited

/-- An action that a state calls when it is entered or left. -/
structure ActionReference where
  name : String
  arguments : List Expression
  location : Location
  deriving Repr, DecidableEq, Inhabited

/-- A way from one state to another. -/
structure Transition where
  target : String
  condition : Option Expression
  location : Location
  deriving Repr, DecidableEq, Inhabited

/-- A state of a twin. -/
structure StateItem where
  name : String
  entryActions : List ActionReference
  exitActions : List ActionReference
  transitions : List Transition
  location : Location
  deriving Repr, DecidableEq, Inhabited

/-- The model of one kind of thing. -/
structure Twin where
  name : String
  parent : Option String
  properties : List PropertyItem
  sensors : List Device
  actuators : List Device
  states : List StateItem
  location : Location
  deriving Repr, DecidableEq, Inhabited

/-- A twin as a member of a swarm. -/
structure TwinReference where
  type : String
  instanceName : Option String
  count : Option Int64
  location : Location
  deriving Repr, DecidableEq, Inhabited

/-- A rule as a member of a swarm. -/
structure RuleReference where
  name : String
  location : Location
  deriving Repr, DecidableEq, Inhabited

/-- A group of twins and the rules that hold for them. -/
structure Swarm where
  name : String
  twins : List TwinReference
  rules : List RuleReference
  location : Location
  deriving Repr, DecidableEq, Inhabited

/-- A typed parameter of an event or an action. -/
structure Parameter where
  name : String
  type : String
  location : Location
  deriving Repr, DecidableEq, Inhabited

/-- Something that may happen. -/
structure Event where
  name : String
  parameters : List Parameter
  location : Location
  deriving Repr, DecidableEq, Inhabited

/-- A named list of statements. -/
structure Action where
  name : String
  parameters : List Parameter
  body : List Statement
  location : Location
  deriving Repr, DecidableEq, Inhabited

/-- Statements that run when a condition holds.  A rule that was read from a source
text always has a condition. -/
structure Rule where
  name : String
  condition : Option Expression
  actions : List Statement
  location : Location
  deriving Repr, DecidableEq, Inhabited

/-- A name that is taken from elsewhere. -/
structure Import where
  name : String
  path : Option String
  location : Location
  deriving Repr, DecidableEq, Inhabited

/-- A declaration. -/
inductive Declaration where
  | twin (declared : Twin)
  | swarm (declared : Swarm)
  | event (declared : Event)
  | action (declared : Action)
  | rule (declared : Rule)
  | imported (declared : Import)
  deriving Repr, DecidableEq, Inhabited

namespace Declaration

/-- The declared name. -/
def name : Declaration → String
  | .twin declared => declared.name
  | .swarm declared => declared.name
  | .event declared => declared.name
  | .action declared => declared.name
  | .rule declared => declared.name
  | .imported declared => declared.name

/-- Where the declaration starts. -/
def location : Declaration → Location
  | .twin declared => declared.location
  | .swarm declared => declared.location
  | .event declared => declared.location
  | .action declared => declared.location
  | .rule declared => declared.location
  | .imported declared => declared.location

/-- The name of the kind of node. -/
def typeName : Declaration → String
  | .twin _ => "twin_declaration"
  | .swarm _ => "swarm_declaration"
  | .event _ => "event_declaration"
  | .action _ => "action_declaration"
  | .rule _ => "rule_declaration"
  | .imported _ => "import_declaration"

end Declaration

/-- A program. -/
structure Program where
  declarations : List Declaration
  deriving Repr, DecidableEq, Inhabited

namespace Program

/-- The program without declarations. -/
def empty : Program := ⟨[]⟩

end Program

end TwinSwarm
