import TwinSwarm.Grammar.Statement
import TwinSwarm.Tree.Program

/-!
# The grammar of declarations

    declaration   = twin | swarm | event | action | rule | inclusion
    twin          = "twin" name [ "extends" name ] "{" { property | device | state } "}"
    property      = "property" name ":" type [ "=" expression ] ";"
    device        = ( "sensor" | "actuator" ) name ":" type ( configuration | ";" )
    configuration = "{" [ setting { "," setting } [ "," ] ] "}"
    setting       = name ":" expression
    state         = "state" name "{" { clause } "}"
    clause        = "entry" reference ";" | "exit" reference ";"
                  | "transition" name [ "when" expression ] ";"
    reference     = name [ "(" [ expression { "," expression } ] ")" ]
    swarm         = "swarm" name "{" { member } "}"
    member        = "twin" name [ "as" name ] [ "[" integer "]" ] ";" | "rule" name ";"
    event         = "event" name [ parameters ] ";"
    action        = "action" name [ parameters ] block
    parameters    = "(" [ name ":" type { "," name ":" type } ] ")"
    rule          = "rule" name "{" "when" expression ";" "then" block "}"
    inclusion     = "import" name [ "from" string ] ";"

Neither a declaration nor an item of a twin or a swarm spends any of the nesting
budget.
-/

namespace TwinSwarm.Grammar

/-! ## Twins -/

/-- An item of a twin. -/
inductive TwinItem where
  | property (item : PropertyItem)
  | sensor (item : Device)
  | actuator (item : Device)
  | state (item : StateItem)
  deriving Repr, DecidableEq, Inhabited

namespace TwinItem

/-- The property that the item is. -/
def property? : TwinItem → Option PropertyItem
  | .property item => some item
  | _ => none

/-- The sensor that the item is. -/
def sensor? : TwinItem → Option Device
  | .sensor item => some item
  | _ => none

/-- The actuator that the item is. -/
def actuator? : TwinItem → Option Device
  | .actuator item => some item
  | _ => none

/-- The state that the item is. -/
def state? : TwinItem → Option StateItem
  | .state item => some item
  | _ => none

end TwinItem

/-- The rest of a property, behind its keyword. -/
def propertyItem (budget : Nat) (location : Location) : Recogniser PropertyItem := do
  let name ← identifier "after 'property'"
  mark ":" "after property name"
  let type ← identifier "as property type"
  if ← accept .operator "=" then
    let value ← expression budget
    semicolon "after property declaration"
    return ⟨name, type, some value, location⟩
  else
    semicolon "after property declaration"
    return ⟨name, type, none, location⟩

/-- A key and a value of a configuration. -/
def setting (budget : Nat) : Recogniser (Entry Expression) := do
  let key ← identifier "as configuration key"
  mark ":" "after configuration key"
  return ⟨key, ← expression budget⟩

/-- The rest of a sensor or an actuator, behind its keyword. -/
def device (budget : Nat) (word : String) (location : Location) : Recogniser Device := do
  let name ← identifier ("after '" ++ word ++ "'")
  mark ":" ("after " ++ word ++ " name")
  let type ← identifier ("as " ++ word ++ " type")
  if ← accept .punctuation "\x7b" then
    let configuration ← listedUpTo "\x7d" (setting budget)
    mark "\x7d" ("after " ++ word ++ " configuration")
    return ⟨name, type, configuration, location⟩
  else
    demand .punctuation ";" (.deviceEnd word)
    return ⟨name, type, [], location⟩

/-- A reference to an action, with its arguments. -/
def actionReference (budget : Nat) (location : Location) : Recogniser ActionReference := do
  let name ← identifier "as action reference"
  if ← accept .punctuation "(" then
    let arguments ← arguments budget
    mark ")" "after action arguments"
    return ⟨name, arguments, location⟩
  else return ⟨name, [], location⟩

/-- The rest of a transition, behind its keyword. -/
def transition (budget : Nat) (location : Location) : Recogniser Transition := do
  let target ← identifier "as transition target"
  if ← accept .keyword "when" then
    let condition ← expression budget
    semicolon "after transition"
    return ⟨target, some condition, location⟩
  else
    semicolon "after transition"
    return ⟨target, none, location⟩

/-- A clause of a state. -/
inductive StateClause where
  | entry (reference : ActionReference)
  | exit (reference : ActionReference)
  | transition (item : Transition)
  deriving Repr, DecidableEq, Inhabited

namespace StateClause

/-- The action that is called when the state is entered. -/
def entry? : StateClause → Option ActionReference
  | .entry reference => some reference
  | _ => none

/-- The action that is called when the state is left. -/
def exit? : StateClause → Option ActionReference
  | .exit reference => some reference
  | _ => none

/-- The transition that the clause is. -/
def transition? : StateClause → Option Transition
  | .transition item => some item
  | _ => none

end StateClause

/-- A clause of a state. -/
def stateClause (budget : Nat) : Recogniser StateClause := do
  let location ← here
  if ← accept .keyword "entry" then
    let reference ← actionReference budget location
    semicolon "after entry action"
    return .entry reference
  else if ← accept .keyword "exit" then
    let reference ← actionReference budget location
    semicolon "after exit action"
    return .exit reference
  else if ← accept .keyword "transition" then
    return .transition (← transition budget location)
  else fail (.expected .stateClause)

/-- The rest of a state, behind its keyword. -/
def stateItem (budget : Nat) (location : Location) : Recogniser StateItem := do
  let name ← identifier "after 'state'"
  mark "\x7b" "after state name"
  let clauses ← repeatedUpTo "\x7d" (stateClause budget)
  mark "\x7d" "after state body"
  -- Clauses of one kind keep their order, but how the kinds alternate is lost.
  return {
    name
    entryActions := clauses.filterMap StateClause.entry?
    exitActions := clauses.filterMap StateClause.exit?
    transitions := clauses.filterMap StateClause.transition?
    location }

/-- An item of a twin. -/
def twinItem (budget : Nat) : Recogniser TwinItem := do
  let location ← here
  if ← accept .keyword "property" then return .property (← propertyItem budget location)
  else if ← accept .keyword "sensor" then return .sensor (← device budget "sensor" location)
  else if ← accept .keyword "actuator" then
    return .actuator (← device budget "actuator" location)
  else if ← accept .keyword "state" then return .state (← stateItem budget location)
  else fail (.expected .twinItem)

/-- An identifier behind a keyword, if the keyword is there. -/
def identifierBehind (word place : String) : Recogniser (Option String) := do
  if ← accept .keyword word then return some (← identifier place)
  return none

/-- The rest of a twin, behind its keyword. -/
def twin (budget : Nat) (location : Location) : Recogniser Twin := do
  let name ← identifier "after 'twin'"
  let parent ← identifierBehind "extends" "after 'extends'"
  mark "\x7b" "after twin name"
  let items ← repeatedUpTo "\x7d" (twinItem budget)
  mark "\x7d" "after twin body"
  return {
    name
    parent
    properties := items.filterMap TwinItem.property?
    sensors := items.filterMap TwinItem.sensor?
    actuators := items.filterMap TwinItem.actuator?
    states := items.filterMap TwinItem.state?
    location }

/-! ## Swarms -/

/-- A member of a swarm. -/
inductive SwarmMember where
  | twin (reference : TwinReference)
  | rule (reference : RuleReference)
  deriving Repr, DecidableEq, Inhabited

namespace SwarmMember

/-- The twin that the member is. -/
def twin? : SwarmMember → Option TwinReference
  | .twin reference => some reference
  | _ => none

/-- The rule that the member is. -/
def rule? : SwarmMember → Option RuleReference
  | .rule reference => some reference
  | _ => none

end SwarmMember

/-- The number of instances of a twin. -/
def instanceCount : Recogniser Int64
  | [] => .error ⟨.expected .instanceCount, []⟩
  | token :: rest =>
      if token.kind = .number ∧ '.' ∉ token.text.toList then
        match Numeral.integer? token.text.toList with
        | some count => .ok (count, rest)
        | none => .error ⟨.invalidCount token.text, token :: rest⟩
      else .error ⟨.expected .instanceCount, token :: rest⟩

/-- A number of instances in brackets, if the bracket is there. -/
def bracketedCount : Recogniser (Option Int64) := do
  if ← accept .punctuation "[" then
    let count ← instanceCount
    mark "]" "after instance count"
    return some count
  return none

/-- The rest of a reference to a twin, behind its keyword. -/
def twinReference (location : Location) : Recogniser TwinReference := do
  let type ← identifier "after 'twin'"
  let instanceName ← identifierBehind "as" "after 'as'"
  let count ← bracketedCount
  semicolon "after twin reference"
  return ⟨type, instanceName, count, location⟩

/-- The rest of a reference to a rule, behind its keyword. -/
def ruleReference (location : Location) : Recogniser RuleReference := do
  let name ← identifier "after 'rule'"
  semicolon "after rule reference"
  return ⟨name, location⟩

/-- A member of a swarm. -/
def swarmMember : Recogniser SwarmMember := do
  let location ← here
  if ← accept .keyword "twin" then return .twin (← twinReference location)
  else if ← accept .keyword "rule" then return .rule (← ruleReference location)
  else fail (.expected .swarmMember)

/-- The rest of a swarm, behind its keyword. -/
def swarm (location : Location) : Recogniser Swarm := do
  let name ← identifier "after 'swarm'"
  mark "\x7b" "after swarm name"
  let members ← repeatedUpTo "\x7d" swarmMember
  mark "\x7d" "after swarm body"
  return {
    name
    twins := members.filterMap SwarmMember.twin?
    rules := members.filterMap SwarmMember.rule?
    location }

/-! ## Events, actions, rules and imports -/

/-- A parameter with its type. -/
def parameter : Recogniser Parameter := do
  let location ← here
  let name ← identifier "as parameter name"
  mark ":" "after parameter name"
  let type ← identifier "as parameter type"
  return ⟨name, type, location⟩

/-- Parameters in parentheses, if the parenthesis is there. -/
def parameters (owner : String) : Recogniser (List Parameter) := do
  if ← accept .punctuation "(" then
    let parameters ← separatedUpTo ")" parameter
    mark ")" ("after " ++ owner ++ " parameters")
    return parameters
  return []

/-- The rest of an event, behind its keyword. -/
def event (location : Location) : Recogniser Event := do
  let name ← identifier "after 'event'"
  let parameters ← parameters "event"
  semicolon "after event declaration"
  return ⟨name, parameters, location⟩

/-- The rest of an action, behind its keyword. -/
def action (budget : Nat) (location : Location) : Recogniser Action := do
  let name ← identifier "after 'action'"
  let parameters ← parameters "action"
  let body ← block budget "action body"
  return ⟨name, parameters, body, location⟩

/-- The rest of a rule, behind its keyword. -/
def rule (budget : Nat) (location : Location) : Recogniser Rule := do
  let name ← identifier "after 'rule'"
  mark "\x7b" "after rule name"
  keyword "when" "at start of rule body"
  let condition ← expression budget
  semicolon "after rule condition"
  keyword "then" "after rule condition"
  let actions ← block budget "rule actions"
  mark "\x7d" "after rule body"
  return ⟨name, some condition, actions, location⟩

/-- The path behind `from`, if the keyword is there. -/
def importPath : Recogniser (Option String) := do
  if ← accept .keyword "from" then return some (← string "after 'from'")
  return none

/-- The rest of an import, behind its keyword. -/
def imported (location : Location) : Recogniser Import := do
  let name ← identifier "after 'import'"
  let path ← importPath
  semicolon "after import"
  return ⟨name, path, location⟩

/-! ## Declarations -/

/-- A declaration. -/
def declaration (budget : Nat) : Recogniser Declaration := do
  let location ← here
  if ← accept .keyword "twin" then return .twin (← twin budget location)
  else if ← accept .keyword "swarm" then return .swarm (← swarm location)
  else if ← accept .keyword "event" then return .event (← event location)
  else if ← accept .keyword "action" then return .action (← action budget location)
  else if ← accept .keyword "rule" then return .rule (← rule budget location)
  else if ← accept .keyword "import" then return .imported (← imported location)
  else fail (.expected .declaration)

end TwinSwarm.Grammar
