import TwinSwarm.Proofs.Walk.Basic

/-!
# The grammar on a cursor

Each form of the grammar is a walk.  The loops of the grammar and the forms that contain
themselves spend fuel, which bounds how often they go round and how deep they go.  The counter
of levels is another matter: it belongs to the grammar, and running into the limit is a fault
of the tokens.
-/

namespace TwinSwarm.Walk

open Grammar

/-! ## Expressions -/

/-- The operators of a level. -/
def operatorsOf (level : Precedence) : List BinaryOperator :=
  BinaryOperator.all.filter fun operator => precedence operator = level

/-- The name behind the point of a property access. -/
def propertyOf (owner : String) : Walk Expression := do
  let property ← identifier "after '.'"
  if ← check .punctuation "." then refuse (.chainedAccess owner property)
  else return .property owner property

/-- A key and a value of an object literal. -/
def objectEntry (value : Walk Expression) : Walk (Entry Expression) := do
  let key ← string "as object key"
  mark ":" "after object key"
  let value ← value
  return ⟨key, value⟩

mutual

/-- Operands with the operators of one level between them.  The operators take levels that they
do not give back, so the counter is set back at the end. -/
def chain : Nat → Precedence → Walk Expression
  | 0, _ => unfinished
  | fuel + 1, level => balanced do
      let first ← operand fuel level
      chainFrom fuel level first

/-- The rest of a chain whose left part has been read.  Each operator takes a level. -/
def chainFrom : Nat → Precedence → Expression → Walk Expression
  | 0, _, _ => unfinished
  | fuel + 1, level, left => do
      match ← acceptAny BinaryOperator.symbol (operatorsOf level) with
      | none => return left
      | some operator =>
          deepen
          let right ← operand fuel level
          chainFrom fuel level (.binary operator left right)

/-- An operand of a level. -/
def operand : Nat → Precedence → Walk Expression
  | 0, _ => unfinished
  | fuel + 1, .product => unary fuel
  | fuel + 1, .sum => chain fuel .product
  | fuel + 1, .comparison => chain fuel .sum
  | fuel + 1, .equality => chain fuel .comparison
  | fuel + 1, .conjunction => chain fuel .equality
  | fuel + 1, .disjunction => chain fuel .conjunction

/-- Any number of unary operators before an operand that has none. -/
def unary : Nat → Walk Expression
  | 0 => unfinished
  | fuel + 1 => do
      match ← acceptAny UnaryOperator.symbol UnaryOperator.all with
      | none => primary fuel
      | some operator =>
          let inner ← nested (unary fuel)
          return .unary operator inner

/-- A literal, a name, or something in brackets. -/
def primary : Nat → Walk Expression
  | 0 => unfinished
  | fuel + 1 => do
      let token ← peek
      match literal? token with
      | some (.ok value) =>
          let _ ← advance
          return .literal value
      | some (.error complaint) => refuse complaint
      | none =>
          if token.kind = .identifier then
            let _ ← advance
            named fuel token.text
          else opening fuel

/-- Something in brackets. -/
def opening : Nat → Walk Expression
  | 0 => unfinished
  | fuel + 1 => do
      if ← accept .punctuation "(" then
        let inner ← nested (chain fuel .disjunction)
        mark ")" "after expression"
        return .grouping inner
      else if ← accept .punctuation "[" then
        let elements ← nested (separatedUpTo "]" (chain fuel .disjunction) fuel)
        mark "]" "after array elements"
        return .array elements
      else if ← accept .punctuation "\x7b" then
        let entries ← nested (separatedUpTo "\x7d" (objectEntry (chain fuel .disjunction)) fuel)
        mark "\x7d" "after object entries"
        return .object entries
      else refuse .unexpectedInExpression

/-- What follows a name: arguments, a property, or nothing. -/
def named : Nat → String → Walk Expression
  | 0, _ => unfinished
  | fuel + 1, name => do
      if ← accept .punctuation "(" then
        let arguments ← nested (separatedUpTo ")" (chain fuel .disjunction) fuel)
        mark ")" "after function arguments"
        return .call name arguments
      else if ← accept .punctuation "." then propertyOf name
      else return .reference name

end

/-- An expression. -/
def expression (fuel : Nat) : Walk Expression := chain fuel .disjunction

/-! ## Statements -/

/-- An expression behind a comma, if there is a comma. -/
def furtherArgument (fuel : Nat) : Walk (Option Expression) :=
  optionally .punctuation "," (expression fuel)

/-- The arguments and the end of a statement that reports a message. -/
def messageArguments (fuel : Nat) (word : String) : Walk (Expression × Option Expression) := do
  mark "(" ("after '" ++ word ++ "'")
  let message ← expression fuel
  let extra ← furtherArgument fuel
  mark ")" ("after " ++ word ++ " arguments")
  semicolon ("after " ++ word ++ " statement")
  return (message, extra)

/-- The rest of a statement that notifies someone. -/
def notification (fuel : Nat) (location : Location) : Walk Statement := do
  mark "(" "after 'notify'"
  let target ← expression fuel
  mark "," "after notify target"
  let message ← expression fuel
  let data ← furtherArgument fuel
  mark ")" "after notify arguments"
  semicolon "after notify statement"
  return .notify target message data location

/-- Arguments up to a closing parenthesis that is left in place. -/
def arguments (fuel : Nat) : Walk (List Expression) :=
  separatedUpTo ")" (expression fuel) fuel

/-- A statement that begins with a name.  The token behind the name tells a call from an
assignment, before the name is taken. -/
def callOrAssignment (fuel : Nat) (location : Location) : Walk Statement := do
  let second ← peekAhead 1
  let name ← identifier "at start of statement"
  if second.any fun token => token.is .punctuation "(" then
    mark "(" "after function name"
    let arguments ← arguments fuel
    mark ")" "after function arguments"
    semicolon "after function call"
    return .call name arguments location
  else
    demand .operator "=" .assignmentOrCall
    let value ← expression fuel
    semicolon "after assignment"
    return .assignment name value location

mutual

/-- Statements in braces. -/
def block : Nat → String → Walk (List Statement)
  | 0, _ => unfinished
  | fuel + 1, owner => do
      mark "\x7b" ("before " ++ owner)
      let statements ← nested (repeatedUpTo "\x7d" (statement fuel) fuel)
      mark "\x7d" ("after " ++ owner)
      return statements

/-- The rest of a conditional, behind its keyword. -/
def conditional : Nat → Location → Walk Statement
  | 0, _ => unfinished
  | fuel + 1, location => do
      mark "(" "after 'if'"
      let condition ← expression fuel
      mark ")" "after if condition"
      let thenBranch ← block fuel "if body"
      if ← accept .keyword "else" then
        let elseLocation ← here
        if ← accept .keyword "if" then
          let chained ← nested (conditional fuel elseLocation)
          return .conditional condition thenBranch (some [chained]) location
        else
          let elseBranch ← block fuel "else body"
          return .conditional condition thenBranch (some elseBranch) location
      else return .conditional condition thenBranch none location

/-- The rest of a loop, behind its keyword. -/
def loop : Nat → Location → Walk Statement
  | 0, _ => unfinished
  | fuel + 1, location => do
      mark "(" "after 'for'"
      let name ← identifier "as loop variable"
      keyword "in" "after loop variable"
      let iterable ← expression fuel
      mark ")" "after for clause"
      let body ← block fuel "for body"
      return .loop name iterable body location

/-- A statement. -/
def statement : Nat → Walk Statement
  | 0 => unfinished
  | fuel + 1 => do
      let location ← here
      if ← accept .keyword "if" then conditional fuel location
      else if ← accept .keyword "for" then loop fuel location
      else if ← accept .keyword "log" then
        let (message, level) ← messageArguments fuel "log"
        return .log message level location
      else if ← accept .keyword "alert" then
        let (message, severity) ← messageArguments fuel "alert"
        return .alert message severity location
      else if ← accept .keyword "notify" then notification fuel location
      else if ← checkKind .identifier then callOrAssignment fuel location
      else refuse (.expected .statement)

end

/-! ## Declarations -/

/-- The rest of a property, behind its keyword. -/
def propertyItem (fuel : Nat) (location : Location) : Walk PropertyItem := do
  let name ← identifier "after 'property'"
  mark ":" "after property name"
  let type ← identifier "as property type"
  let value ← optionally .operator "=" (expression fuel)
  semicolon "after property declaration"
  return ⟨name, type, value, location⟩

/-- A key and a value of a configuration. -/
def setting (fuel : Nat) : Walk (Entry Expression) := do
  let key ← identifier "as configuration key"
  mark ":" "after configuration key"
  let value ← expression fuel
  return ⟨key, value⟩

/-- The rest of a sensor or an actuator, behind its keyword. -/
def device (fuel : Nat) (word : String) (location : Location) : Walk Device := do
  let name ← identifier ("after '" ++ word ++ "'")
  mark ":" ("after " ++ word ++ " name")
  let type ← identifier ("as " ++ word ++ " type")
  if ← accept .punctuation "\x7b" then
    let configuration ← listedUpTo "\x7d" (setting fuel) fuel
    mark "\x7d" ("after " ++ word ++ " configuration")
    return ⟨name, type, configuration, location⟩
  else
    demand .punctuation ";" (.deviceEnd word)
    return ⟨name, type, [], location⟩

/-- A reference to an action, with its arguments. -/
def actionReference (fuel : Nat) (location : Location) : Walk ActionReference := do
  let name ← identifier "as action reference"
  if ← accept .punctuation "(" then
    let arguments ← arguments fuel
    mark ")" "after action arguments"
    return ⟨name, arguments, location⟩
  else return ⟨name, [], location⟩

/-- The rest of a transition, behind its keyword. -/
def transition (fuel : Nat) (location : Location) : Walk Transition := do
  let target ← identifier "as transition target"
  let condition ← optionally .keyword "when" (expression fuel)
  semicolon "after transition"
  return ⟨target, condition, location⟩

/-- A clause of a state. -/
def stateClause (fuel : Nat) : Walk StateClause := do
  let location ← here
  if ← accept .keyword "entry" then
    let reference ← actionReference fuel location
    semicolon "after entry action"
    return .entry reference
  else if ← accept .keyword "exit" then
    let reference ← actionReference fuel location
    semicolon "after exit action"
    return .exit reference
  else if ← accept .keyword "transition" then
    let item ← transition fuel location
    return .transition item
  else refuse (.expected .stateClause)

/-- The rest of a state, behind its keyword. -/
def stateItem (fuel : Nat) (location : Location) : Walk StateItem := do
  let name ← identifier "after 'state'"
  mark "\x7b" "after state name"
  let clauses ← repeatedUpTo "\x7d" (stateClause fuel) fuel
  mark "\x7d" "after state body"
  return {
    name
    entryActions := clauses.filterMap StateClause.entry?
    exitActions := clauses.filterMap StateClause.exit?
    transitions := clauses.filterMap StateClause.transition?
    location }

/-- An item of a twin. -/
def twinItem (fuel : Nat) : Walk TwinItem := do
  let location ← here
  if ← accept .keyword "property" then
    let item ← propertyItem fuel location
    return .property item
  else if ← accept .keyword "sensor" then
    let item ← device fuel "sensor" location
    return .sensor item
  else if ← accept .keyword "actuator" then
    let item ← device fuel "actuator" location
    return .actuator item
  else if ← accept .keyword "state" then
    let item ← stateItem fuel location
    return .state item
  else refuse (.expected .twinItem)

/-- An identifier behind a keyword, if the keyword is there. -/
def identifierBehind (word place : String) : Walk (Option String) :=
  optionally .keyword word (identifier place)

/-- The rest of a twin, behind its keyword. -/
def twin (fuel : Nat) (location : Location) : Walk Twin := do
  let name ← identifier "after 'twin'"
  let parent ← identifierBehind "extends" "after 'extends'"
  mark "\x7b" "after twin name"
  let items ← repeatedUpTo "\x7d" (twinItem fuel) fuel
  mark "\x7d" "after twin body"
  return {
    name
    parent
    properties := items.filterMap TwinItem.property?
    sensors := items.filterMap TwinItem.sensor?
    actuators := items.filterMap TwinItem.actuator?
    states := items.filterMap TwinItem.state?
    location }

/-- The number of instances of a twin. -/
def instanceCount : Walk Int64 := do
  let token ← peek
  if token.kind = .number ∧ '.' ∉ token.text.toList then
    match Numeral.integer? token.text.toList with
    | some count =>
        let _ ← advance
        return count
    | none => refuse (.invalidCount token.text)
  else refuse (.expected .instanceCount)

/-- A number of instances in brackets, if the bracket is there. -/
def bracketedCount : Walk (Option Int64) := do
  if ← accept .punctuation "[" then
    let count ← instanceCount
    mark "]" "after instance count"
    return some count
  else return none

/-- The rest of a reference to a twin, behind its keyword. -/
def twinReference (location : Location) : Walk TwinReference := do
  let type ← identifier "after 'twin'"
  let instanceName ← identifierBehind "as" "after 'as'"
  let count ← bracketedCount
  semicolon "after twin reference"
  return ⟨type, instanceName, count, location⟩

/-- The rest of a reference to a rule, behind its keyword. -/
def ruleReference (location : Location) : Walk RuleReference := do
  let name ← identifier "after 'rule'"
  semicolon "after rule reference"
  return ⟨name, location⟩

/-- A member of a swarm. -/
def swarmMember : Walk SwarmMember := do
  let location ← here
  if ← accept .keyword "twin" then
    let reference ← twinReference location
    return .twin reference
  else if ← accept .keyword "rule" then
    let reference ← ruleReference location
    return .rule reference
  else refuse (.expected .swarmMember)

/-- The rest of a swarm, behind its keyword. -/
def swarm (fuel : Nat) (location : Location) : Walk Swarm := do
  let name ← identifier "after 'swarm'"
  mark "\x7b" "after swarm name"
  let members ← repeatedUpTo "\x7d" swarmMember fuel
  mark "\x7d" "after swarm body"
  return {
    name
    twins := members.filterMap SwarmMember.twin?
    rules := members.filterMap SwarmMember.rule?
    location }

/-- A parameter with its type. -/
def parameter : Walk Parameter := do
  let location ← here
  let name ← identifier "as parameter name"
  mark ":" "after parameter name"
  let type ← identifier "as parameter type"
  return ⟨name, type, location⟩

/-- Parameters in parentheses, if the parenthesis is there. -/
def parameters (fuel : Nat) (owner : String) : Walk (List Parameter) := do
  if ← accept .punctuation "(" then
    let parameters ← separatedUpTo ")" parameter fuel
    mark ")" ("after " ++ owner ++ " parameters")
    return parameters
  else return []

/-- The rest of an event, behind its keyword. -/
def event (fuel : Nat) (location : Location) : Walk Event := do
  let name ← identifier "after 'event'"
  let parameters ← parameters fuel "event"
  semicolon "after event declaration"
  return ⟨name, parameters, location⟩

/-- The rest of an action, behind its keyword. -/
def action (fuel : Nat) (location : Location) : Walk Action := do
  let name ← identifier "after 'action'"
  let parameters ← parameters fuel "action"
  let body ← block fuel "action body"
  return ⟨name, parameters, body, location⟩

/-- The rest of a rule, behind its keyword. -/
def rule (fuel : Nat) (location : Location) : Walk Rule := do
  let name ← identifier "after 'rule'"
  mark "\x7b" "after rule name"
  keyword "when" "at start of rule body"
  let condition ← expression fuel
  semicolon "after rule condition"
  keyword "then" "after rule condition"
  let actions ← block fuel "rule actions"
  mark "\x7d" "after rule body"
  return ⟨name, some condition, actions, location⟩

/-- The rest of an import, behind its keyword. -/
def imported (location : Location) : Walk Import := do
  let name ← identifier "after 'import'"
  let path ← optionally .keyword "from" (string "after 'from'")
  semicolon "after import"
  return ⟨name, path, location⟩

/-- A declaration. -/
def declaration (fuel : Nat) : Walk Declaration := do
  let location ← here
  if ← accept .keyword "twin" then
    let declared ← twin fuel location
    return .twin declared
  else if ← accept .keyword "swarm" then
    let declared ← swarm fuel location
    return .swarm declared
  else if ← accept .keyword "event" then
    let declared ← event fuel location
    return .event declared
  else if ← accept .keyword "action" then
    let declared ← action fuel location
    return .action declared
  else if ← accept .keyword "rule" then
    let declared ← rule fuel location
    return .rule declared
  else if ← accept .keyword "import" then
    let declared ← imported location
    return .imported declared
  else refuse (.expected .declaration)

/-! ## Programs -/

/-- Pass over tokens until a semicolon has been passed or a declaration may begin. -/
def synchronizeFrom : Nat → Walk Unit
  | 0 => unfinished
  | fuel + 1 => do
      if ← isAtEnd then return ()
      else
        let passed ← previous
        if passed.is .punctuation ";" then return ()
        else
          let next ← peek
          if beginsDeclaration next then return ()
          else
            let _ ← advance
            synchronizeFrom fuel

/-- Pass over the next token, and over further ones until reading can go on. -/
def synchronize (fuel : Nat) : Walk Unit := do
  let _ ← advance
  synchronizeFrom fuel

/-- Read one declaration with the counter at zero, or pass over what cannot be read. -/
def turn (fuel : Nat) : Walk (Except Diagnostic Declaration) := do
  setDepth 0
  let outcome ← attempted (declaration fuel)
  match outcome with
  | .ok declared => return .ok declared
  | .error diagnostic =>
      synchronize fuel
      return .error diagnostic

/-- One turn after the other up to the end. -/
def turns : Nat → Walk (List (Except Diagnostic Declaration))
  | 0 => unfinished
  | fuel + 1 => do
      if ← isAtEnd then return []
      else
        let first ← turn fuel
        let others ← turns fuel
        return first :: others

/-- The declaration that was read in a turn. -/
def declaration? : Except Diagnostic Declaration → Option Declaration
  | .ok declared => some declared
  | .error _ => none

/-- What kept a declaration from being read. -/
def diagnostic? : Except Diagnostic Declaration → Option Diagnostic
  | .ok _ => none
  | .error diagnostic => some diagnostic

/-- Read all declarations. -/
def program (fuel : Nat) : Walk (Program × List Diagnostic) := do
  let outcomes ← turns fuel
  return (⟨outcomes.filterMap declaration?⟩, outcomes.filterMap diagnostic?)

end TwinSwarm.Walk
