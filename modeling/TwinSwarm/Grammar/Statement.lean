import TwinSwarm.Grammar.Expression
import TwinSwarm.Tree.Statement

/-!
# The grammar of statements

    statement   = conditional | loop | log | alert | notify | assignment | call
    conditional = "if" "(" expression ")" block [ "else" ( conditional | block ) ]
    loop        = "for" "(" name "in" expression ")" block
    log         = "log" "(" expression [ "," expression ] ")" ";"
    alert       = "alert" "(" expression [ "," expression ] ")" ";"
    notify      = "notify" "(" expression "," expression [ "," expression ] ")" ";"
    assignment  = name "=" expression ";"
    call        = name "(" [ expression { "," expression } ] ")" ";"
    block       = "{" { statement } "}"

A block spends one unit of the nesting budget on its statements, and an `else if` one
unit on the conditional that follows.  The arguments of a call statement spend none.
-/

namespace TwinSwarm.Grammar

/-- An expression behind a comma, if there is a comma. -/
def furtherArgument (budget : Nat) : Recogniser (Option Expression) := do
  if ← accept .punctuation "," then return some (← expression budget)
  return none

/-- The arguments and the end of a statement that reports a message. -/
def messageArguments (budget : Nat) (word : String) :
    Recogniser (Expression × Option Expression) := do
  mark "(" ("after '" ++ word ++ "'")
  let message ← expression budget
  let extra ← furtherArgument budget
  mark ")" ("after " ++ word ++ " arguments")
  semicolon ("after " ++ word ++ " statement")
  return (message, extra)

/-- The rest of a statement that notifies someone. -/
def notification (budget : Nat) (location : Location) : Recogniser Statement := do
  mark "(" "after 'notify'"
  let target ← expression budget
  mark "," "after notify target"
  let message ← expression budget
  let data ← furtherArgument budget
  mark ")" "after notify arguments"
  semicolon "after notify statement"
  return .notify target message data location

/-- Arguments up to a closing parenthesis that is left in place. -/
def arguments (budget : Nat) : Recogniser (List Expression) :=
  separatedUpTo ")" (expression budget)

/-- What follows a name at the start of a statement: arguments or an assigned value. -/
def callOrAssignment (budget : Nat) (name : String) (location : Location) :
    Recogniser Statement := do
  if ← accept .punctuation "(" then
    let arguments ← arguments budget
    mark ")" "after function arguments"
    semicolon "after function call"
    return .call name arguments location
  else
    demand .operator "=" .assignmentOrCall
    let value ← expression budget
    semicolon "after assignment"
    return .assignment name value location

mutual

/-- Statements in braces. -/
def block (budget : Nat) (owner : String) : Recogniser (List Statement) := do
  mark "\x7b" ("before " ++ owner)
  match budget with
  | 0 => fail .nestedTooDeeply
  | deeper + 1 =>
      let statements ← repeatedUpTo "\x7d" (statement deeper)
      mark "\x7d" ("after " ++ owner)
      return statements
  termination_by 4 * budget
  decreasing_by all_goals omega

/-- The rest of a conditional, behind its keyword. -/
def conditional (budget : Nat) (location : Location) : Recogniser Statement := do
  mark "(" "after 'if'"
  let condition ← expression budget
  mark ")" "after if condition"
  let thenBranch ← block budget "if body"
  if ← accept .keyword "else" then
    let elseLocation ← here
    if ← accept .keyword "if" then
      match budget with
      | 0 => fail .nestedTooDeeply
      | deeper + 1 =>
          let chained ← conditional deeper elseLocation
          return .conditional condition thenBranch (some [chained]) location
    else
      let elseBranch ← block budget "else body"
      return .conditional condition thenBranch (some elseBranch) location
  else return .conditional condition thenBranch none location
  termination_by 4 * budget + 1
  decreasing_by all_goals omega

/-- The rest of a loop, behind its keyword. -/
def loop (budget : Nat) (location : Location) : Recogniser Statement := do
  mark "(" "after 'for'"
  let name ← identifier "as loop variable"
  keyword "in" "after loop variable"
  let iterable ← expression budget
  mark ")" "after for clause"
  let body ← block budget "for body"
  return .loop name iterable body location
  termination_by 4 * budget + 1
  decreasing_by all_goals omega

/-- A statement. -/
def statement (budget : Nat) : Recogniser Statement := do
  let location ← here
  if ← accept .keyword "if" then conditional budget location
  else if ← accept .keyword "for" then loop budget location
  else if ← accept .keyword "log" then
    let (message, level) ← messageArguments budget "log"
    return .log message level location
  else if ← accept .keyword "alert" then
    let (message, severity) ← messageArguments budget "alert"
    return .alert message severity location
  else if ← accept .keyword "notify" then notification budget location
  else
    let name ← tokenOf .identifier .statement
    callOrAssignment budget name location
  termination_by 4 * budget + 2
  decreasing_by all_goals omega

end

end TwinSwarm.Grammar
