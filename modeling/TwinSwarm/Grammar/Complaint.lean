import TwinSwarm.Diagnostic

/-!
# Complaints

Why the grammar refuses a token, and how that is put into words.  A complaint
always concerns the first token that was not consumed, so its wording takes a
description of that token.
-/

namespace TwinSwarm.Grammar

/-- What the grammar allows at a place. -/
inductive Expectation where
  | symbol (text place : String)
  | identifier (place : String)
  | string (place : String)
  | assignmentOrCall
  | statement
  | declaration
  | twinItem
  | deviceEnd (device : String)
  | stateClause
  | swarmMember
  | instanceCount
  deriving Repr, DecidableEq, Inhabited

/-- Why the grammar refuses a token. -/
inductive Complaint where
  | expected (wanted : Expectation)
  | unexpectedInExpression
  | invalidDecimal (text : String)
  | invalidInteger (text : String)
  | invalidCount (text : String)
  | chainedAccess (owner property : String)
  | nestedTooDeeply
  deriving Repr, DecidableEq, Inhabited

/-- What is allowed, as a part of a message. -/
def Expectation.phrase : Expectation → String
  | .symbol text place => "'" ++ text ++ "' " ++ place
  | .identifier place => "identifier " ++ place
  | .string place => "string " ++ place
  | .assignmentOrCall => "'=' or '(' after identifier in statement"
  | .statement => "statement"
  | .declaration => "declaration (twin, swarm, event, action, rule or import)"
  | .twinItem => "property, sensor, actuator or state in twin body"
  | .deviceEnd device => "'\x7b' or ';' after " ++ device ++ " type"
  | .stateClause => "entry, exit or transition in state body"
  | .swarmMember => "twin or rule in swarm body"
  | .instanceCount => "integer instance count"

namespace Complaint

/-- The complaint in words, given a description of the refused token and the limit on
nesting. -/
def message (found : String) (limit : Nat) : Complaint → String
  | .expected wanted => "Expected " ++ wanted.phrase ++ ", found " ++ found
  | .unexpectedInExpression => "Unexpected token in expression: " ++ found
  | .invalidDecimal text => "Invalid float literal: " ++ text
  | .invalidInteger text => "Invalid integer literal: " ++ text
  | .invalidCount text => "Invalid instance count: " ++ text
  | .chainedAccess owner property =>
      "Chained property access is not supported: '" ++ owner ++ "." ++ property ++ ".'"
  | .nestedTooDeeply => "Maximum nesting depth of " ++ toString limit ++ " exceeded"

/-- The kind under which the complaint is reported. -/
def kind : Complaint → Diagnostic.Kind
  | .nestedTooDeeply => .nestingTooDeep
  | _ => .syntactic

end Complaint

end TwinSwarm.Grammar
