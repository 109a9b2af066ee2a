import TwinSwarm.Location

/-!
# Diagnostics

What is wrong with a source text or a tree, in the form in which it is reported:
the stage that noticed it, a message, a place, and the text around the place.
-/

namespace TwinSwarm

/-- The stage that noticed a fault. -/
inductive Diagnostic.Kind where
  | lexical
  | syntactic
  | semantic
  | nestingTooDeep
  | inputOutput
  | internal
  deriving Repr, DecidableEq, Inhabited

/-- A reported fault. -/
structure Diagnostic where
  kind : Diagnostic.Kind
  message : String
  location : Location
  context : String
  deriving Repr, DecidableEq, Inhabited

namespace Diagnostic

/-- The name under which a kind is written. -/
def Kind.name : Kind → String
  | .lexical => "lex"
  | .syntactic => "syntax"
  | .semantic => "semantic"
  | .nestingTooDeep => "nesting_too_deep"
  | .inputOutput => "io"
  | .internal => "internal"

/-- Every kind, in the order in which they are listed to a reader. -/
def Kind.all : List Kind :=
  [.lexical, .syntactic, .semantic, .nestingTooDeep, .inputOutput, .internal]

/-- The diagnostic as a text of at least two lines. -/
def display (diagnostic : Diagnostic) : String :=
  "Error at " ++ toString diagnostic.location.line ++ ":" ++
    toString diagnostic.location.column ++ ": " ++ diagnostic.message ++
    "\nContext: " ++ diagnostic.context

end Diagnostic

end TwinSwarm
