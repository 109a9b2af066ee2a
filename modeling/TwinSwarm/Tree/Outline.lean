import TwinSwarm.Tree.Program

/-!
# Outlines

A program as a flat list of its nodes, each before its parts.  Of a twin only the
values that its properties start from are listed, and of events, swarms and imports
nothing but the declaration itself.
-/

namespace TwinSwarm

/-- A line of an outline. -/
inductive OutlineEntry where
  | declaration (typeName name : String) (location : Location)
  | statement (typeName : String) (location : Location)
  | expression (typeName symbol : String)
  deriving Repr, DecidableEq, Inhabited

namespace Expression

mutual

/-- The outline of an expression, its parts from left to right.  Only a binary
expression has a symbol. -/
def outline : Expression → List OutlineEntry
  | .binary operator left right =>
      .expression "binary_expression" operator.symbol :: outline left ++ outline right
  | .unary _ operand => .expression "unary_expression" "" :: outline operand
  | .literal _ => [.expression "literal" ""]
  | .grouping inner => .expression "grouping" "" :: outline inner
  | .array elements => .expression "array_literal" "" :: outlineOfAll elements
  | .object entries => .expression "object_literal" "" :: outlineOfEntries entries
  | .reference _ => [.expression "variable_reference" ""]
  | .call _ arguments => .expression "call_expression" "" :: outlineOfAll arguments
  | .property _ _ => [.expression "property_access" ""]

/-- The outlines of several expressions. -/
def outlineOfAll : List Expression → List OutlineEntry
  | [] => []
  | first :: rest => outline first ++ outlineOfAll rest

/-- The outlines of the values of an object literal. -/
def outlineOfEntries : List (Entry Expression) → List OutlineEntry
  | [] => []
  | ⟨_, value⟩ :: rest => outline value ++ outlineOfEntries rest

end

/-- The outline of an expression that may be absent. -/
def outlineOfOptional : Option Expression → List OutlineEntry
  | some expression => outline expression
  | none => []

end Expression

namespace Statement

mutual

/-- The outline of a statement. -/
def outline : Statement → List OutlineEntry
  | .conditional condition thenBranch elseBranch location =>
      .statement "if_statement" location :: condition.outline ++ outlineOfAll thenBranch ++
        outlineOfBranch elseBranch
  | .loop _ iterable body location =>
      .statement "for_statement" location :: iterable.outline ++ outlineOfAll body
  | .log message level location =>
      .statement "log_statement" location :: message.outline ++
        Expression.outlineOfOptional level
  | .alert message severity location =>
      .statement "alert_statement" location :: message.outline ++
        Expression.outlineOfOptional severity
  | .notify target message data location =>
      .statement "notify_statement" location :: target.outline ++ message.outline ++
        Expression.outlineOfOptional data
  | .assignment _ value location => .statement "assignment" location :: value.outline
  | .call _ arguments location =>
      .statement "function_call" location :: Expression.outlineOfAll arguments

/-- The outlines of several statements. -/
def outlineOfAll : List Statement → List OutlineEntry
  | [] => []
  | first :: rest => outline first ++ outlineOfAll rest

/-- The outline of a branch that may be absent. -/
def outlineOfBranch : Option (List Statement) → List OutlineEntry
  | none => []
  | some branch => outlineOfAll branch

end

end Statement

namespace Declaration

/-- The line of an outline that stands for the declaration itself. -/
def outlineEntry (declaration : Declaration) : OutlineEntry :=
  .declaration declaration.typeName declaration.name declaration.location

/-- The outline of the parts of a declaration. -/
def outlineOfParts : Declaration → List OutlineEntry
  | .twin declared =>
      declared.properties.flatMap fun item => Expression.outlineOfOptional item.default
  | .action declared => Statement.outlineOfAll declared.body
  | .rule declared =>
      Expression.outlineOfOptional declared.condition ++
        Statement.outlineOfAll declared.actions
  | .swarm _ | .event _ | .imported _ => []

/-- The outline of a declaration. -/
def outline (declaration : Declaration) : List OutlineEntry :=
  declaration.outlineEntry :: declaration.outlineOfParts

end Declaration

namespace Program

/-- The outline of a program. -/
def outline (program : Program) : List OutlineEntry :=
  program.declarations.flatMap Declaration.outline

/-- The lines of the declarations alone. -/
def summary (program : Program) : List OutlineEntry :=
  program.declarations.map Declaration.outlineEntry

end Program

end TwinSwarm
