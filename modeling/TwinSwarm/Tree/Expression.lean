import TwinSwarm.Entry
import TwinSwarm.Number.Double

/-!
# Expressions

The tree form of expressions.  Groupings keep their parentheses, object literals
keep the order and the repetitions of their keys, and numbers keep the difference
between integers and decimals.  Expressions carry no location of their own.
-/

namespace TwinSwarm

/-- The value of a literal. -/
inductive Literal where
  | null
  | boolean (value : Bool)
  | integer (value : Int64)
  | decimal (value : Double)
  | string (value : String)
  deriving Repr, DecidableEq, Inhabited

/-- The operators that stand between two operands. -/
inductive BinaryOperator where
  | or
  | and
  | equal
  | notEqual
  | less
  | greater
  | lessOrEqual
  | greaterOrEqual
  | add
  | subtract
  | multiply
  | divide
  deriving Repr, DecidableEq, Inhabited

/-- The operators that stand before one operand. -/
inductive UnaryOperator where
  | not
  | negate
  deriving Repr, DecidableEq, Inhabited

/-- How a binary operator is spelled. -/
def BinaryOperator.symbol : BinaryOperator → String
  | .or => "||"
  | .and => "&&"
  | .equal => "=="
  | .notEqual => "!="
  | .less => "<"
  | .greater => ">"
  | .lessOrEqual => "<="
  | .greaterOrEqual => ">="
  | .add => "+"
  | .subtract => "-"
  | .multiply => "*"
  | .divide => "/"

/-- Every binary operator, the loosest first. -/
def BinaryOperator.all : List BinaryOperator :=
  [.or, .and, .equal, .notEqual, .less, .greater, .lessOrEqual, .greaterOrEqual, .add,
    .subtract, .multiply, .divide]

/-- How a unary operator is spelled. -/
def UnaryOperator.symbol : UnaryOperator → String
  | .not => "!"
  | .negate => "-"

/-- Every unary operator. -/
def UnaryOperator.all : List UnaryOperator := [.not, .negate]

/-- An expression. -/
inductive Expression where
  | binary (operator : BinaryOperator) (left right : Expression)
  | unary (operator : UnaryOperator) (operand : Expression)
  | literal (value : Literal)
  | grouping (inner : Expression)
  | array (elements : List Expression)
  | object (entries : List (Entry Expression))
  | reference (name : String)
  | call (callee : String) (arguments : List Expression)
  | property (owner name : String)
  deriving Repr, Inhabited

namespace Expression

/-- The name of the kind of node. -/
def typeName : Expression → String
  | .binary .. => "binary_expression"
  | .unary .. => "unary_expression"
  | .literal .. => "literal"
  | .grouping .. => "grouping"
  | .array .. => "array_literal"
  | .object .. => "object_literal"
  | .reference .. => "variable_reference"
  | .call .. => "call_expression"
  | .property .. => "property_access"

/-! ## Equality -/

mutual

/-- The two expressions are the same tree. -/
def same : Expression → Expression → Bool
  | .binary operator left right, .binary operator' left' right' =>
      operator = operator' && same left left' && same right right'
  | .unary operator operand, .unary operator' operand' =>
      operator = operator' && same operand operand'
  | .literal value, .literal value' => value = value'
  | .grouping inner, .grouping inner' => same inner inner'
  | .array elements, .array elements' => sameAll elements elements'
  | .object entries, .object entries' => sameEntries entries entries'
  | .reference name, .reference name' => name = name'
  | .call callee arguments, .call callee' arguments' =>
      callee = callee' && sameAll arguments arguments'
  | .property owner name, .property owner' name' => owner = owner' && name = name'
  | _, _ => false

/-- The two lists hold the same trees in the same order. -/
def sameAll : List Expression → List Expression → Bool
  | [], [] => true
  | first :: rest, first' :: rest' => same first first' && sameAll rest rest'
  | _, _ => false

/-- The two lists hold the same keys and trees in the same order. -/
def sameEntries : List (Entry Expression) → List (Entry Expression) → Bool
  | [], [] => true
  | ⟨key, value⟩ :: rest, ⟨key', value'⟩ :: rest' =>
      key = key' && same value value' && sameEntries rest rest'
  | _, _ => false

end

mutual

theorem same_eq_true : {left right : Expression} → same left right = true ↔ left = right
  | .binary .., right => by
      cases right <;> simp [same, same_eq_true, and_assoc]
  | .unary .., right => by
      cases right <;> simp [same, same_eq_true]
  | .literal .., right => by
      cases right <;> simp [same]
  | .grouping .., right => by
      cases right <;> simp [same, same_eq_true]
  | .array .., right => by
      cases right <;> simp [same, sameAll_eq_true]
  | .object .., right => by
      cases right <;> simp [same, sameEntries_eq_true]
  | .reference .., right => by
      cases right <;> simp [same]
  | .call .., right => by
      cases right <;> simp [same, sameAll_eq_true]
  | .property .., right => by
      cases right <;> simp [same]

theorem sameAll_eq_true : {left right : List Expression} →
    sameAll left right = true ↔ left = right
  | [], [] => by simp [sameAll]
  | [], _ :: _ => by simp [sameAll]
  | _ :: _, [] => by simp [sameAll]
  | _ :: _, _ :: _ => by simp [sameAll, same_eq_true, sameAll_eq_true]

theorem sameEntries_eq_true : {left right : List (Entry Expression)} →
    sameEntries left right = true ↔ left = right
  | [], [] => by simp [sameEntries]
  | [], _ :: _ => by simp [sameEntries]
  | _ :: _, [] => by simp [sameEntries]
  | ⟨_, _⟩ :: _, ⟨_, _⟩ :: _ => by
      simp [sameEntries, same_eq_true, sameEntries_eq_true]

end

instance : DecidableEq Expression := fun left right =>
  decidable_of_iff (same left right = true) same_eq_true

end Expression

end TwinSwarm
