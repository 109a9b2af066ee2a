import TwinSwarm.Grammar.Recogniser
import TwinSwarm.Number.Numeral
import TwinSwarm.Tree.Expression

/-!
# The grammar of expressions

Binary operators stand on six levels of precedence and associate to the left.  Each
function takes a budget of further nesting.  Groupings, list and object literals,
arguments of calls and operands of unary operators spend one unit on what they
enclose.  An operator of a chain puts the tree built so far one level deeper, so it
spends one unit for all that follows on its level.
-/

namespace TwinSwarm.Grammar

/-- The levels of binary operators, the tightest first. -/
inductive Precedence where
  | product
  | sum
  | comparison
  | equality
  | conjunction
  | disjunction
  deriving Repr, DecidableEq, Inhabited

/-- How loosely a level binds. -/
def Precedence.rank : Precedence → Nat
  | .product => 0
  | .sum => 1
  | .comparison => 2
  | .equality => 3
  | .conjunction => 4
  | .disjunction => 5

theorem Precedence.rank_le (level : Precedence) : level.rank ≤ 5 := by
  cases level <;> decide

/-- The level of an operator. -/
def precedence : BinaryOperator → Precedence
  | .or => .disjunction
  | .and => .conjunction
  | .equal | .notEqual => .equality
  | .less | .greater | .lessOrEqual | .greaterOrEqual => .comparison
  | .add | .subtract => .sum
  | .multiply | .divide => .product

/-- The operator of a level that a token spells. -/
def binaryOperator? (level : Precedence) (token : Token) : Option BinaryOperator :=
  BinaryOperator.all.find? fun operator =>
    precedence operator = level && token.is .operator operator.symbol

/-- The unary operator that a token spells. -/
def unaryOperator? (token : Token) : Option UnaryOperator :=
  UnaryOperator.all.find? fun operator => token.is .operator operator.symbol

/-- Take the next token if it is an operator that the test accepts. -/
def acceptOperator {α : Type} (operator? : Token → Option α) : Recogniser (Option α)
  | [] => .ok (none, [])
  | token :: rest =>
      match operator? token with
      | some operator => .ok (some operator, rest)
      | none => .ok (none, token :: rest)

/-- The value of a number token.  With a point it is a decimal, otherwise it is an
integer. -/
def numberLiteral (text : String) : Except Complaint Literal :=
  if '.' ∈ text.toList then
    match Numeral.double? text.toList with
    | some value => .ok (.decimal value)
    | none => .error (.invalidDecimal text)
  else
    match Numeral.integer? text.toList with
    | some value => .ok (.integer value)
    | none => .error (.invalidInteger text)

/-- The value of a token that is a literal by itself. -/
def literal? (token : Token) : Option (Except Complaint Literal) :=
  match token.kind with
  | .boolean => some (.ok (.boolean (Token.spellsTrue token.text)))
  | .number => some (numberLiteral token.text)
  | .string => some (.ok (.string (unquoted token.text)))
  | .keyword => if token.text = "null" then some (.ok .null) else none
  | _ => none

/-- The name behind the point of a property access, after which no further point may
follow. -/
def propertyOf (owner : String) : Recogniser Expression := do
  let property ← identifier "after '.'"
  if ← isNext .punctuation "." then fail (.chainedAccess owner property)
  return .property owner property

/-- A key and a value of an object literal. -/
def objectEntry (value : Recogniser Expression) : Recogniser (Entry Expression) := do
  let key ← string "as object key"
  mark ":" "after object key"
  return ⟨key, ← value⟩

mutual

/-- Operands with the operators of one level between them. -/
def chain (budget : Nat) (level : Precedence) : Recogniser Expression := do
  let first ← operand budget level
  chainFrom budget level first
  -- All levels are climbed down on one unit of the budget, so the level counts below a unit.
  termination_by 16 * budget + 2 * level.rank + 4
  decreasing_by all_goals omega

/-- The rest of a chain whose left part has been read. -/
def chainFrom (budget : Nat) (level : Precedence) (left : Expression) :
    Recogniser Expression := do
  match ← acceptOperator (binaryOperator? level) with
  | none => return left
  | some operator =>
      match budget with
      | 0 => fail .nestedTooDeeply
      | deeper + 1 =>
          let right ← operand deeper level
          chainFrom deeper level (.binary operator left right)
  termination_by 16 * budget
  decreasing_by all_goals have := level.rank_le; omega

/-- An operand of a level: a chain of the next tighter level. -/
def operand (budget : Nat) : Precedence → Recogniser Expression
  | .product => unary budget
  | .sum => chain budget .product
  | .comparison => chain budget .sum
  | .equality => chain budget .comparison
  | .conjunction => chain budget .equality
  | .disjunction => chain budget .conjunction
  termination_by level => 16 * budget + 2 * level.rank + 3
  decreasing_by all_goals simp only [Precedence.rank]; omega

/-- Any number of unary operators before an operand that has none. -/
def unary (budget : Nat) : Recogniser Expression := do
  match ← acceptOperator unaryOperator? with
  | none => primary budget
  | some operator =>
      match budget with
      | 0 => fail .nestedTooDeeply
      | deeper + 1 => return .unary operator (← unary deeper)
  termination_by 16 * budget + 2
  decreasing_by all_goals omega

/-- A literal, a name, or something in brackets. -/
def primary (budget : Nat) : Recogniser Expression := do
  match ← peek with
  | none => fail .unexpectedInExpression
  | some token =>
      match literal? token with
      | some (.ok value) =>
          advance
          return .literal value
      | some (.error complaint) => fail complaint
      | none =>
          if token.kind = .identifier then
            advance
            named budget token.text
          else if token.is .punctuation "(" then
            advance
            match budget with
            | 0 => fail .nestedTooDeeply
            | deeper + 1 =>
                let inner ← chain deeper .disjunction
                mark ")" "after expression"
                return .grouping inner
          else if token.is .punctuation "[" then
            advance
            match budget with
            | 0 => fail .nestedTooDeeply
            | deeper + 1 =>
                let elements ← separatedUpTo "]" (chain deeper .disjunction)
                mark "]" "after array elements"
                return .array elements
          else if token.is .punctuation "\x7b" then
            advance
            match budget with
            | 0 => fail .nestedTooDeeply
            | deeper + 1 =>
                let entries ← separatedUpTo "\x7d" (objectEntry (chain deeper .disjunction))
                mark "\x7d" "after object entries"
                return .object entries
          else fail .unexpectedInExpression
  termination_by 16 * budget + 1
  decreasing_by all_goals have := Precedence.rank_le .disjunction; omega

/-- What follows a name: arguments, a property, or nothing. -/
def named (budget : Nat) (name : String) : Recogniser Expression := do
  if ← accept .punctuation "(" then
    match budget with
    | 0 => fail .nestedTooDeeply
    | deeper + 1 =>
        let arguments ← separatedUpTo ")" (chain deeper .disjunction)
        mark ")" "after function arguments"
        return .call name arguments
  else if ← accept .punctuation "." then propertyOf name
  else return .reference name
  termination_by 16 * budget
  decreasing_by all_goals have := Precedence.rank_le .disjunction; omega

end

/-- An expression. -/
def expression (budget : Nat) : Recogniser Expression := chain budget .disjunction

end TwinSwarm.Grammar
