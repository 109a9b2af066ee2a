import TwinSwarm.Location
import TwinSwarm.Tree.Expression

/-!
# Statements

The tree form of the statements of action bodies and rules.  Every statement knows
where it starts.  An `else if` is an else branch that holds one conditional.
-/

namespace TwinSwarm

/-- A statement. -/
inductive Statement where
  | conditional (condition : Expression) (thenBranch : List Statement)
      (elseBranch : Option (List Statement)) (location : Location)
  | loop (name : String) (iterable : Expression) (body : List Statement) (location : Location)
  | log (message : Expression) (level : Option Expression) (location : Location)
  | alert (message : Expression) (severity : Option Expression) (location : Location)
  | notify (target message : Expression) (data : Option Expression) (location : Location)
  | assignment (target : String) (value : Expression) (location : Location)
  | call (name : String) (arguments : List Expression) (location : Location)
  deriving Repr, Inhabited

namespace Statement

/-- Where the statement starts. -/
def location : Statement → Location
  | .conditional _ _ _ location | .loop _ _ _ location | .log _ _ location
  | .alert _ _ location | .notify _ _ _ location | .assignment _ _ location
  | .call _ _ location => location

/-- The name of the kind of node. -/
def typeName : Statement → String
  | .conditional .. => "if_statement"
  | .loop .. => "for_statement"
  | .log .. => "log_statement"
  | .alert .. => "alert_statement"
  | .notify .. => "notify_statement"
  | .assignment .. => "assignment"
  | .call .. => "function_call"

/-! ## Equality -/

mutual

/-- The two statements are the same tree. -/
def same : Statement → Statement → Bool
  | .conditional condition thenBranch elseBranch location,
      .conditional condition' thenBranch' elseBranch' location' =>
      condition = condition' && sameAll thenBranch thenBranch' &&
        sameBranch elseBranch elseBranch' && location = location'
  | .loop name iterable body location, .loop name' iterable' body' location' =>
      name = name' && iterable = iterable' && sameAll body body' && location = location'
  | .log message level location, .log message' level' location' =>
      message = message' && level = level' && location = location'
  | .alert message severity location, .alert message' severity' location' =>
      message = message' && severity = severity' && location = location'
  | .notify target message data location, .notify target' message' data' location' =>
      target = target' && message = message' && data = data' && location = location'
  | .assignment target value location, .assignment target' value' location' =>
      target = target' && value = value' && location = location'
  | .call name arguments location, .call name' arguments' location' =>
      name = name' && arguments = arguments' && location = location'
  | _, _ => false

/-- The two lists hold the same trees in the same order. -/
def sameAll : List Statement → List Statement → Bool
  | [], [] => true
  | first :: rest, first' :: rest' => same first first' && sameAll rest rest'
  | _, _ => false

/-- Both branches are absent, or they are the same. -/
def sameBranch : Option (List Statement) → Option (List Statement) → Bool
  | none, none => true
  | some branch, some branch' => sameAll branch branch'
  | _, _ => false

end

mutual

theorem same_eq_true : {left right : Statement} → same left right = true ↔ left = right
  | .conditional .., right => by
      cases right <;> simp [same, sameAll_eq_true, sameBranch_eq_true, and_assoc]
  | .loop .., right => by
      cases right <;> simp [same, sameAll_eq_true, and_assoc]
  | .log .., right => by
      cases right <;> simp [same, and_assoc]
  | .alert .., right => by
      cases right <;> simp [same, and_assoc]
  | .notify .., right => by
      cases right <;> simp [same, and_assoc]
  | .assignment .., right => by
      cases right <;> simp [same, and_assoc]
  | .call .., right => by
      cases right <;> simp [same, and_assoc]

theorem sameAll_eq_true : {left right : List Statement} →
    sameAll left right = true ↔ left = right
  | [], [] => by simp [sameAll]
  | [], _ :: _ => by simp [sameAll]
  | _ :: _, [] => by simp [sameAll]
  | _ :: _, _ :: _ => by simp [sameAll, same_eq_true, sameAll_eq_true]

theorem sameBranch_eq_true : {left right : Option (List Statement)} →
    sameBranch left right = true ↔ left = right
  | none, none => by simp [sameBranch]
  | none, some _ => by simp [sameBranch]
  | some _, none => by simp [sameBranch]
  | some _, some _ => by simp [sameBranch, sameAll_eq_true]

end

instance : DecidableEq Statement := fun left right =>
  decidable_of_iff (same left right = true) same_eq_true

end Statement

end TwinSwarm
