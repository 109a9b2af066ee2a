import TwinSwarm.Entry
import TwinSwarm.Number.Double

/-!
# JSON values

A JSON value keeps the order and the repetitions of the members of its objects, and
the difference between integers and numbers with a fraction or an exponent.
-/

namespace TwinSwarm

/-- A JSON value. -/
inductive Json where
  | null
  | boolean (value : Bool)
  | integer (value : Int)
  | float (value : Double)
  | string (value : String)
  | array (items : List Json)
  | object (members : List (Entry Json))
  deriving Repr, Inhabited

namespace Json

mutual

/-- The number of values on the longest way from the value to one without parts. -/
def height : Json → Nat
  | .array items => heightOfAll items + 1
  | .object members => heightOfMembers members + 1
  | _ => 1

/-- The largest height of several values. -/
def heightOfAll : List Json → Nat
  | [] => 0
  | first :: rest => max (height first) (heightOfAll rest)

/-- The largest height of the values of several members. -/
def heightOfMembers : List (Entry Json) → Nat
  | [] => 0
  | ⟨_, value⟩ :: rest => max (height value) (heightOfMembers rest)

end

/-- The value of an optional part; an absent one is null. -/
def ofOption : Option Json → Json
  | some value => value
  | none => .null

end Json

end TwinSwarm
