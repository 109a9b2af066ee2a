/-!
# Places in a source text

A location is a line and a column, both counted from one.  Walking over a
character moves one column to the right, and a line feed moves to the first
column of the next line.  Every module that speaks of places uses this one rule.
-/

namespace TwinSwarm

/-- A line and a column of a source text. -/
structure Location where
  line : Nat
  column : Nat
  deriving Repr, DecidableEq, Inhabited

namespace Location

/-- The place of the first character. -/
def start : Location := ⟨1, 1⟩

/-- The place given to what no source text holds. -/
def nowhere : Location := ⟨0, 0⟩

/-- The place that follows a character. -/
def after (location : Location) (character : Char) : Location :=
  if character = '\n' then ⟨location.line + 1, 1⟩ else ⟨location.line, location.column + 1⟩

/-- The place that follows a text. -/
def afterText (location : Location) (text : List Char) : Location :=
  text.foldl after location

@[simp] theorem afterText_nil (location : Location) : location.afterText [] = location := rfl

@[simp] theorem afterText_cons (location : Location) (character : Char) (text : List Char) :
    location.afterText (character :: text) = (location.after character).afterText text := rfl

@[simp] theorem afterText_append (location : Location) (left right : List Char) :
    location.afterText (left ++ right) = (location.afterText left).afterText right :=
  List.foldl_append

end Location

end TwinSwarm
