import TwinSwarm.Grammar.Program

/-!
# Settings

What a caller may choose about the analysis of a source text.
-/

namespace TwinSwarm

/-- How deep a source text may nest, how much of it an excerpt shows, and whether a
tree that was read without a fault is searched for gaps. -/
structure Settings where
  maxNestingDepth : Nat := Parsing.defaultLimit
  contextRadius : Nat := Text.defaultRadius
  validate : Bool := true
  deriving Repr, DecidableEq, Inhabited

namespace Settings

/-- The settings that hold unless told otherwise. -/
def default : Settings := {}

end Settings

end TwinSwarm
