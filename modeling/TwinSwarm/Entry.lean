/-!
# Entries

A value under a key.  Lists of entries keep their order and repeated keys, which tells
them apart from finite maps.
-/

namespace TwinSwarm

/-- A value under a key. -/
structure Entry (α : Type) where
  key : String
  value : α
  deriving Repr, DecidableEq, Inhabited

end TwinSwarm
