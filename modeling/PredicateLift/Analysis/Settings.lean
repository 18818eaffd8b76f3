import PredicateLift.Query.Canonical

/-!
# Settings of an analyzer
-/

namespace PredicateLift

/-- How an analyzer works. -/
structure Settings where
  /-- Whether results are kept. -/
  cacheEnabled : Bool := true
  /-- The largest number of results kept, if there is one. -/
  cacheCapacity : Option Nat := none
  /-- The limit on passes of the simplification. -/
  maxPasses : Nat := Expr.defaultPassLimit
deriving DecidableEq

end PredicateLift
