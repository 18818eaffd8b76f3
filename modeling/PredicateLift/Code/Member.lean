/-!
# References to members of classes
-/

namespace PredicateLift

/-- A field or a method: the class that owns it, its name, and the descriptor of its kind or signature. -/
structure Member where
  owner : String
  name : String
  descriptor : String
deriving DecidableEq

end PredicateLift
