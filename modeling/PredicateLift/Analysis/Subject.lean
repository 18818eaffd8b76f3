import PredicateLift.Bindings
import PredicateLift.Fault

/-!
# The subject of a predicate

The one parameter that stays unknown while a predicate is analysed: its declared type and the slot that holds it.
-/

namespace PredicateLift

/-- The declared type of a subject, with the kinds of the fields that are known, by name in increasing order. -/
structure SubjectType where
  name : String
  fields : List (String × Kind) := []
deriving DecidableEq

namespace SubjectType

/-- The type with a field declared, in place of an earlier declaration of its name. -/
def withField (type : SubjectType) (name : String) (kind : Kind) : SubjectType :=
  { type with fields := Bindings.insert name kind type.fields }

/-- The kind of a field. -/
def fieldKind? (type : SubjectType) (name : String) : Option Kind :=
  type.fields.lookup name

/-- The kind of the values of the type. -/
def kind (type : SubjectType) : Kind :=
  .object type.name

end SubjectType

/-- A subject in its slot. -/
structure Subject where
  slot : Slot
  type : SubjectType
deriving DecidableEq

end PredicateLift
