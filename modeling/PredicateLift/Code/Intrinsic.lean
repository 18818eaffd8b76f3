import PredicateLift.Code.Member
import PredicateLift.Value.Kind

/-!
# Methods with a known meaning

A registry tells what a call of a library method means inside a predicate. An entry is for the methods of one class
or, without an owner, for those of any class.
-/

namespace PredicateLift

/-- What a method means. -/
inductive Intrinsic where
  /-- Wraps a primitive value of the kind. -/
  | box (kind : Kind)
  /-- Unwraps a primitive value of the kind. -/
  | unbox (kind : Kind)
  /-- Compares two values. -/
  | equals
deriving DecidableEq

/-- The methods that an entry is for. -/
structure MethodPattern where
  owner : Option String
  name : String
  descriptor : String
deriving DecidableEq

/-- The known methods. -/
structure Registry where
  entries : List (MethodPattern × Intrinsic) := []

namespace Registry

/-- The number of entries. -/
def size (registry : Registry) : Nat :=
  registry.entries.length

/-- The meaning registered for a pattern. -/
def find? (registry : Registry) (pattern : MethodPattern) : Option Intrinsic :=
  registry.entries.lookup pattern

/-- Gives a pattern a meaning, in place of an earlier one. -/
def register (registry : Registry) (pattern : MethodPattern) (intrinsic : Intrinsic) : Registry :=
  ⟨(pattern, intrinsic) :: registry.entries.filter (·.1 != pattern)⟩

/-- The meaning of a method. An entry for its owner goes before one for any owner. -/
def get? (registry : Registry) (method : Member) : Option Intrinsic :=
  registry.find? ⟨some method.owner, method.name, method.descriptor⟩ <|>
    registry.find? ⟨none, method.name, method.descriptor⟩

/-- The methods of the standard library that box, unbox or compare. -/
def standard : List (MethodPattern × Intrinsic) := [
  (⟨some "java/lang/Integer", "valueOf", "(I)Ljava/lang/Integer;"⟩, .box .int),
  (⟨some "java/lang/Long", "valueOf", "(J)Ljava/lang/Long;"⟩, .box .long),
  (⟨some "java/lang/Float", "valueOf", "(F)Ljava/lang/Float;"⟩, .box .float),
  (⟨some "java/lang/Double", "valueOf", "(D)Ljava/lang/Double;"⟩, .box .double),
  (⟨some "java/lang/Boolean", "valueOf", "(Z)Ljava/lang/Boolean;"⟩, .box .bool),
  (⟨some "java/lang/Integer", "intValue", "()I"⟩, .unbox .int),
  (⟨some "java/lang/Long", "longValue", "()J"⟩, .unbox .long),
  (⟨some "java/lang/Float", "floatValue", "()F"⟩, .unbox .float),
  (⟨some "java/lang/Double", "doubleValue", "()D"⟩, .unbox .double),
  (⟨some "java/lang/Boolean", "booleanValue", "()Z"⟩, .unbox .bool),
  (⟨some "java/util/Objects", "equals", "(Ljava/lang/Object;Ljava/lang/Object;)Z"⟩, .equals),
  (⟨none, "equals", "(Ljava/lang/Object;)Z"⟩, .equals)]

/-- Registers the methods of the standard library. -/
def registerStandard (registry : Registry) : Registry :=
  standard.foldl (fun registry entry => registry.register entry.1 entry.2) registry

/-- The registry of the standard library. -/
def builtin : Registry :=
  registerStandard {}

end Registry

end PredicateLift
