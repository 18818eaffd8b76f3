import PredicateLift.Fault

/-!
# Captured values

The values that a predicate took from its surroundings, each with the slot that holds it and the kind it was declared
with. A table of captures binds no slot twice and holds only values that fit their declarations.
-/

namespace PredicateLift

/-- A value bound to a slot before the body runs. -/
structure Capture where
  slot : Slot
  value : Literal
  declared : Kind
deriving DecidableEq

/-- A capture declared with the kind of its value. -/
def Capture.inferred (slot : Slot) (value : Literal) : Capture :=
  ⟨slot, value, value.kind⟩

/-- Captures in the order in which they were added. -/
structure Captures where
  args : List Capture := []
deriving DecidableEq

namespace Captures

/-- The capture in a slot. -/
def get? (captures : Captures) (slot : Slot) : Option Capture :=
  captures.args.find? (·.slot == slot)

/-- The captured values. -/
def values (captures : Captures) : List Literal :=
  captures.args.map (·.value)

/-- Adds a capture, if its slot is free and its value fits its declaration. -/
def push (captures : Captures) (arg : Capture) : Except Fault Captures :=
  if (captures.get? arg.slot).isSome then .error (.structural (.capturedTwice arg.slot))
  else if arg.declared.accepts arg.value.kind then .ok ⟨captures.args ++ [arg]⟩
  else .error (.structural (.captureKind arg.slot arg.declared arg.value.kind))

/-- The table of the given captures. -/
def ofList (args : List Capture) : Except Fault Captures :=
  args.foldlM push {}

end Captures

end PredicateLift
