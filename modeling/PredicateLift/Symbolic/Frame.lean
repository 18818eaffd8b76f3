import PredicateLift.Bindings
import PredicateLift.Symbolic.Capture
import PredicateLift.Symbolic.Value

/-!
# Frames

The state that instructions work on: a stack of operands and the bindings of the local variables.
-/

namespace PredicateLift

/-- Bindings of slots, in increasing order of slots. -/
structure Locals where
  bindings : List (Slot × Symbolic) := []
deriving DecidableEq

namespace Locals

/-- The value bound to a slot. -/
def get? (locals : Locals) (slot : Slot) : Option Symbolic :=
  locals.bindings.lookup slot

/-- Binds a slot to a value. -/
def set (locals : Locals) (slot : Slot) (value : Symbolic) : Locals :=
  ⟨Bindings.insert slot value locals.bindings⟩

/-- Each captured slot bound to its value. -/
def ofCaptures (captures : Captures) : Locals :=
  captures.args.foldl (fun (locals : Locals) arg => locals.set arg.slot (.literal arg.value)) {}

end Locals

/-- The operands, with the top of the stack first, and the local variables. -/
structure Frame where
  stack : List Symbolic := []
  locals : Locals := {}
deriving DecidableEq

namespace Frame

/-- The number of operands. -/
def depth (frame : Frame) : Nat :=
  frame.stack.length

/-- Puts a value on the stack. -/
def push (frame : Frame) (value : Symbolic) : Frame :=
  { frame with stack := value :: frame.stack }

/-- Takes the top of the stack. -/
def pop (frame : Frame) : Except Cause (Symbolic × Frame) :=
  match frame.stack with
  | value :: rest => .ok (value, { frame with stack := rest })
  | [] => .error .emptyStack

/-- Takes the top `n` values, in the order in which they were pushed. -/
def popMany (frame : Frame) (n : Nat) : Except Cause (List Symbolic × Frame) :=
  if n ≤ frame.stack.length then .ok ((frame.stack.take n).reverse, { frame with stack := frame.stack.drop n })
  else .error (.fewOperands n frame.stack.length)

/-- The frame on entry to a body: captured slots hold their values, and the subject stands for itself. -/
def initial (subject : Slot) (captures : Captures) : Except Fault Frame :=
  if (captures.get? subject).isSome then .error (.structural (.subjectCaptured subject))
  else .ok { locals := (Locals.ofCaptures captures).set subject (.var subject) }

end Frame

end PredicateLift
