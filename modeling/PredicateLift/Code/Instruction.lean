import PredicateLift.Code.Member
import PredicateLift.Fault

/-!
# Instructions

The operations that the body of a predicate may hold. They work on a stack of operands and a table of local
variables.
-/

namespace PredicateLift

/-- How a method is found. -/
inductive Dispatch where
  | virtual
  | special
  | static
  | interface
deriving DecidableEq

/-- What a three-way comparison gives for numbers without an order; integers always have one. -/
inductive Bias where
  | ordered
  | less
  | greater
deriving DecidableEq

/-- What a conditional branch tests. -/
inductive Condition where
  /-- One integer against zero. -/
  | zero (op : Comparison)
  /-- Two integers. -/
  | ints (op : Comparison)
  /-- Two references. -/
  | refs (op : Comparison)
  | null
  | nonNull
deriving DecidableEq

/-- What an instruction does. -/
inductive Operation where
  | nop
  | push (value : Literal)
  | load (slot : Slot) (kind : Kind)
  | store (slot : Slot) (kind : Kind)
  | getField (field : Member)
  | getStatic (field : Member)
  | invoke (dispatch : Dispatch) (method : Member)
  | arith (op : BinaryOperator) (kind : NumericKind)
  | negate (kind : NumericKind)
  | convert (source target : NumericKind)
  | compareThreeWay (kind : NumericKind) (bias : Bias)
  | branch (condition : Condition) (target : Offset)
  | jump (target : Offset)
  /-- Returns the top of the stack, or nothing. -/
  | ret (kind : Option Kind)
  | arrayLoad (kind : Kind)
  | arrayLength
  | box (kind : Kind)
  | unbox (kind : Kind)
  | checkCast (className : String)
  | dup
  | pop
deriving DecidableEq

/-- An operation at its place in a body. -/
structure Instruction where
  offset : Offset
  op : Operation
deriving DecidableEq

/-- Where control may go from a branch or a jump. -/
def Instruction.target? (instruction : Instruction) : Option Offset :=
  match instruction.op with
  | .branch _ target => some target
  | .jump target => some target
  | _ => none

end PredicateLift
