/-!
# Operators

The comparison, logical and arithmetic operators of predicates, with the laws by which a predicate is rewritten.
-/

namespace PredicateLift

/-- A comparison of two values. -/
inductive Comparison where
  | eq
  | ne
  | lt
  | le
  | gt
  | ge
deriving DecidableEq

namespace Comparison

/-- The comparison with the opposite outcome. -/
def negate : Comparison → Comparison
  | eq => ne
  | ne => eq
  | lt => ge
  | le => gt
  | gt => le
  | ge => lt

/-- The comparison with its sides swapped. -/
def mirror : Comparison → Comparison
  | eq => eq
  | ne => ne
  | lt => gt
  | le => ge
  | gt => lt
  | ge => le

/-- Whether two values in the given order pass the comparison. -/
def holds : Comparison → Ordering → Bool
  | eq, o => o == .eq
  | ne, o => o != .eq
  | lt, o => o == .lt
  | le, o => o != .gt
  | gt, o => o == .gt
  | ge, o => o != .lt

/-- How the comparison is written. -/
def symbol : Comparison → String
  | eq => "=="
  | ne => "!="
  | lt => "<"
  | le => "<="
  | gt => ">"
  | ge => ">="

end Comparison

/-- A connective of boolean values. -/
inductive Connective where
  | and
  | or
deriving DecidableEq

namespace Connective

/-- The dual connective. -/
def flip : Connective → Connective
  | and => or
  | or => and

/-- The operand that leaves a combination as it is. -/
def identity : Connective → Bool
  | and => true
  | or => false

/-- How the connective is written. -/
def symbol : Connective → String
  | and => "&&"
  | or => "||"

end Connective

/-- An arithmetic operation on two numbers. -/
inductive BinaryOperator where
  | add
  | sub
  | mul
  | div
  | rem
deriving DecidableEq

namespace BinaryOperator

/-- Whether the operation has no result for a divisor of zero. -/
def divides : BinaryOperator → Bool
  | div | rem => true
  | _ => false

/-- How the operation is written. -/
def symbol : BinaryOperator → String
  | add => "+"
  | sub => "-"
  | mul => "*"
  | div => "/"
  | rem => "%"

end BinaryOperator

/-- An arithmetic operation of a query. -/
inductive Operator where
  | binary (op : BinaryOperator)
  | neg
deriving DecidableEq

/-- How the operation is written. -/
def Operator.symbol : Operator → String
  | .binary op => op.symbol
  | .neg => "-"

end PredicateLift
