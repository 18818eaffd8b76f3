import PredicateLift.Binary.Arith
import PredicateLift.Fault
import PredicateLift.Value.Conversion

/-!
# Arithmetic and comparison of literals

Two numeric literals are first converted to the wider of their kinds. Integers then wrap around at their width, and
floating-point numbers round at theirs. Numbers compare by value; other literals can only be equal or not, and only
where the outcome does not depend on the identity of objects.
-/

namespace PredicateLift

/-- Two numbers of one kind. -/
inductive NumberPair where
  | int (left right : Int32)
  | long (left right : Int64)
  | float (left right : Single)
  | double (left right : Double)

namespace NumberPair

/-- Two literals as numbers of the wider of their kinds. -/
def ofLiterals? (left right : Literal) : Option NumberPair := do
  let kind := (← left.numeric?).promote (← right.numeric?)
  match ← left.convert? kind, ← right.convert? kind with
  | .int a, .int b => some (int a b)
  | .long a, .long b => some (long a b)
  | .float a, .float b => some (float a b)
  | .double a, .double b => some (double a b)
  | _, _ => none

/-- Whether the right number is zero. -/
def rightIsZero : NumberPair → Bool
  | int _ b => b == 0
  | long _ b => b == 0
  | float _ b => b.isZero
  | double _ b => b.isZero

/-- The order of the numbers, undefined if one of them is a NaN. -/
def compare? : NumberPair → Option Ordering
  | int a b => some (compare a b)
  | long a b => some (compare a b)
  | float a b => a.compare? b
  | double a b => a.compare? b

end NumberPair

/-- The operation on 32-bit integers. -/
def BinaryOperator.onInt32 : BinaryOperator → Int32 → Int32 → Int32
  | .add => (· + ·)
  | .sub => (· - ·)
  | .mul => (· * ·)
  | .div => (· / ·)
  | .rem => (· % ·)

/-- The operation on 64-bit integers. -/
def BinaryOperator.onInt64 : BinaryOperator → Int64 → Int64 → Int64
  | .add => (· + ·)
  | .sub => (· - ·)
  | .mul => (· * ·)
  | .div => (· / ·)
  | .rem => (· % ·)

/-- The operation on floating-point numbers. -/
def BinaryOperator.onBinary {f : Format} : BinaryOperator → Binary f → Binary f → Binary f
  | .add => Binary.add
  | .sub => Binary.sub
  | .mul => Binary.mul
  | .div => Binary.div
  | .rem => Binary.rem

/-- The result of an operation on two numbers of one kind. -/
def NumberPair.apply (op : BinaryOperator) : NumberPair → Literal
  | int a b => .int (op.onInt32 a b)
  | long a b => .long (op.onInt64 a b)
  | float a b => .float (op.onBinary a b)
  | double a b => .double (op.onBinary a b)

namespace Literal

/-- The value of an operation on two literals, if both are numbers. -/
def arith? (op : BinaryOperator) (left right : Literal) : Except Fault (Option Literal) :=
  match NumberPair.ofLiterals? left right with
  | none => .ok none
  | some pair =>
    if op.divides && pair.rightIsZero then .error (.structural (.divisionByZero left op right))
    else .ok (some (pair.apply op))

/-- The value of a query's operation on two literals; negation takes only one. -/
def operate? (op : Operator) (left right : Literal) : Except Fault (Option Literal) :=
  match op with
  | .binary op => arith? op left right
  | .neg => .ok none

/-- The negation of a numeric literal. -/
def negate : Literal → Except Fault Literal
  | int v => .ok (int (-v))
  | long v => .ok (long (-v))
  | float v => .ok (float v.neg)
  | double v => .ok (double v.neg)
  | other => .error (.structural (.cannotNegate other))

/-- Whether two literals that are not both numbers are equal, where that is known. -/
def equal? : Literal → Literal → Option Bool
  | null, null => some true
  | null, other => if other.isReference then some false else none
  | other, null => if other.isReference then some false else none
  | bool a, bool b => some (a == b)
  | str a, str b => some (a == b)
  | constant o n, constant p m => some (o == p && n == m)
  | _, _ => none

/-- The outcome of a comparison of two literals, where it is known. Numbers without an order differ. -/
def compare? (op : Comparison) (left right : Literal) : Option Bool :=
  match NumberPair.ofLiterals? left right with
  | some pair => match pair.compare? with
    | some order => some (op.holds order)
    | none => some (op == .ne)
  | none => match op with
    | .eq => equal? left right
    | .ne => (equal? left right).map (!·)
    | _ => none

end Literal

end PredicateLift
