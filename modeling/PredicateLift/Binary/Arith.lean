import PredicateLift.Binary.Rounding

/-!
# Floating-point arithmetic and order

Each operation computes its exact result and rounds it once. An operand that is a NaN is passed on, the left one
first, and an operation without a result gives `Binary.invalid`.
-/

namespace PredicateLift.Binary

variable {f : Format}

/-- The number with the opposite sign. -/
def neg (x : Binary f) : Binary f :=
  ⟨x.bits ^^^ BitVec.twoPow f.width (f.width - 1)⟩

/-- Runs `op` on two operands that are numbers, and passes on a NaN. -/
def lift (op : Binary f → Binary f → Binary f) (x y : Binary f) : Binary f :=
  if x.isNaN then x.quiet else if y.isNaN then y.quiet else op x y

/-- A magnitude with a sign. -/
def signed (negative : Bool) (units : Nat) : Int :=
  if negative then -units else units

/-- The sum of two numbers. A sum of zero is negative only if both operands are. -/
def addNumbers (x y : Binary f) : Binary f :=
  match x.datum, y.datum with
  | .infinite a, .infinite b => if a = b then infinite f a else invalid f
  | .infinite a, _ => infinite f a
  | _, .infinite b => infinite f b
  | .finite a m, .finite b n =>
    let sum := signed a m + signed b n
    if sum = 0 then zero f (a && b) else round f (decide (sum < 0)) sum.natAbs 1
  | _, _ => invalid f

/-- Addition. -/
def add : Binary f → Binary f → Binary f :=
  lift addNumbers

/-- Subtraction. -/
def sub : Binary f → Binary f → Binary f :=
  lift fun x y => addNumbers x y.neg

/-- Multiplication. -/
def mul : Binary f → Binary f → Binary f :=
  lift fun x y =>
    let negative := x.negative ^^ y.negative
    match x.datum, y.datum with
    | .finite _ m, .finite _ n => round f negative (m * n) (twoPow f.scale)
    | _, _ => if x.isZero || y.isZero then invalid f else infinite f negative

/-- Division. -/
def div : Binary f → Binary f → Binary f :=
  lift fun x y =>
    let negative := x.negative ^^ y.negative
    match x.datum, y.datum with
    | .finite _ m, .finite _ n =>
      if n = 0 then if m = 0 then invalid f else infinite f negative
      else round f negative (m * twoPow f.scale) n
    | .finite _ _, _ => zero f negative
    | _, .finite _ _ => infinite f negative
    | _, _ => invalid f

/-- The remainder of the division that truncates toward zero. It has the sign of the dividend. -/
def rem : Binary f → Binary f → Binary f :=
  lift fun x y =>
    match x.datum, y.datum with
    | .finite a m, .finite _ n => if n = 0 then invalid f else round f a (m % n) 1
    | .finite _ _, _ => x
    | _, _ => invalid f

/-- The order of two numbers, undefined if either is a NaN. Zeros of both signs are equal. -/
def compare? (x y : Binary f) : Option Ordering :=
  if x.isNaN || y.isNaN then none
  else some (compare (signed x.negative x.units) (signed y.negative y.units))

end PredicateLift.Binary
