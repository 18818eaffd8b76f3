import PredicateLift.Value.Folding

/-!
# Integer arithmetic that wraps around

The two kinds of integers differ in their width. Arithmetic on literals gives the exact result, reduced to the width of
the wider operand.
-/

namespace PredicateLift

/-- A kind of integers. -/
inductive IntegerKind where
  | int
  | long
deriving DecidableEq

/-- The exact operation on integers. Division truncates toward zero, and the remainder has the sign of the dividend. -/
def BinaryOperator.onInt : BinaryOperator → Int → Int → Int
  | .add => (· + ·)
  | .sub => (· - ·)
  | .mul => (· * ·)
  | .div => Int.tdiv
  | .rem => Int.tmod

namespace IntegerKind

/-- The kind among the kinds of numbers. -/
def kind : IntegerKind → NumericKind
  | int => .int
  | long => .long

/-- The number of integers of the kind. -/
def size : IntegerKind → Nat
  | int => Int32.size
  | long => Int64.size

/-- The wider of two kinds. -/
def widest : IntegerKind → IntegerKind → IntegerKind
  | int, k => k
  | long, _ => long

/-- The integer of the kind that the given one wraps around to. -/
def wrap (k : IntegerKind) (z : Int) : Int :=
  z.bmod k.size

/-- The literal of the kind that holds an integer, reduced to its width. -/
def literal : IntegerKind → Int → Literal
  | int, z => .int (.ofInt z)
  | long, z => .long (.ofInt z)

@[simp] theorem wrap_wrap (k : IntegerKind) (z : Int) : k.wrap (k.wrap z) = k.wrap z :=
  Int.bmod_bmod

@[simp] theorem wrap_int32 (n : Int32) : int.wrap n.toInt = n.toInt :=
  n.toInt_bmod_size

@[simp] theorem wrap_int64 (n : Int64) : long.wrap n.toInt = n.toInt :=
  n.toInt_bmod_size

@[simp] theorem literal_int32 (n : Int32) : int.literal n.toInt = .int n := by
  rw [literal, Int32.ofInt_toInt]

@[simp] theorem literal_int64 (n : Int64) : long.literal n.toInt = .long n := by
  rw [literal, Int64.ofInt_toInt]

theorem toInt_ofInt32 {z : Int} (h : int.wrap z = z) : (Int32.ofInt z).toInt = z :=
  Int32.toInt_ofInt.trans h

theorem toInt_ofInt64 {z : Int} (h : long.wrap z = z) : (Int64.ofInt z).toInt = z :=
  Int64.toInt_ofInt.trans h

@[simp] theorem literal_wrap (k : IntegerKind) (z : Int) : k.literal (k.wrap z) = k.literal z := by
  cases k with
  | int => simp [literal, ← Int32.toInt_inj, Int32.toInt_ofInt, wrap, size]
  | long => simp [literal, ← Int64.toInt_inj, Int64.toInt_ofInt, wrap, size]

theorem kind_inj {j k : IntegerKind} : j.kind = k.kind ↔ j = k := by
  cases j <;> cases k <;> simp [kind]

theorem widest_eq {i j k : IntegerKind} (hi : i.size ≤ k.size) (hj : j.size ≤ k.size) :
    i.widest j = k ↔ i = k ∨ j = k := by
  cases i <;> cases j <;> cases k <;> simp_all [widest, size, Int32.size, Int64.size]

theorem eq_of_literal_eq {j k : IntegerKind} {x y : Int} (h : j.literal x = k.literal y) : j = k := by
  cases j <;> cases k <;> simp_all [literal]

end IntegerKind

namespace BinaryOperator

theorem onInt32_eq (op : BinaryOperator) (a b : Int32) : op.onInt32 a b = .ofInt (op.onInt a.toInt b.toInt) := by
  rw [← Int32.toInt_inj, Int32.toInt_ofInt]
  cases op with
  | add => exact Int32.toInt_add a b
  | sub => exact Int32.toInt_sub a b
  | mul => exact Int32.toInt_mul a b
  | div => exact Int32.toInt_div a b
  | rem =>
      rw [onInt, ← Int32.toInt_mod, Int32.toInt_bmod_size]
      rfl

theorem onInt64_eq (op : BinaryOperator) (a b : Int64) : op.onInt64 a b = .ofInt (op.onInt a.toInt b.toInt) := by
  rw [← Int64.toInt_inj, Int64.toInt_ofInt]
  cases op with
  | add => exact Int64.toInt_add a b
  | sub => exact Int64.toInt_sub a b
  | mul => exact Int64.toInt_mul a b
  | div => exact Int64.toInt_div a b
  | rem =>
      rw [onInt, ← Int64.toInt_mod, Int64.toInt_bmod_size]
      rfl

end BinaryOperator

namespace NumberPair

theorem apply_int (op : BinaryOperator) (a b : Int32) :
    (int a b).apply op = IntegerKind.int.literal (op.onInt a.toInt b.toInt) := by
  rw [apply, op.onInt32_eq, IntegerKind.literal]

theorem apply_long (op : BinaryOperator) (a b : Int64) :
    (long a b).apply op = IntegerKind.long.literal (op.onInt a.toInt b.toInt) := by
  rw [apply, op.onInt64_eq, IntegerKind.literal]

theorem rightIsZero_int (a b : Int32) : (int a b).rightIsZero = (b.toInt == 0) := by
  rw [rightIsZero, Bool.eq_iff_iff, beq_iff_eq, beq_iff_eq, ← Int32.toInt_inj, Int32.toInt_zero]

theorem rightIsZero_long (a b : Int64) : (long a b).rightIsZero = (b.toInt == 0) := by
  rw [rightIsZero, Bool.eq_iff_iff, beq_iff_eq, beq_iff_eq, ← Int64.toInt_inj, Int64.toInt_zero]

/-- Two integers in the range of their kinds are a pair of the wider kind. -/
theorem ofLiterals?_integers {j k : IntegerKind} {x y : Int} (hx : j.wrap x = x) (hy : k.wrap y = y) :
    ∃ pair, ofLiterals? (j.literal x) (k.literal y) = some pair ∧ pair.rightIsZero = (y == 0) ∧
      ∀ op, pair.apply op = (j.widest k).literal (op.onInt x y) := by
  cases j with
  | int =>
      have hx := IntegerKind.toInt_ofInt32 hx
      cases k with
      | int =>
          have hy := IntegerKind.toInt_ofInt32 hy
          exact ⟨_, rfl, by rw [rightIsZero_int, hy], fun op => by rw [apply_int, hx, hy]; rfl⟩
      | long =>
          have hy := IntegerKind.toInt_ofInt64 hy
          exact ⟨_, rfl, by rw [rightIsZero_long, hy],
            fun op => by rw [apply_long, Int32.toInt_toInt64, hx, hy]; rfl⟩
  | long =>
      have hx := IntegerKind.toInt_ofInt64 hx
      cases k with
      | int =>
          have hy := IntegerKind.toInt_ofInt32 hy
          exact ⟨_, rfl, by rw [rightIsZero_long, Int32.toInt_toInt64, hy],
            fun op => by rw [apply_long, Int32.toInt_toInt64, hx, hy]; rfl⟩
      | long =>
          have hy := IntegerKind.toInt_ofInt64 hy
          exact ⟨_, rfl, by rw [rightIsZero_long, hy], fun op => by rw [apply_long, hx, hy]; rfl⟩

end NumberPair

namespace Literal

theorem negate_integer (k : IntegerKind) (z : Int) : (k.literal z).negate = .ok (k.literal (-z)) := by
  cases k with
  | int => simp [IntegerKind.literal, negate, Int32.ofInt_neg]
  | long => simp [IntegerKind.literal, negate, Int64.ofInt_neg]

/-- Arithmetic on integers is exact up to the width of the wider operand. -/
theorem arith?_integers {op : BinaryOperator} {j k : IntegerKind} {x y : Int} (hx : j.wrap x = x)
    (hy : k.wrap y = y) (hzero : op.divides = true → y ≠ 0) :
    arith? op (j.literal x) (k.literal y) = .ok (some ((j.widest k).literal (op.onInt x y))) := by
  obtain ⟨pair, hpair, hright, happly⟩ := NumberPair.ofLiterals?_integers hx hy
  rw [arith?, hpair]
  have hdivisor : ¬(op.divides && pair.rightIsZero) = true := by
    rw [hright, Bool.and_eq_true, beq_iff_eq]
    exact fun h => hzero h.1 h.2
  simp only [if_neg hdivisor, happly]

end Literal

end PredicateLift
