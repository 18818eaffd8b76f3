import PredicateLift.Proofs.Value.Integers
import Mathlib.Order.Compare

/-!
# An order of the literals

The comparisons of literals without floating-point numbers are those of a total order: integers of either width are
ordered by value, and literals of other kinds by kind and then by what they are written with.
-/

namespace PredicateLift

namespace Literal

/-- The kinds of literals in increasing order. -/
def rank : Literal → Nat
  | null => 0
  | bool _ => 1
  | int _ | long _ => 2
  | float _ | double _ => 3
  | str _ => 4
  | constant _ _ => 5
  | array _ | object _ _ => 6

def number : Literal → Int
  | bool b => if b then 1 else 0
  | int n => n.toInt
  | long n => n.toInt
  | _ => 0

/-- The texts that a literal is made of. -/
def texts : Literal → String × String
  | str s => (s, "")
  | constant owner name => (owner, name)
  | _ => ("", "")

/-- The order of two literals. -/
def order : Literal → Literal → Ordering :=
  compareLex (compareOn rank) (compareLex (compareOn number)
    (compareLex (compareOn (·.texts.1)) (compareOn (·.texts.2))))

instance : Std.OrientedCmp order := by
  unfold order
  infer_instance

theorem order_swap (a b : Literal) : order b a = (order a b).swap :=
  Std.OrientedCmp.eq_swap

theorem order_eq_iff {a b : Literal} :
    order a b = .eq ↔ a.rank = b.rank ∧ a.number = b.number ∧ a.texts = b.texts := by
  simp [order, compareLex_eq_eq, compareOn, Prod.ext_iff]

theorem order_of_rank {a b : Literal} (hrank : a.rank = 2) (hrank' : b.rank = 2) :
    order a b = compare a.number b.number := by
  cases a with
  | int _ | long _ =>
      cases b with
      | int _ | long _ => simp [order, compareLex, compareOn, rank, texts]
      | _ => cases hrank'
  | _ => cases hrank

theorem compare_int32 (m n : Int32) : compare m n = compare m.toInt n.toInt := by
  simp only [compare, compareOfLessAndEq, Int32.lt_iff_toInt_lt, Int32.toInt_inj]

theorem compare_int64 (m n : Int64) : compare m n = compare m.toInt n.toInt := by
  simp only [compare, compareOfLessAndEq, Int64.lt_iff_toInt_lt, Int64.toInt_inj]

/-- Numbers are compared in the order of the literals. -/
theorem compare?_ofLiterals? {a b : Literal} (ha : a.isDecimal = false) (hb : b.isDecimal = false) {pair : NumberPair}
    (h : NumberPair.ofLiterals? a b = some pair) : pair.compare? = some (order a b) := by
  cases a with
  | int _ | long _ =>
      cases b with
      | int _ | long _ =>
          cases h
          rw [order_of_rank rfl rfl]
          simp [NumberPair.compare?, number, compare_int32, compare_int64]
      | float _ | double _ => cases hb
      | _ => cases h
  | float _ | double _ => cases ha
  | _ => cases h

theorem order_null {v : Literal} (h : v.isReference = true) : order null v = .lt := by
  cases v with
  | str _ | array _ | object _ _ | constant _ _ => rfl
  | _ => cases h

theorem order_of_equal? {a b : Literal} {outcome : Bool} (h : equal? a b = some outcome) :
    (order a b == .eq) = outcome := by
  unfold equal? at h
  split at h
  · cases h
    rfl
  · split at h
    · rename_i hreference
      cases h
      rw [order_null hreference]
      rfl
    · cases h
  · split at h
    · rename_i hreference
      cases h
      rw [order_swap, order_null hreference]
      rfl
    · cases h
  · rename_i a b
    cases h
    cases a <;> cases b <;> rfl
  · cases h
    rw [Bool.eq_iff_iff, beq_iff_eq, order_eq_iff]
    simp [rank, number, texts]
  · cases h
    rw [Bool.eq_iff_iff, beq_iff_eq, order_eq_iff]
    simp [rank, number, texts]
  · cases h

/-- The comparisons of literals that are no floating-point numbers are those of the order. -/
theorem holds_order {op : Comparison} {a b : Literal} {outcome : Bool} (ha : a.isDecimal = false)
    (hb : b.isDecimal = false) (h : compare? op a b = some outcome) : op.holds (order a b) = outcome := by
  unfold compare? at h
  split at h
  · rename_i pair hpair
    rw [compare?_ofLiterals? ha hb hpair] at h
    cases h
    rfl
  · cases op with
    | eq => exact order_of_equal? h
    | ne =>
        obtain ⟨equal, hequal, rfl⟩ := Option.map_eq_some_iff.mp h
        rw [← order_of_equal? hequal]
        rfl
    | _ => cases h

end Literal

end PredicateLift
