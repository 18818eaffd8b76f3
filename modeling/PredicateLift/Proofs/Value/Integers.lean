import PredicateLift.Value.Folding

/-!
# Comparisons and integer arithmetic

How comparisons are negated and mirrored, which literals can be calculated with, and that arithmetic on literals without
floating-point numbers gives integers again.
-/

namespace PredicateLift

namespace Comparison

theorem holds_negate (op : Comparison) (o : Ordering) : op.negate.holds o = !op.holds o := by
  cases op <;> cases o <;> rfl

theorem holds_mirror (op : Comparison) (o : Ordering) : op.mirror.holds o.swap = op.holds o := by
  cases op <;> cases o <;> rfl

end Comparison

namespace Literal

/-- Whether a literal is a floating-point number. -/
def isDecimal : Literal → Bool
  | float _ | double _ => true
  | _ => false

def isInteger : Literal → Bool
  | int _ | long _ => true
  | _ => false

theorem isDecimal_of_isInteger {v : Literal} (h : v.isInteger = true) : v.isDecimal = false := by
  cases v with
  | int _ | long _ => rfl
  | _ => cases h

theorem bool?_of_isInteger {v : Literal} (h : v.isInteger = true) : v.bool? = none := by
  cases v with
  | int _ | long _ => rfl
  | _ => cases h

theorem isInteger_negate {v w : Literal} (hv : v.isDecimal = false) (h : v.negate = .ok w) : w.isInteger = true := by
  cases v with
  | int _ | long _ =>
      cases h
      rfl
  | float _ | double _ => cases hv
  | _ => cases h

/-- Two literals that are numbers, but not floating-point numbers, are converted to integers. -/
theorem ofLiterals?_integers {a b : Literal} (ha : a.isDecimal = false) (hb : b.isDecimal = false) {pair : NumberPair}
    (h : NumberPair.ofLiterals? a b = some pair) :
    (∃ x y, pair = .int x y) ∨ ∃ x y, pair = .long x y := by
  cases a with
  | int _ | long _ =>
      cases b with
      | int _ | long _ =>
          cases h
          simp
      | float _ | double _ => cases hb
      | _ => cases h
  | float _ | double _ => cases ha
  | _ => cases h

/-- Two literals can be brought to one kind exactly if both are numbers. -/
theorem ofLiterals?_eq_none_iff {a b : Literal} :
    NumberPair.ofLiterals? a b = none ↔ a.numeric? = none ∨ b.numeric? = none := by
  cases a with
  | int _ | long _ | float _ | double _ =>
      cases b with
      | int _ | long _ | float _ | double _ =>
          refine iff_of_false nofun ?_
          rintro (h | h)
          · cases h
          · cases h
      | _ => exact iff_of_true rfl (.inr rfl)
  | _ => exact iff_of_true rfl (.inl rfl)

theorem isInteger_arith? {op : BinaryOperator} {a b v : Literal} (ha : a.isDecimal = false) (hb : b.isDecimal = false)
    (h : arith? op a b = .ok (some v)) : v.isInteger = true := by
  unfold arith? at h
  split at h
  · cases h
  · rename_i pair hpair
    split at h
    · cases h
    · cases h
      rcases ofLiterals?_integers ha hb hpair with ⟨x, y, rfl⟩ | ⟨x, y, rfl⟩
      · rfl
      · rfl

end Literal

end PredicateLift
