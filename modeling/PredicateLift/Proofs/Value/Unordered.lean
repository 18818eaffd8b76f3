import PredicateLift.Proofs.Value.Order
import PredicateLift.Symbolic.Step

/-!
# Comparisons of values without an order

A NaN has no order to any number. Two values without an order pass no comparison but `!=`: swapping the sides of a
comparison is safe for them, and negating it is not. A three-way comparison gives them an integer by its bias.
-/

namespace PredicateLift

namespace Comparison

/-- Whether two values pass a comparison, given their order if they have one. -/
def outcome (op : Comparison) : Option Ordering → Bool
  | some o => op.holds o
  | none => op == .ne

theorem negate_negate (op : Comparison) : op.negate.negate = op := by
  cases op <;> rfl

theorem negate_mirror (op : Comparison) : op.mirror.negate = op.negate.mirror := by
  cases op <;> rfl

theorem outcome_mirror (op : Comparison) (o : Option Ordering) : op.mirror.outcome (o.map .swap) = op.outcome o := by
  cases o with
  | none => cases op <;> rfl
  | some o => exact op.holds_mirror o

theorem outcome_none_negate (op : Comparison) : op.negate.outcome none = (op == .eq) := by
  cases op <;> rfl

theorem outcome_ne (o : Option Ordering) : ne.outcome o = !eq.outcome o := by
  cases o with
  | none => rfl
  | some o => exact eq.holds_negate o

/-- The outcome of a comparison, as far as it is known from whether the values are equal. -/
def ofEqual : Comparison → Bool → Option Bool
  | eq, equal => some equal
  | ne, equal => some !equal
  | _, _ => none

theorem ofEqual_negate (op : Comparison) (equal : Bool) : op.negate.ofEqual equal = (op.ofEqual equal).map (!·) := by
  cases op with
  | ne => simp [negate, ofEqual]
  | _ => rfl

theorem outcome_of_ofEqual {op : Comparison} {equal outcome : Bool} (h : op.ofEqual equal = some outcome) :
    op.outcome (if equal then some .eq else none) = outcome := by
  cases op with
  | eq | ne =>
      cases h
      cases equal <;> rfl
  | _ => cases h

end Comparison

namespace Bias

/-- The integer that a three-way comparison gives, from the order of its operands if they have one. -/
def result (bias : Bias) : Option Ordering → Int
  | some .lt => -1
  | some .eq => 0
  | some .gt => 1
  | none => match bias with
    | .less => -1
    | .ordered => 0
    | .greater => 1

theorem compare_result_some (bias : Bias) (o : Ordering) : compare (bias.result (some o)) 0 = o := by
  cases o <;> rfl

theorem compare_result_none {bias : Bias} {o : Ordering} (h : bias.order? = some o) :
    compare (bias.result none) 0 = o := by
  cases bias with
  | ordered => cases h
  | less | greater =>
      cases h
      rfl

/-- A biased comparison never gives zero for operands without an order. -/
theorem ne_holds {bias : Bias} {o : Ordering} (h : bias.order? = some o) : Comparison.ne.holds o = true := by
  cases bias with
  | ordered => cases h
  | less | greater =>
      cases h
      rfl

theorem ne_eq_of_holds {bias : Bias} {o : Ordering} (h : bias.order? = some o) {op : Comparison}
    (hop : op.holds o = true) : op ≠ .eq := by
  rintro rfl
  have hne := ne_holds h
  rw [show Comparison.ne = Comparison.negate .eq from rfl, Comparison.holds_negate, hop] at hne
  cases hne

end Bias

theorem Binary.compare?_swap {f : Format} (x y : Binary f) : y.compare? x = (x.compare? y).map .swap := by
  unfold compare?
  rw [Bool.or_comm]
  split
  · rfl
  · rw [Option.map_some, ← Std.OrientedCmp.eq_swap]

namespace NumberPair

def swap : NumberPair → NumberPair
  | int a b => int b a
  | long a b => long b a
  | float a b => float b a
  | double a b => double b a

theorem ofLiterals?_swap (a b : Literal) : ofLiterals? b a = (ofLiterals? a b).map swap := by
  cases a with
  | int _ | long _ | float _ | double _ =>
      cases b with
      | _ => rfl
  | _ =>
      rw [Literal.ofLiterals?_eq_none_iff.mpr (.inr rfl), Literal.ofLiterals?_eq_none_iff.mpr (.inl rfl)]
      rfl

theorem compare?_swap (pair : NumberPair) : pair.swap.compare? = pair.compare?.map .swap := by
  cases pair with
  | int a b => simp [swap, compare?, Literal.compare_int32, ← Std.OrientedCmp.eq_swap]
  | long a b => simp [swap, compare?, Literal.compare_int64, ← Std.OrientedCmp.eq_swap]
  | float a b => exact a.compare?_swap b
  | double a b => exact a.compare?_swap b

end NumberPair

namespace Literal

theorem equal?_comm (a b : Literal) : equal? b a = equal? a b := by
  cases a with
  | null => cases b <;> rfl
  | bool x =>
      cases b with
      | bool y => simp [equal?, Bool.beq_comm]
      | _ => rfl
  | str s =>
      cases b with
      | str t => simp [equal?, BEq.comm]
      | _ => rfl
  | constant o n =>
      cases b with
      | constant p m => simp [equal?, BEq.comm]
      | _ => rfl
  | _ => cases b <;> rfl

/-- The order of two literals, if they have one: numbers by value, and others only if they are known to be equal. -/
def order? (a b : Literal) : Option Ordering :=
  match NumberPair.ofLiterals? a b with
  | some pair => pair.compare?
  | none => if equal? a b = some true then some .eq else none

theorem order?_swap (a b : Literal) : order? b a = (order? a b).map .swap := by
  unfold order?
  rw [NumberPair.ofLiterals?_swap a b, equal?_comm a b]
  cases NumberPair.ofLiterals? a b with
  | some pair => exact pair.compare?_swap
  | none =>
      rw [Option.map_none]
      dsimp only
      split <;> rfl

theorem compare?_of_numbers {op : Comparison} {a b : Literal} {pair : NumberPair}
    (h : NumberPair.ofLiterals? a b = some pair) : compare? op a b = some (op.outcome pair.compare?) := by
  unfold compare?
  rw [h]
  cases hc : pair.compare? <;> simp [Comparison.outcome, hc]

theorem compare?_of_not_numbers {op : Comparison} {a b : Literal} (h : NumberPair.ofLiterals? a b = none) :
    compare? op a b = (equal? a b).bind op.ofEqual := by
  unfold compare?
  rw [h]
  cases equal? a b <;> cases op <;> rfl

/-- A comparison of literals is opposite to its negation, unless both are numbers. So is `==` of any literals. -/
theorem compare?_negate {op : Comparison} {a b : Literal} (h : op = .eq ∨ NumberPair.ofLiterals? a b = none) :
    compare? op.negate a b = (compare? op a b).map (!·) := by
  cases hpair : NumberPair.ofLiterals? a b with
  | some pair =>
      obtain rfl : op = .eq := h.resolve_right (by simp [hpair])
      simp only [compare?_of_numbers hpair, Comparison.negate, Comparison.outcome_ne, Option.map_some]
  | none =>
      rw [compare?_of_not_numbers hpair, compare?_of_not_numbers hpair, Option.map_bind]
      exact congrArg _ (funext op.ofEqual_negate)

/-- A comparison of literals that are not floating-point numbers is opposite to its negation. -/
theorem compare?_negate_of_exact {a b : Literal} (ha : a.isDecimal = false) (hb : b.isDecimal = false)
    (op : Comparison) : compare? op.negate a b = (compare? op a b).map (!·) := by
  cases hpair : NumberPair.ofLiterals? a b with
  | some pair =>
      simp only [compare?_of_numbers hpair, Option.map_some]
      rcases ofLiterals?_integers ha hb hpair with ⟨x, y, rfl⟩ | ⟨x, y, rfl⟩
      · exact congrArg some (op.holds_negate _)
      · exact congrArg some (op.holds_negate _)
  | none => exact compare?_negate (.inr hpair)

theorem outcome_order? {op : Comparison} {a b : Literal} {outcome : Bool} (h : compare? op a b = some outcome) :
    op.outcome (order? a b) = outcome := by
  unfold order?
  cases hpair : NumberPair.ofLiterals? a b with
  | some pair =>
      rw [compare?_of_numbers hpair] at h
      exact Option.some.inj h
  | none =>
      rw [compare?_of_not_numbers hpair] at h
      obtain ⟨equal, hequal, hop⟩ := Option.bind_eq_some_iff.mp h
      simpa only [hequal, Option.some.injEq] using Comparison.outcome_of_ofEqual hop

end Literal

end PredicateLift
