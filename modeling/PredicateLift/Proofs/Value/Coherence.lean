import PredicateLift.Proofs.Value.Residues
import PredicateLift.Proofs.Value.Unordered

/-!
# Rewritten comparisons of literals

Rewriting a predicate replaces a comparison by the one with its sides swapped, or a negated comparison by the opposite
one. Between literals that are no floating-point numbers the comparison put in has the outcome of the one it stands for,
and is known exactly if that is. Integers of either width compare by their values. Other literals are only equal or
not, and of arrays and objects it is only known that they are not null.
-/

namespace PredicateLift

namespace Comparison

/-- Whether two integers pass the comparison. -/
def onInt (op : Comparison) (x y : Int) : Bool :=
  match op with
  | eq => x = y
  | ne => x ≠ y
  | lt => x < y
  | le => x ≤ y
  | gt => x > y
  | ge => x ≥ y

theorem holds_compare (op : Comparison) (x y : Int) : op.holds (compare x y) = op.onInt x y := by
  rw [Bool.eq_iff_iff]
  cases op with
  | eq | ne => simp [holds, onInt]
  | lt | ge => simp [holds, onInt, Std.compare_eq_lt]
  | le | gt => simp [holds, onInt, Std.compare_eq_gt]

theorem ofEqual_mirror (op : Comparison) (equal : Bool) : op.mirror.ofEqual equal = op.ofEqual equal := by
  cases op <;> rfl

theorem ofEqual_eq_some_iff {op : Comparison} {equal outcome : Bool} :
    op.ofEqual equal = some outcome ↔ op = .eq ∧ outcome = equal ∨ op = .ne ∧ outcome = !equal := by
  cases op <;> simp [ofEqual, eq_comm]

end Comparison

namespace Literal

/-- Swapping the sides of a comparison is safe for all literals. -/
theorem compare?_mirror (op : Comparison) (a b : Literal) : compare? op.mirror b a = compare? op a b := by
  have hswap := NumberPair.ofLiterals?_swap a b
  cases hpair : NumberPair.ofLiterals? a b with
  | some pair =>
      rw [hpair] at hswap
      rw [compare?_of_numbers hpair, compare?_of_numbers hswap, pair.compare?_swap, op.outcome_mirror]
  | none =>
      rw [hpair] at hswap
      rw [compare?_of_not_numbers hpair, compare?_of_not_numbers hswap, equal?_comm a b]
      exact congrArg _ (funext op.ofEqual_mirror)

theorem rank_of_integer? {a : Literal} {k : IntegerKind} {x : Int} (h : a.integer? = some (k, x)) :
    a.isDecimal = false ∧ a.rank = 2 ∧ a.number = x := by
  cases a with
  | int _ | long _ =>
      cases h
      exact ⟨rfl, rfl, rfl⟩
  | _ => cases h

/-- Integers of either width are compared by value. -/
theorem compare?_integers {a b : Literal} {j k : IntegerKind} {x y : Int} (ha : a.integer? = some (j, x))
    (hb : b.integer? = some (k, y)) (op : Comparison) : compare? op a b = some (op.onInt x y) := by
  obtain ⟨rfl, hx⟩ := integer?_eq_some_iff.mp ha
  obtain ⟨rfl, hy⟩ := integer?_eq_some_iff.mp hb
  obtain ⟨hexact, hrank, hnumber⟩ := rank_of_integer? ha
  obtain ⟨hexact', hrank', hnumber'⟩ := rank_of_integer? hb
  obtain ⟨pair, hpair, -⟩ := NumberPair.ofLiterals?_integers hx hy
  have horder : pair.compare? = some (compare x y) := by
    rw [compare?_ofLiterals? hexact hexact' hpair, order_of_rank hrank hrank', hnumber, hnumber']
  rw [compare?_of_numbers hpair, horder, Comparison.outcome, op.holds_compare]

/-- Two literals, not both numbers, of which it is known whether they are equal. -/
inductive Comparable : Literal → Literal → Prop
  | nulls : Comparable null null
  | null_reference {v : Literal} (h : v.isReference = true) : Comparable null v
  | reference_null {v : Literal} (h : v.isReference = true) : Comparable v null
  | bools (x y : Bool) : Comparable (bool x) (bool y)
  | strs (s t : String) : Comparable (str s) (str t)
  | constants (o n p m : String) : Comparable (constant o n) (constant p m)

theorem comparable_of_equal? {a b : Literal} {equal : Bool} (h : equal? a b = some equal) : Comparable a b := by
  unfold equal? at h
  split at h
  · exact .nulls
  · split at h
    · rename_i hreference
      exact .null_reference hreference
    · cases h
  · split at h
    · rename_i hreference
      exact .reference_null hreference
    · cases h
  · exact .bools _ _
  · exact .strs _ _
  · exact .constants _ _ _ _
  · cases h

theorem equal?_null {v : Literal} (h : v.isReference = true) : equal? v null = some (decide (v = null)) := by
  cases v with
  | str _ | array _ | object _ _ | constant _ _ => simp [equal?, isReference]
  | _ => cases h

theorem equal?_of_comparable {a b : Literal} (h : Comparable a b) : equal? a b = some (decide (a = b)) := by
  cases h with
  | nulls => rfl
  | null_reference h => rw [equal?_comm b null, equal?_null h, decide_eq_decide.mpr eq_comm]
  | reference_null h => exact equal?_null h
  | bools x y => simp [equal?, beq_eq_decide]
  | strs s t => simp [equal?, beq_eq_decide]
  | constants o n p m => simp [equal?, beq_eq_decide]

/-- Where the equality of literals is known, it is that of what they are made of. -/
theorem equal?_eq_some_iff {a b : Literal} {equal : Bool} :
    equal? a b = some equal ↔ Comparable a b ∧ equal = decide (a = b) := by
  constructor
  · intro h
    have hcomparable := comparable_of_equal? h
    rw [equal?_of_comparable hcomparable] at h
    exact ⟨hcomparable, (Option.some.inj h).symm⟩
  · rintro ⟨h, rfl⟩
    exact equal?_of_comparable h

theorem compare?_others {op : Comparison} {a b : Literal} {outcome : Bool} (h : a.numeric? = none ∨ b.numeric? = none) :
    compare? op a b = some outcome ↔
      Comparable a b ∧ (op = .eq ∧ outcome = decide (a = b) ∨ op = .ne ∧ outcome = decide (a ≠ b)) := by
  rw [compare?_of_not_numbers (ofLiterals?_eq_none_iff.mpr h), Option.bind_eq_some_iff]
  simp [equal?_eq_some_iff, Comparison.ofEqual_eq_some_iff, and_assoc]

/-- Between literals that are no floating-point numbers, a comparison has the outcome of the one with its sides swapped
and the opposite outcome of its negation, and all three are known together. Integers always compare by value; other
literals are equal or not, where that is known, and have no order. -/
theorem compare?_coherent {a b : Literal} (ha : a.isDecimal = false) (hb : b.isDecimal = false) (op : Comparison) :
    compare? op.mirror b a = compare? op a b ∧
    compare? op.negate a b = (compare? op a b).map (!·) ∧
    (∀ j k x y, a.integer? = some (j, x) → b.integer? = some (k, y) → compare? op a b = some (op.onInt x y)) ∧
    (a.numeric? = none ∨ b.numeric? = none → ∀ outcome, compare? op a b = some outcome ↔
      Comparable a b ∧ (op = .eq ∧ outcome = decide (a = b) ∨ op = .ne ∧ outcome = decide (a ≠ b))) := by
  refine ⟨compare?_mirror op a b, compare?_negate_of_exact ha hb op, ?_, ?_⟩
  · intro j k x y hx hy
    exact compare?_integers hx hy op
  · intro hother outcome
    exact compare?_others hother

/-- The long `4294967295` has the low bits of the int `-1` and is greater. A text is not null. -/
theorem compare?_coherent_sameBits :
    (int (-1)).isDecimal = false ∧ (long 4294967295).isDecimal = false ∧
    compare? .lt (int (-1)) (long 4294967295) = some true ∧
    compare? .gt (long 4294967295) (int (-1)) = some true ∧
    compare? .ge (int (-1)) (long 4294967295) = some false ∧
    (str "").isDecimal = false ∧ null.isDecimal = false ∧ null.numeric? = none ∧
    compare? .ne (str "") null = some true := by
  obtain ⟨hmirror, hnegate, hvalue, -⟩ := compare?_coherent (a := int (-1)) (b := long 4294967295) rfl rfl .lt
  obtain ⟨-, -, -, hothers⟩ := compare?_coherent (a := str "") (b := null) rfl rfl .ne
  have hlt : compare? .lt (int (-1)) (long 4294967295) = some true :=
    (hvalue .int .long (-1) 4294967295 (by decide) (by decide)).trans (by decide)
  refine ⟨rfl, rfl, hlt, hmirror.trans hlt, ?_, rfl, rfl, rfl, ?_⟩
  · rw [hlt] at hnegate
    exact hnegate
  · exact (hothers (.inr rfl) true).mpr ⟨.reference_null rfl, .inr ⟨rfl, by decide⟩⟩

end Literal

end PredicateLift
