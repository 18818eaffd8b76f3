import PredicateLift.Proofs.Value.Wrapping

/-!
# Signed residues

The signed residue of an integer at a width is the one integer of that width which differs from it by a multiple of the
width's size. Arithmetic on two integer literals holds the residue of the exact result at the wider of their widths, and
fails for a division by zero only. The quotient, multiplied back and with the remainder added, is the dividend again,
also where the quotient itself has wrapped around.
-/

namespace PredicateLift

theorem natAbs_tmod_lt {x y : Int} (h : y ≠ 0) : (x.tmod y).natAbs < y.natAbs := by
  rw [Int.natAbs_tmod]
  exact Nat.mod_lt _ (Int.natAbs_pos.mpr h)

theorem mul_tmod_nonneg (x y : Int) : 0 ≤ x * x.tmod y := by
  obtain hx | hx := Int.le_total 0 x
  · exact Int.mul_nonneg hx (Int.tmod_nonneg y hx)
  · have := Int.tmod_nonneg y (a := -x) (by omega)
    rw [Int.neg_tmod] at this
    exact Int.mul_nonneg_of_nonpos_of_nonpos hx (by omega)

namespace IntegerKind

/-- `r` is the signed residue of `z` at the width of the kind. -/
structure Residue (k : IntegerKind) (z r : Int) : Prop where
  congruent : (k.size : Int) ∣ r - z
  lower : -k.size ≤ 2 * r
  upper : 2 * r < k.size

theorem residue_iff {k : IntegerKind} {z r : Int} : k.Residue z r ↔ k.wrap z = r := by
  have hpos : 0 < k.size := by cases k <;> decide
  have heven : 2 * (k.size / 2) = k.size := by cases k <;> rfl
  rw [wrap, Int.bmod_eq_iff hpos]
  constructor
  · rintro ⟨hdvd, hlower, hupper⟩
    exact ⟨by omega, by omega, hdvd⟩
  · rintro ⟨hlower, hupper, hdvd⟩
    exact ⟨hdvd, by omega, by omega⟩

theorem wrap_eq_self_iff {k : IntegerKind} {z : Int} : k.wrap z = z ↔ -k.size ≤ 2 * z ∧ 2 * z < k.size := by
  rw [← residue_iff]
  exact ⟨fun h => ⟨h.lower, h.upper⟩, fun h => ⟨by simp, h.1, h.2⟩⟩

@[simp] theorem widest_self (k : IntegerKind) : k.widest k = k := by
  cases k <;> rfl

@[simp] theorem widest_widest_right (j k : IntegerKind) : (j.widest k).widest k = j.widest k := by
  cases j <;> cases k <;> rfl

theorem size_le_widest (j k : IntegerKind) : j.size ≤ (j.widest k).size ∧ k.size ≤ (j.widest k).size := by
  cases j <;> cases k <;> decide

theorem wrap_widest_left {j k : IntegerKind} {z : Int} (h : j.wrap z = z) : (j.widest k).wrap z = z := by
  have := (size_le_widest j k).1
  rw [wrap_eq_self_iff] at h ⊢
  omega

theorem wrap_widest_right {j k : IntegerKind} {z : Int} (h : k.wrap z = z) : (j.widest k).wrap z = z := by
  have := (size_le_widest j k).2
  rw [wrap_eq_self_iff] at h ⊢
  omega

/-- A remainder is smaller than the divisor, so it never wraps around. -/
theorem wrap_tmod {k : IntegerKind} {x y : Int} (hy : k.wrap y = y) (h : y ≠ 0) : k.wrap (x.tmod y) = x.tmod y := by
  have := natAbs_tmod_lt (x := x) h
  rw [wrap_eq_self_iff] at hy ⊢
  omega

/-- A wrapped quotient still belongs to its remainder: what it lost is a multiple of the size. -/
theorem wrap_quotient_remainder {k : IntegerKind} {x : Int} (y : Int) (hx : k.wrap x = x) :
    k.wrap (k.wrap (k.wrap (x.tdiv y) * y) + x.tmod y) = x := by
  have hquotient : k.wrap (k.wrap (x.tdiv y) * y) = k.wrap (x.tdiv y * y) := Int.bmod_mul_bmod
  calc k.wrap (k.wrap (k.wrap (x.tdiv y) * y) + x.tmod y)
      = k.wrap (k.wrap (x.tdiv y * y) + x.tmod y) := by rw [hquotient]
    _ = k.wrap (x.tdiv y * y + x.tmod y) := Int.bmod_add_bmod
    _ = x := by rw [Int.tdiv_mul_add_tmod, hx]

end IntegerKind

theorem BinaryOperator.divides_iff (op : BinaryOperator) : op.divides = true ↔ op = .div ∨ op = .rem := by
  cases op <;> simp [divides]

namespace Literal

/-- The kind and the value of an integer literal. -/
def integer? : Literal → Option (IntegerKind × Int)
  | int v => some (.int, v.toInt)
  | long v => some (.long, v.toInt)
  | _ => none

/-- The literal is an integer of kind `k`, namely the signed residue of `z`. -/
def HoldsResidue (c : Literal) (k : IntegerKind) (z : Int) : Prop :=
  ∃ r, c.integer? = some (k, r) ∧ k.Residue z r

theorem integer?_literal (k : IntegerKind) (z : Int) : (k.literal z).integer? = some (k, k.wrap z) := by
  cases k with
  | int => simp [integer?, IntegerKind.literal, IntegerKind.wrap, IntegerKind.size, Int32.toInt_ofInt]
  | long => simp [integer?, IntegerKind.literal, IntegerKind.wrap, IntegerKind.size, Int64.toInt_ofInt]

theorem integer?_eq_some_iff {a : Literal} {k : IntegerKind} {z : Int} :
    a.integer? = some (k, z) ↔ a = k.literal z ∧ k.wrap z = z := by
  constructor
  · intro h
    cases a <;> simp only [integer?, Option.some.injEq, Prod.mk.injEq, reduceCtorEq] at h
    all_goals
      obtain ⟨rfl, rfl⟩ := h
      simp
  · rintro ⟨rfl, h⟩
    rw [integer?_literal, h]

theorem holdsResidue_iff {c : Literal} {k : IntegerKind} {z : Int} : c.HoldsResidue k z ↔ c = k.literal z := by
  constructor
  · rintro ⟨r, hc, hr⟩
    rw [IntegerKind.residue_iff] at hr
    rw [(integer?_eq_some_iff.mp hc).1, ← hr, IntegerKind.literal_wrap]
  · rintro rfl
    exact ⟨_, integer?_literal k z, IntegerKind.residue_iff.mpr rfl⟩

theorem arith?_integers_of_zero {op : BinaryOperator} {j k : IntegerKind} {x : Int} (hx : j.wrap x = x)
    (hop : op.divides = true) :
    arith? op (j.literal x) (k.literal 0) =
      .error (.structural (.divisionByZero (j.literal x) op (k.literal 0))) := by
  have hzero : k.wrap 0 = 0 := by cases k <;> rfl
  obtain ⟨pair, hpair, hright, -⟩ := NumberPair.ofLiterals?_integers hx hzero
  simp [arith?, hpair, hright, hop]

/-- The operands may be given by integers that are still to be reduced to their widths. -/
theorem arith?_literals {op : BinaryOperator} {j k : IntegerKind} {x y : Int}
    (hzero : op.divides = true → k.wrap y ≠ 0) :
    arith? op (j.literal x) (k.literal y) =
      .ok (some ((j.widest k).literal (op.onInt (j.wrap x) (k.wrap y)))) := by
  rw [← j.literal_wrap, ← k.literal_wrap, arith?_integers (j.wrap_wrap x) (k.wrap_wrap y) hzero]

/-- Arithmetic on two integer literals fails for a division by zero only, and otherwise holds the signed residue of the
exact result at the wider width. So does negation at its own width. -/
theorem operate?_residues {a b : Literal} {j k : IntegerKind} {x y : Int} (ha : a.integer? = some (j, x))
    (hb : b.integer? = some (k, y)) :
    (∀ op, (∃ fault, operate? (.binary op) a b = .error fault ∧ fault.reason = .divisionByZeroLiteral) ↔
      (op = .div ∨ op = .rem) ∧ y = 0) ∧
    (∀ op, ¬((op = .div ∨ op = .rem) ∧ y = 0) →
      ∃ c, operate? (.binary op) a b = .ok (some c) ∧ c.HoldsResidue (j.widest k) (op.onInt x y)) ∧
    (y ≠ 0 → ∃ q p r z s,
      operate? (.binary .div) a b = .ok (some q) ∧ operate? (.binary .mul) q b = .ok (some p) ∧
      operate? (.binary .rem) a b = .ok (some r) ∧ r.integer? = some (j.widest k, z) ∧
      z.natAbs < y.natAbs ∧ 0 ≤ x * z ∧
      operate? (.binary .add) p r = .ok (some s) ∧ s.integer? = some (j.widest k, x)) ∧
    ∃ c, a.negate = .ok c ∧ c.HoldsResidue j (-x) := by
  obtain ⟨rfl, hx⟩ := integer?_eq_some_iff.mp ha
  obtain ⟨rfl, hy⟩ := integer?_eq_some_iff.mp hb
  simp only [operate?, ← BinaryOperator.divides_iff, holdsResidue_iff]
  refine ⟨fun op => ⟨?_, ?_⟩, fun op hop => ?_, fun hzero => ?_, _, negate_integer j x, rfl⟩
  · rintro ⟨fault, hfault, -⟩
    refine Decidable.byContradiction fun hop => ?_
    rw [arith?_integers hx hy fun hdiv hzero => hop ⟨hdiv, hzero⟩] at hfault
    cases hfault
  · rintro ⟨hop, rfl⟩
    exact ⟨_, arith?_integers_of_zero hx hop, rfl⟩
  · exact ⟨_, arith?_integers hx hy fun hdiv hzero => hop ⟨hdiv, hzero⟩, rfl⟩
  · have hzero' : ∀ op : BinaryOperator, op.divides = true → k.wrap y ≠ 0 := fun _ _ => by rwa [hy]
    -- The quotient may wrap around, so its product with the divisor is only congruent to what is missing.
    have hrem := IntegerKind.wrap_tmod (x := x) (IntegerKind.wrap_widest_right (j := j) hy) hzero
    refine ⟨_, _, _, x.tmod y, _, arith?_literals (hzero' _), arith?_literals (hzero' _), arith?_literals (hzero' _),
      ?_, natAbs_tmod_lt hzero, mul_tmod_nonneg x y, arith?_literals (by simp [BinaryOperator.divides]), ?_⟩
    · rw [integer?_literal, hx, hy, BinaryOperator.onInt, hrem]
    · simp only [integer?_literal, BinaryOperator.onInt, IntegerKind.widest_widest_right, IntegerKind.widest_self, hx, hy,
        hrem, IntegerKind.wrap_quotient_remainder y (IntegerKind.wrap_widest_left hx)]

/-- The least long, divided by the int `-1`: the quotient is one more than the greatest long and wraps around. -/
theorem operate?_residues_least :
    (long Int64.minValue).integer? = some (.long, -9223372036854775808) ∧ (int (-1)).integer? = some (.int, -1) ∧
    (∃ c, operate? (.binary .div) (long Int64.minValue) (int (-1)) = .ok (some c) ∧
      c.HoldsResidue .long 9223372036854775808) ∧
    ∃ c, (long Int64.minValue).negate = .ok c ∧ c.HoldsResidue .long 9223372036854775808 := by
  have hleast : (long Int64.minValue).integer? = some (.long, -9223372036854775808) := by decide
  have hone : (int (-1)).integer? = some (.int, -1) := by decide
  have h := operate?_residues hleast hone
  exact ⟨hleast, hone, h.2.1 .div (by decide), h.2.2.2⟩

end Literal

end PredicateLift
