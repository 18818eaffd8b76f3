import PredicateLift.Proofs.Query.Convergence
import PredicateLift.Proofs.Value.Wrapping

/-!
# Constant arithmetic and its declared widths

An operation declares the kind of its result, and its operands are widened to that kind before it is carried out.
`Yields` is evaluation by this rule. Folding does not look at the declared kind: it takes the width from the literals
that the operands have become. The main statement is that the two agree throughout a tree exactly if every operation in
it has an operand of the kind that it declares.
-/

namespace PredicateLift.Expr

/-! ## Evaluation at declared widths -/

/-- What constant arithmetic on integers gives, with the kind that its root declares. Operands have that kind or a
narrower one, no divisor is zero, and every result wraps around at its declared width. -/
inductive Yields : Expr → IntegerKind → Int → Prop where
  | int (n : Int32) : Yields (.literal (.int n)) .int n.toInt
  | long (n : Int64) : Yields (.literal (.long n)) .long n.toInt
  | neg (k : IntegerKind) {a : Expr} {i : IntegerKind} {x : Int} : Yields a i x → i.size ≤ k.size →
      Yields (.arith .neg k.kind [a]) k (k.wrap (-x))
  | binary (op : BinaryOperator) (k : IntegerKind) {a b : Expr} {i j : IntegerKind} {x y : Int} : Yields a i x →
      Yields b j y → i.size ≤ k.size → j.size ≤ k.size → (op.divides = true → y ≠ 0) →
      Yields (.arith (.binary op) k.kind [a, b]) k (k.wrap (op.onInt x y))

/-- The kind that the root of constant arithmetic declares. -/
def declaredKind? : Expr → Option NumericKind
  | literal v => v.numeric?
  | arith _ kind _ => some kind
  | _ => none

/-- An operation has an operand of the kind that it declares. -/
def Anchored : Expr → Prop
  | arith _ kind operands => ∃ e ∈ operands, e.declaredKind? = some kind
  | _ => True

namespace Yields

variable {e : Expr} {k : IntegerKind} {z : Int}

theorem wrap_eq (h : Yields e k z) : k.wrap z = z := by
  cases h with
  | int n => exact IntegerKind.wrap_int32 n
  | long n => exact IntegerKind.wrap_int64 n
  | neg | binary => exact IntegerKind.wrap_wrap k _

theorem declaredKind? (h : Yields e k z) : e.declaredKind? = some k.kind := by
  cases h with
  | int | long | neg | binary => rfl

end Yields

/-! ## Folding -/

theorem pass_neg (kind : NumericKind) {a : Expr} {i : IntegerKind} {x : Int}
    (ha : pass a = .ok (.literal (i.literal x))) :
    pass (.arith .neg kind [a]) = .ok (.literal (i.literal (-x))) := by
  simp [pass, passAll, ha, ok_bind, canonicalArith, Literal.negate_integer, pure, Except.pure]

theorem pass_binary (kind : NumericKind) {op : BinaryOperator} {a b : Expr} {i j : IntegerKind} {x y : Int}
    (ha : pass a = .ok (.literal (i.literal x))) (hb : pass b = .ok (.literal (j.literal y))) (hx : i.wrap x = x)
    (hy : j.wrap y = y) (hzero : op.divides = true → y ≠ 0) :
    pass (.arith (.binary op) kind [a, b]) = .ok (.literal ((i.widest j).literal (op.onInt x y))) := by
  simp [pass, passAll, ha, hb, ok_bind, canonicalArith, Literal.operate?, Literal.arith?_integers hx hy hzero, pure,
    Except.pure]

theorem canonicalize_of_pass_literal {e : Expr} {v : Literal} (h : pass e = .ok (.literal v)) (limit : Nat) :
    e.canonicalize limit = .ok (.literal v) := by
  rw [canonicalize_eq, h, ok_bind, passes_literal]

theorem nodes_trans {n m e : Expr} (hn : n ∈ m.nodes) (hm : m ∈ e.nodes) : n ∈ e.nodes := by
  induction e using induction_on_parts with
  | h e ih =>
      rcases mem_nodes_iff.mp hm with rfl | ⟨c, hc, hm⟩
      · exact hn
      · exact mem_nodes_iff.mpr (.inr ⟨c, hc, ih c hc hm⟩)

theorem eq_of_canonicalize {e : Expr} {j k : IntegerKind} {x y : Int} {limit : Nat}
    (hp : pass e = .ok (.literal (j.literal x))) (hc : e.canonicalize limit = .ok (.literal (k.literal y))) :
    j = k := by
  have h := (canonicalize_of_pass_literal hp limit).symm.trans hc
  simp only [Except.ok.injEq, literal.injEq] at h
  exact IntegerKind.eq_of_literal_eq h

theorem anchored_neg_iff {a : Expr} {i k : IntegerKind} {x : Int} (ha : Yields a i x) :
    Anchored (.arith .neg k.kind [a]) ↔ i = k := by
  simp [Anchored, ha.declaredKind?, IntegerKind.kind_inj]

theorem anchored_binary_iff {op : BinaryOperator} {a b : Expr} {i j k : IntegerKind} {x y : Int} (ha : Yields a i x)
    (hb : Yields b j y) : Anchored (.arith (.binary op) k.kind [a, b]) ↔ i = k ∨ j = k := by
  simp [Anchored, ha.declaredKind?, hb.declaredKind?, IntegerKind.kind_inj]

namespace Yields

variable {e : Expr} {k : IntegerKind} {z : Int}

theorem pass_of_anchored (h : Yields e k z) (ha : ∀ n ∈ e.nodes, n.Anchored) :
    pass e = .ok (.literal (k.literal z)) := by
  induction h with
  | int n => rw [IntegerKind.literal_int32, pass]
  | long n => rw [IntegerKind.literal_int64, pass]
  | neg _ h _ ih =>
      obtain ⟨hroot, hparts⟩ := forall_nodes_iff.mp ha
      obtain rfl := (anchored_neg_iff h).mp hroot
      rw [IntegerKind.literal_wrap]
      exact pass_neg _ (ih (hparts _ (by simp [children])))
  | binary op k h₁ h₂ hi hj hzero ih₁ ih₂ =>
      obtain ⟨hroot, hparts⟩ := forall_nodes_iff.mp ha
      have hwidest := (IntegerKind.widest_eq hi hj).mpr ((anchored_binary_iff h₁ h₂).mp hroot)
      rw [IntegerKind.literal_wrap, ← hwidest]
      exact pass_binary _ (ih₁ (hparts _ (by simp [children]))) (ih₂ (hparts _ (by simp [children]))) h₁.wrap_eq
        h₂.wrap_eq hzero

/-- Where folding gives every part the kind that it declares, every operation has an operand of its kind. -/
theorem anchored_of_canonicalize (h : Yields e k z) {limit : Nat}
    (hfold : ∀ n ∈ e.nodes, ∀ j x, Yields n j x → n.canonicalize limit = .ok (.literal (j.literal x))) :
    ∀ n ∈ e.nodes, n.Anchored := by
  induction h with
  | int _ | long _ =>
      intro n hn
      cases List.mem_singleton.mp hn
      trivial
  | neg k h hk ih =>
      obtain ⟨hroot, hparts⟩ := forall_nodes_iff.mp hfold
      have ha := ih (hparts _ (by simp [children]))
      -- The operand is folded at its own kind, so the root has the declared kind only if that is the same.
      have hkind := eq_of_canonicalize (pass_neg _ (h.pass_of_anchored ha)) (hroot _ _ (.neg k h hk))
      refine forall_nodes_iff.mpr ⟨(anchored_neg_iff h).mpr hkind, ?_⟩
      simpa [children] using ha
  | binary op k h₁ h₂ hi hj hzero ih₁ ih₂ =>
      obtain ⟨hroot, hparts⟩ := forall_nodes_iff.mp hfold
      have ha₁ := ih₁ (hparts _ (by simp [children]))
      have ha₂ := ih₂ (hparts _ (by simp [children]))
      have hkind := eq_of_canonicalize
        (pass_binary _ (h₁.pass_of_anchored ha₁) (h₂.pass_of_anchored ha₂) h₁.wrap_eq h₂.wrap_eq hzero)
        (hroot _ _ (.binary op k h₁ h₂ hi hj hzero))
      refine forall_nodes_iff.mpr ⟨(anchored_binary_iff h₁ h₂).mpr ((IntegerKind.widest_eq hi hj).mp hkind), ?_⟩
      simpa [children] using ⟨ha₁, ha₂⟩

end Yields

/-- Constant arithmetic on integers is folded to what it yields at its declared widths, in all parts of a tree, exactly
if every operation of the tree has an operand of the kind that it declares. -/
theorem canonicalize_constant_iff {e : Expr} {k : IntegerKind} {z : Int} (h : Yields e k z) (limit : Nat) :
    (∀ n ∈ e.nodes, ∀ j x, Yields n j x → n.canonicalize limit = .ok (.literal (j.literal x))) ↔
      ∀ n ∈ e.nodes, n.Anchored := by
  refine ⟨h.anchored_of_canonicalize, ?_⟩
  intro ha n hn j x hyields
  exact canonicalize_of_pass_literal (hyields.pass_of_anchored fun m hm => ha m (nodes_trans hm hn)) limit

/-- The least integer, as an overflowing sum, divided by minus one and then doubled as a long. -/
def doubledQuotient : Expr :=
  .arith (.binary .mul) .long [
    .arith (.binary .div) .int [
      .arith (.binary .add) .int [.literal (.int 2147483647), .literal (.int 1)],
      .literal (.int (-1))],
    .literal (.long 2)]

theorem yields_doubledQuotient : Yields doubledQuotient .long (-4294967296) := by
  have hsum := Yields.binary .add .int (.int 2147483647) (.int 1) (by decide) (by decide) nofun
  have hquotient := Yields.binary .div .int hsum (.int (-1)) (by decide) (by decide) (by decide)
  exact Yields.binary .mul .long hquotient (.long 2) (by decide) (by decide) nofun

theorem anchored_doubledQuotient : ∀ n ∈ doubledQuotient.nodes, n.Anchored := by
  simp [doubledQuotient, nodes, nodesOf, Anchored, declaredKind?, Literal.numeric?]

theorem canonicalize_doubledQuotient :
    Yields doubledQuotient .long (-4294967296) ∧ (∀ n ∈ doubledQuotient.nodes, n.Anchored) ∧
      doubledQuotient.canonicalize 64 = .ok (.literal (.long (-4294967296))) :=
  ⟨yields_doubledQuotient, anchored_doubledQuotient,
    (canonicalize_constant_iff yields_doubledQuotient 64).mpr anchored_doubledQuotient _ (mem_nodes_iff.mpr (.inl rfl))
      _ _ yields_doubledQuotient⟩

/-- A sum of longs whose operands are sums of integers. -/
def widenedSum : Expr :=
  .arith (.binary .add) .long [
    .arith (.binary .add) .int [.literal (.int 2147483647), .literal (.int 0)],
    .arith (.binary .add) .int [.literal (.int 1), .literal (.int 0)]]

/-- The outer sum fits its declared width, and is folded to an overflowing integer. -/
theorem canonicalize_widenedSum :
    Yields widenedSum .long 2147483648 ∧
      widenedSum.canonicalize 64 = .ok (.literal (.int (-2147483648))) := by
  have hleft := Yields.binary .add .int (.int 2147483647) (.int 0) (by decide) (by decide) nofun
  have hright := Yields.binary .add .int (.int 1) (.int 0) (by decide) (by decide) nofun
  exact ⟨Yields.binary .add .long hleft hright (by decide) (by decide) nofun, rfl⟩

end PredicateLift.Expr
