import PredicateLift.Proofs.Fallible
import PredicateLift.Query.Canonical
import Mathlib.Data.List.Forall2

/-!
# A pass as parts and a rule

A pass carries itself out on the direct parts of an expression and then applies one rule to the root. What holds of the
rule and of the parts therefore holds of a pass, by induction on the direct parts, and what a pass preserves is
preserved by several. The rule for comparisons has three outcomes, which `canonicalCompare_cases` tells apart.
-/

namespace PredicateLift

/-- A computation on the members of a list succeeds exactly if it does so on each of them. -/
theorem mapM_eq_ok_iff {ε α β : Type} {f : α → Except ε β} {as : List α} {bs : List β} :
    as.mapM f = .ok bs ↔ List.Forall₂ (fun a b => f a = .ok b) as bs := by
  induction as generalizing bs with
  | nil =>
      rw [List.mapM_nil, pure_eq_ok_iff, List.forall₂_nil_left_iff]
      exact eq_comm
  | cons a as ih =>
      simp only [List.mapM_cons, bind_eq_ok_iff, pure_eq_ok_iff, List.forall₂_cons_left_iff, ih]
      constructor
      · rintro ⟨b, hb, cs, hcs, rfl⟩
        exact ⟨b, cs, hb, hcs, rfl⟩
      · rintro ⟨b, cs, hb, hcs, rfl⟩
        exact ⟨b, hb, cs, hcs, rfl⟩

theorem forall₂_of_mapM {ε α β : Type} {f : α → Except ε β} {R : α → β → Prop} {as : List α} {bs : List β}
    (h : as.mapM f = .ok bs) (hf : ∀ a ∈ as, ∀ b, f a = .ok b → R a b) : List.Forall₂ R as bs := by
  induction mapM_eq_ok_iff.mp h with
  | nil => exact .nil
  | cons hb hbs ih =>
      obtain ⟨hfirst, hrest⟩ := List.forall_mem_cons.mp hf
      exact .cons (hfirst _ hb) (ih (mapM_eq_ok_iff.mpr hbs) hrest)

namespace Expr

/-! ## The rule for the root -/

/-- The rule for the node at the root. -/
def settle : Expr → Except Fault Expr
  | compare op left right => .ok (canonicalCompare op left right)
  | combine op operands => .ok (canonicalCombine op operands)
  | not operand => .ok (canonicalNot operand)
  | arith op kind operands => canonicalArith op kind operands
  | conditional test thenBranch elseBranch => .ok (canonicalConditional test thenBranch elseBranch)
  | e => .ok e

/-- Carries out a computation on each direct part, from left to right. -/
def onParts (f : Expr → Except Fault Expr) : Expr → Except Fault Expr
  | compare op left right => do return .compare op (← f left) (← f right)
  | combine op operands => do return .combine op (← operands.mapM f)
  | not operand => do return .not (← f operand)
  | arith op kind operands => do return .arith op kind (← operands.mapM f)
  | call target method args => do return .call (← f target) method (← args.mapM f)
  | staticCall method args => do return .staticCall method (← args.mapM f)
  | conditional test thenBranch elseBranch => do return .conditional (← f test) (← f thenBranch) (← f elseBranch)
  | e => .ok e

theorem passAll_eq_mapM (es : List Expr) : passAll es = es.mapM pass := by
  induction es with
  | nil => rfl
  | cons e es ih => rw [passAll, ih, List.mapM_cons]

theorem pass_eq (e : Expr) : pass e = onParts pass e >>= settle := by
  cases e with
  | literal _ | path _ => rfl
  | _ =>
      simp only [pass, onParts, passAll_eq_mapM, bind_assoc, pure_bind]
      rfl

theorem pass_eq_ok_iff {e e' : Expr} : pass e = .ok e' ↔ ∃ m, onParts pass e = .ok m ∧ settle m = .ok e' := by
  rw [pass_eq, bind_eq_ok_iff]

/-- A computation on the parts leaves an expression as it is exactly if it does so with each part. -/
theorem onParts_eq_ok_self_iff {f : Expr → Except Fault Expr} {e : Expr} :
    onParts f e = .ok e ↔ ∀ c ∈ e.children, f c = .ok c := by
  cases e with
  | literal _ | path _ => simp [onParts, children]
  | _ =>
      simp only [onParts, children, bind_eq_ok_iff, pure_eq_ok_iff, mapM_eq_ok_iff]
      grind [List.forall₂_same]

/-! ## Comparisons -/

/-- A comparison, with `!=` as a negated `==`. -/
def relation (op : Comparison) (x y : Expr) : Expr :=
  if op = .ne then .not (.compare .eq x y) else .compare op x y

theorem canonicalCompare_literals {op : Comparison} {a b : Literal} {outcome : Bool}
    (h : Literal.compare? op a b = some outcome) :
    canonicalCompare op (.literal a) (.literal b) = bool outcome := by
  simp [canonicalCompare, literal?, h]

/-- A comparison is decided between literals, or becomes a relation of its sides, swapped if only the left one is a
literal. -/
theorem canonicalCompare_cases (op : Comparison) (x y : Expr) :
    (∃ a b outcome, x = .literal a ∧ y = .literal b ∧ Literal.compare? op a b = some outcome ∧
      canonicalCompare op x y = bool outcome) ∨
    canonicalCompare op x y = relation op x y ∨
    ∃ a, x = .literal a ∧ y.literal? = none ∧ canonicalCompare op x y = relation op.mirror y x := by
  cases x with
  | literal a =>
      cases y with
      | literal b =>
          cases hc : Literal.compare? op a b with
          | some outcome => exact .inl ⟨a, b, outcome, rfl, rfl, hc, canonicalCompare_literals hc⟩
          | none => exact .inr (.inl (by simp [canonicalCompare, literal?, hc, relation]))
      | _ => exact .inr (.inr ⟨a, rfl, rfl, rfl⟩)
  | _ => exact .inr (.inl rfl)

/-! ## Induction on parts -/

mutual

/-- A property that an expression has if its direct parts have it holds of all expressions. -/
@[elab_as_elim]
theorem induction_on_parts {P : Expr → Prop} (e : Expr) (h : ∀ e, (∀ c ∈ e.children, P c) → P e) : P e :=
  match e with
  | literal _ | path _ => h _ nofun
  | compare _ left right => h _ (by simp [children, induction_on_parts left h, induction_on_parts right h])
  | combine _ operands => h _ (forall_of_parts operands h)
  | not operand => h _ (by simp [children, induction_on_parts operand h])
  | arith _ _ operands => h _ (forall_of_parts operands h)
  | call target _ args =>
      h _ (List.forall_mem_cons.mpr ⟨induction_on_parts target h, forall_of_parts args h⟩)
  | staticCall _ args => h _ (forall_of_parts args h)
  | conditional test thenBranch elseBranch =>
      h _ (by simp [children, induction_on_parts test h, induction_on_parts thenBranch h,
        induction_on_parts elseBranch h])

theorem forall_of_parts {P : Expr → Prop} (es : List Expr) (h : ∀ e, (∀ c ∈ e.children, P c) → P e) :
    ∀ e ∈ es, P e :=
  match es with
  | [] => nofun
  | e :: es => List.forall_mem_cons.mpr ⟨induction_on_parts e h, forall_of_parts es h⟩

end

theorem mem_nodesOf_iff {n : Expr} {es : List Expr} : n ∈ nodesOf es ↔ ∃ e ∈ es, n ∈ e.nodes := by
  induction es with
  | nil => simp [nodesOf]
  | cons e es ih => simp [nodesOf, ih]

theorem mem_nodes_iff {n e : Expr} : n ∈ e.nodes ↔ n = e ∨ ∃ c ∈ e.children, n ∈ c.nodes := by
  cases e <;> simp [nodes, children, mem_nodesOf_iff]

theorem forall_nodes_iff {P : Expr → Prop} {e : Expr} :
    (∀ n ∈ e.nodes, P n) ↔ P e ∧ ∀ c ∈ e.children, ∀ n ∈ c.nodes, P n := by
  simp only [mem_nodes_iff (e := e)]
  constructor
  · intro h
    exact ⟨h e (.inl rfl), fun c hc n hn => h n (.inr ⟨c, hc, hn⟩)⟩
  · rintro ⟨he, hc⟩ n (rfl | ⟨c, hmem, hn⟩)
    · exact he
    · exact hc c hmem n hn

/-! ## Repeated passes -/

theorem passes_of_pass_eq_self {e : Expr} (h : pass e = .ok e) (n : Nat) : passes n e = .ok e := by
  cases n with
  | zero => rfl
  | succ n => simp [passes, h, ok_bind, pure, Except.pure]

theorem passes_literal (n : Nat) (v : Literal) : passes n (.literal v) = .ok (.literal v) :=
  passes_of_pass_eq_self rfl n

/-- Stopping early makes no difference. -/
theorem passes_succ (n : Nat) (e : Expr) : passes (n + 1) e = pass e >>= passes n := by
  rw [passes]
  cases hp : pass e with
  | error _ => rfl
  | ok next =>
      rw [ok_bind, ok_bind]
      split
      · rename_i heq
        rw [heq] at hp ⊢
        exact (passes_of_pass_eq_self hp n).symm
      · rfl

/-- There is always a first pass. -/
theorem canonicalize_eq (limit : Nat) (e : Expr) : e.canonicalize limit = pass e >>= passes (limit - 1) := by
  have hlimit : passLimit limit = limit - 1 + 1 := by
    unfold passLimit
    omega
  rw [canonicalize, hlimit, passes_succ]

theorem canonicalize_of_pass_eq_self {e : Expr} (h : pass e = .ok e) (limit : Nat) : e.canonicalize limit = .ok e :=
  passes_of_pass_eq_self h _

theorem passes_invariant {P : Expr → Prop} (hpass : ∀ {e e'}, P e → pass e = .ok e' → P e') {n : Nat} {e e' : Expr}
    (he : P e) (h : passes n e = .ok e') : P e' := by
  induction n generalizing e with
  | zero =>
      cases h
      exact he
  | succ n ih =>
      rw [passes_succ] at h
      obtain ⟨next, hnext, h⟩ := bind_eq_ok_iff.mp h
      exact ih (hpass he hnext) h

end Expr

end PredicateLift
