import PredicateLift.Proofs.Query.Rules

/-!
# Passes converge

Every expression has a weight that a pass lowers unless it changes nothing. The weight is linear in the weights of the
parts, so a rule lowers it in every context: a test weighs three times, since a choice between predicates is rewritten
to one copy of the test and one of its negation; a negation doubles, and so pays for its copies on the operands of a
combination; `!=` weighs more than a negated `==`; and the right side of a comparison weighs more than the left, so that
literals sink to the right.

The main statement is that the canonical form does not depend on the limit on passes once that is large enough, and
that no pass changes it any more.
-/

namespace PredicateLift.Expr

/-! ## Weights -/

mutual

/-- What a pass lowers. A negation doubles its operand, so the three tests that a conditional counts pay for the test
and the negated test that a choice becomes. -/
@[simp] def weight : Expr → Nat
  | literal _ => 1
  | path _ => 2
  | compare op left right => (if op = .ne then 3 else 1) * (left.weight + 2 * right.weight)
  | combine _ operands => 2 + weights operands
  | not operand => 2 * operand.weight
  | arith _ _ operands => 2 + weights operands
  | call target _ args => 2 + target.weight + weights args
  | staticCall _ args => 2 + weights args
  | conditional test thenBranch elseBranch => 7 + 3 * test.weight + thenBranch.weight + elseBranch.weight

@[simp] def weights : List Expr → Nat
  | [] => 0
  | e :: es => e.weight + weights es

end

theorem weights_append (es fs : List Expr) : weights (es ++ fs) = weights es + weights fs := by
  induction es with
  | nil => simp [weights]
  | cons e es ih => simp [weights, ih, Nat.add_assoc]

theorem weights_map_not (es : List Expr) : weights (es.map .not) = 2 * weights es := by
  induction es with
  | nil => rfl
  | cons e es ih => simp [weights, weight, ih, Nat.mul_add]

theorem weight_pos (e : Expr) : 0 < e.weight := by
  induction e using induction_on_parts with
  | h e ih =>
      cases e with
      | compare op left right =>
          have hl : 0 < left.weight := ih left (by simp [children])
          rw [weight]
          split <;> omega
      | not operand =>
          have ho : 0 < operand.weight := ih operand (by simp [children])
          rw [weight]
          omega
      | _ =>
          rw [weight]
          omega

/-- Literals are the lightest expressions. -/
theorem two_le_weight {e : Expr} (h : e.literal? = none) : 2 ≤ e.weight := by
  cases e with
  | literal _ => cases h
  | path _ => exact Nat.le_refl 2
  | compare op left right =>
      have hl := left.weight_pos
      have hr := right.weight_pos
      rw [weight]
      split <;> omega
  | not operand =>
      have ho := operand.weight_pos
      rw [weight]
      omega
  | _ =>
      rw [weight]
      omega

/-- The second expression is the first, or it is lighter. -/
def Reduces (e e' : Expr) : Prop :=
  e' = e ∨ e'.weight < e.weight

def ReducesAll (es es' : List Expr) : Prop :=
  es' = es ∨ weights es' < weights es

theorem ReducesAll.weights_le {es es' : List Expr} (h : ReducesAll es es') : weights es' ≤ weights es := by
  rcases h with rfl | h
  · exact Nat.le_refl _
  · exact Nat.le_of_lt h

theorem ReducesAll.congr (C : List Expr → Expr)
    (hC : ∀ {xs ys : List Expr}, weights xs < weights ys → (C xs).weight < (C ys).weight) {es es' : List Expr}
    (h : ReducesAll es es') : Reduces (C es) (C es') := by
  rcases h with rfl | h
  · exact .inl rfl
  · exact .inr (hC h)

theorem ReducesAll.cons {e e' : Expr} {es es' : List Expr} (h : Reduces e e') (hs : ReducesAll es es') :
    ReducesAll (e :: es) (e' :: es') := by
  have hle := hs.weights_le
  rcases h with rfl | h
  · rcases hs with rfl | hs
    · exact .inl rfl
    · exact .inr (by simp only [weights]; omega)
  · exact .inr (by simp only [weights]; omega)

theorem ReducesAll.of_forall₂ {es es' : List Expr} (h : List.Forall₂ Reduces es es') : ReducesAll es es' := by
  induction h with
  | nil => exact .inl rfl
  | cons he _ ih => exact .cons he ih

namespace Reduces

theorem refl (e : Expr) : Reduces e e :=
  .inl rfl

theorem weight_le {e e' : Expr} (h : Reduces e e') : e'.weight ≤ e.weight := by
  rcases h with rfl | h
  · exact Nat.le_refl _
  · exact Nat.le_of_lt h

theorem trans {e e' e'' : Expr} (h : Reduces e e') (h' : Reduces e' e'') : Reduces e e'' := by
  rcases h with rfl | h
  · exact h'
  · exact .inr (Nat.lt_of_le_of_lt h'.weight_le h)

/-- A context in which weights grow with the weight of what stands there keeps reductions. -/
theorem congr (C : Expr → Expr) (hC : ∀ {x y : Expr}, x.weight < y.weight → (C x).weight < (C y).weight)
    {e e' : Expr} (h : Reduces e e') : Reduces (C e) (C e') := by
  rcases h with rfl | h
  · exact .refl _
  · exact .inr (hC h)

/-- An expression that is reduced to a second one and back is that one. -/
theorem antisymm {e e' : Expr} (h : Reduces e e') (h' : Reduces e' e) : e' = e := by
  rcases h with h | h
  · exact h
  · exact absurd h'.weight_le (Nat.not_le_of_lt h)

end Reduces

/-! ## Rules -/

theorem reduces_relation (op : Comparison) (left right : Expr) :
    Reduces (.compare op left right) (relation op left right) := by
  unfold relation
  split
  · rename_i hop
    have hl := left.weight_pos
    refine .inr ?_
    simp only [weight, hop, if_true, reduceCtorEq, if_false]
    omega
  · exact .refl _

theorem weight_mirror_lt {op : Comparison} {a : Literal} {right : Expr} (hr : right.literal? = none) :
    (compare op.mirror right (.literal a)).weight < (compare op (.literal a) right).weight := by
  have hright := two_le_weight hr
  have hne : op.mirror = .ne ↔ op = .ne := by cases op <;> simp [Comparison.mirror]
  simp only [weight, hne]
  split <;> omega

theorem reduces_canonicalCompare (op : Comparison) (left right : Expr) :
    Reduces (.compare op left right) (canonicalCompare op left right) := by
  rcases canonicalCompare_cases op left right with ⟨a, b, outcome, rfl, rfl, -, h⟩ | h | ⟨a, rfl, hr, h⟩
  · rw [h]
    refine .inr ?_
    simp only [weight, bool]
    split <;> omega
  · rw [h]
    exact reduces_relation op left right
  · rw [h]
    exact Reduces.trans (.inr (weight_mirror_lt hr)) (reduces_relation op.mirror right (.literal a))

theorem reduces_canonicalNot (operand : Expr) : Reduces (.not operand) (canonicalNot operand) := by
  unfold canonicalNot
  split
  · exact .inr (by simp [weight, bool])
  · rename_i operand
    have ho := operand.weight_pos
    refine .inr ?_
    simp only [weight]
    omega
  · exact .refl _
  · rename_i op left right hop
    have hl := left.weight_pos
    have hne : op.negate ≠ .ne := by cases op <;> simp_all [Comparison.negate]
    refine .inr ?_
    simp only [weight, if_neg hne]
    split <;> omega
  · refine .inr ?_
    simp only [weight, weights_map_not]
    omega
  · exact .refl _

theorem reducesAll_flatten? {op : Connective} {operands flat : List Expr} (h : flatten? op operands = some flat) :
    ReducesAll operands flat := by
  induction operands generalizing flat with
  | nil =>
      cases h
      exact .inl rfl
  | cons operand rest ih =>
      unfold flatten? at h
      split at h
      · split at h
        · have hle := (ih h).weights_le
          exact .inr (by simp only [weights, weight]; omega)
        · cases h
      · split at h
        · obtain ⟨flat', hflat, rfl⟩ := Option.map_eq_some_iff.mp h
          have hle := (ih hflat).weights_le
          exact .inr (by simp only [weights, weights_append, weight]; omega)
        · obtain ⟨flat', hflat, rfl⟩ := Option.map_eq_some_iff.mp h
          exact .cons (.refl _) (ih hflat)
      · obtain ⟨flat', hflat, rfl⟩ := Option.map_eq_some_iff.mp h
        exact .cons (.refl _) (ih hflat)

theorem reduces_canonicalCombine (op : Connective) (operands : List Expr) :
    Reduces (.combine op operands) (canonicalCombine op operands) := by
  unfold canonicalCombine
  split
  · exact .inr (by simp only [bool, weight]; omega)
  · exact .inr (by simp only [bool, weight]; omega)
  · rename_i operand hflat
    have hle := (reducesAll_flatten? hflat).weights_le
    refine .inr ?_
    simp only [weights, weight] at hle ⊢
    omega
  · rename_i flat _ _ hflat
    rcases reducesAll_flatten? hflat with rfl | hlt
    · exact .refl _
    · exact .inr (by simp only [weight]; omega)

theorem reduces_canonicalArith {op : Operator} {kind : NumericKind} {operands : List Expr} {e' : Expr}
    (h : canonicalArith op kind operands = .ok e') : Reduces (.arith op kind operands) e' := by
  have hliteral : ∀ v, Reduces (.arith op kind operands) (.literal v) :=
    fun v => .inr (by simp only [weight]; omega)
  unfold canonicalArith at h
  split at h
  · obtain ⟨v, _, h⟩ := bind_eq_ok_iff.mp h
    cases pure_eq_ok_iff.mp h
    exact hliteral v
  · obtain ⟨result, _, h⟩ := bind_eq_ok_iff.mp h
    cases result with
    | none =>
        cases pure_eq_ok_iff.mp h
        exact .refl _
    | some v =>
        cases pure_eq_ok_iff.mp h
        exact hliteral v
  · cases h
    exact .refl _

theorem weight_of_splitTail? {e tail b : Expr} {op : Connective} (h : e.splitTail? tail = some (op, b)) :
    b.weight + tail.weight ≤ e.weight := by
  obtain ⟨front, rfl, rfl⟩ := eq_of_splitTail? h
  have hfront := (reduces_canonicalCombine op front).weight_le
  simp only [weight, weights_append, weights] at hfront ⊢
  omega

theorem weight_select_lt (test thenBranch elseBranch : Expr) :
    (select test thenBranch elseBranch).weight < (conditional test thenBranch elseBranch).weight := by
  unfold select
  split
  · rename_i hs
    have hsplit := weight_of_splitTail? hs
    simp only [all, any, weight, weights]
    omega
  · rename_i hs
    have hsplit := weight_of_splitTail? hs
    simp only [all, any, weight, weights]
    omega
  · split
    · rename_i hs
      have hsplit := weight_of_splitTail? hs
      simp only [all, any, weight, weights]
      omega
    · rename_i hs
      have hsplit := weight_of_splitTail? hs
      simp only [all, any, weight, weights]
      omega
    · simp only [all, any, weight, weights]
      omega

theorem reduces_canonicalConditional (test thenBranch elseBranch : Expr) :
    Reduces (.conditional test thenBranch elseBranch) (canonicalConditional test thenBranch elseBranch) := by
  unfold canonicalConditional
  split
  · exact .inr (by simp only [weight]; omega)
  · exact .inr (by simp only [weight]; omega)
  · split
    · exact .inr (by simp only [weight]; omega)
    · split
      · exact .inr (by simp only [weight]; omega)
      · exact .inr (by simp only [weight]; omega)
      · exact .inr (by simp only [any, weight, weights]; omega)
      · exact .inr (by simp only [all, weight, weights]; omega)
      · exact .inr (by simp only [any, weight, weights]; omega)
      · exact .inr (by simp only [all, weight, weights]; omega)
      · split
        · exact .inr (weight_select_lt test thenBranch elseBranch)
        · exact .refl _

theorem reduces_settle {e e' : Expr} (h : settle e = .ok e') : Reduces e e' := by
  unfold settle at h
  split at h
  · cases h
    exact reduces_canonicalCompare _ _ _
  · cases h
    exact reduces_canonicalCombine _ _
  · cases h
    exact reduces_canonicalNot _
  · exact reduces_canonicalArith h
  · cases h
    exact reduces_canonicalConditional _ _ _
  · cases h
    exact .refl _

/-! ## Passes -/

/-- What reduces the parts reduces the whole. -/
theorem reduces_onParts {f : Expr → Except Fault Expr} {e m : Expr}
    (hf : ∀ c ∈ e.children, ∀ c', f c = .ok c' → Reduces c c') (h : onParts f e = .ok m) : Reduces e m := by
  cases e with
  | literal _ | path _ =>
      cases h
      exact .refl _
  | compare op left right =>
      obtain ⟨left', hl, h⟩ := bind_eq_ok_iff.mp h
      obtain ⟨right', hr, h⟩ := bind_eq_ok_iff.mp h
      cases pure_eq_ok_iff.mp h
      have hl' := hf left (by simp [children]) left' hl
      have hr' := hf right (by simp [children]) right' hr
      refine (hl'.congr (.compare op · right) ?_).trans (hr'.congr (.compare op left' ·) ?_)
      all_goals
        intro x y hxy
        simp only [weight]
        split <;> omega
  | combine op operands =>
      obtain ⟨operands', ho, h⟩ := bind_eq_ok_iff.mp h
      cases pure_eq_ok_iff.mp h
      have hs := ReducesAll.of_forall₂ (forall₂_of_mapM ho hf)
      exact hs.congr (.combine op) fun hxy => by simpa only [weight, Nat.add_lt_add_iff_left]
  | not operand =>
      obtain ⟨operand', ho, h⟩ := bind_eq_ok_iff.mp h
      cases pure_eq_ok_iff.mp h
      refine (hf operand (by simp [children]) operand' ho).congr .not ?_
      intro x y hxy
      simp only [weight]
      omega
  | arith op kind operands =>
      obtain ⟨operands', ho, h⟩ := bind_eq_ok_iff.mp h
      cases pure_eq_ok_iff.mp h
      have hs := ReducesAll.of_forall₂ (forall₂_of_mapM ho hf)
      exact hs.congr (.arith op kind) fun hxy => by simpa only [weight, Nat.add_lt_add_iff_left]
  | call target method args =>
      obtain ⟨hft, hfa⟩ := List.forall_mem_cons.mp hf
      obtain ⟨target', ht, h⟩ := bind_eq_ok_iff.mp h
      obtain ⟨args', ha, h⟩ := bind_eq_ok_iff.mp h
      cases pure_eq_ok_iff.mp h
      have hs := ReducesAll.of_forall₂ (forall₂_of_mapM ha hfa)
      refine ((hft target' ht).congr (.call · method args) ?_).trans (hs.congr (.call target' method ·) ?_)
      all_goals
        intro x y hxy
        simp only [weight]
        omega
  | staticCall method args =>
      obtain ⟨args', ha, h⟩ := bind_eq_ok_iff.mp h
      cases pure_eq_ok_iff.mp h
      have hs := ReducesAll.of_forall₂ (forall₂_of_mapM ha hf)
      exact hs.congr (.staticCall method) fun hxy => by simpa only [weight, Nat.add_lt_add_iff_left]
  | conditional test thenBranch elseBranch =>
      obtain ⟨test', ht, h⟩ := bind_eq_ok_iff.mp h
      obtain ⟨thenBranch', ha, h⟩ := bind_eq_ok_iff.mp h
      obtain ⟨elseBranch', hb, h⟩ := bind_eq_ok_iff.mp h
      cases pure_eq_ok_iff.mp h
      have ht' := hf test (by simp [children]) test' ht
      have ha' := hf thenBranch (by simp [children]) thenBranch' ha
      have hb' := hf elseBranch (by simp [children]) elseBranch' hb
      refine (ht'.congr (.conditional · thenBranch elseBranch) ?_).trans
        ((ha'.congr (.conditional test' · elseBranch) ?_).trans (hb'.congr (.conditional test' thenBranch' ·) ?_))
      all_goals
        intro x y hxy
        simp only [weight]
        omega

theorem reduces_pass {e e' : Expr} (h : pass e = .ok e') : Reduces e e' := by
  induction e using induction_on_parts generalizing e' with
  | h e ih =>
      obtain ⟨m, hm, hs⟩ := pass_eq_ok_iff.mp h
      exact (reduces_onParts (fun c hc c' => ih c hc) hm).trans (reduces_settle hs)

theorem reduces_passes {n : Nat} {e e' : Expr} (h : passes n e = .ok e') : Reduces e e' := by
  refine passes_invariant (P := Reduces e) ?_ (.refl e) h
  intro x x' hx hpass
  exact hx.trans (reduces_pass hpass)

/-- As many passes as the weight counts are enough, and then no pass changes anything. -/
theorem passes_converge (e : Expr) :
    ∃ outcome, (∀ n, e.weight ≤ n → passes n e = outcome) ∧ WhenOk outcome fun e' => pass e' = .ok e' := by
  induction hw : e.weight using Nat.strongRecOn generalizing e with
  | ind w ih =>
      subst hw
      have hpos := e.weight_pos
      cases hp : pass e with
      | error fault =>
          refine ⟨.error fault, fun n hn => ?_, .error⟩
          obtain ⟨n, rfl⟩ : ∃ k, n = k + 1 := ⟨n - 1, by omega⟩
          rw [passes_succ, hp]
          rfl
      | ok next =>
          rcases reduces_pass hp with rfl | hlt
          · exact ⟨.ok next, fun n _ => passes_of_pass_eq_self hp n, .ok hp⟩
          · obtain ⟨outcome, hstable, hfixed⟩ := ih next.weight hlt next rfl
            refine ⟨outcome, fun n hn => ?_, hfixed⟩
            obtain ⟨n, rfl⟩ : ∃ k, n = k + 1 := ⟨n - 1, by omega⟩
            rw [passes_succ, hp, ok_bind]
            exact hstable n (by omega)

/-- From some limit on, the outcome of making an expression canonical is the same, and a canonical form that comes out
is its own canonical form. -/
theorem canonicalize_converges (e : Expr) :
    ∃ (bound : Nat) (outcome : Except Fault Expr), (∀ limit, bound ≤ limit → e.canonicalize limit = outcome) ∧
      ∀ e', outcome = .ok e' → ∀ limit, 1 ≤ limit → e'.canonicalize limit = .ok e' := by
  obtain ⟨outcome, hstable, hfixed⟩ := passes_converge e
  refine ⟨e.weight, outcome, fun limit hlimit => hstable _ ?_, ?_⟩
  · exact Nat.le_trans hlimit (Nat.le_max_left limit 1)
  · intro e' he' limit _
    exact canonicalize_of_pass_eq_self (hfixed e' he') limit

end PredicateLift.Expr
