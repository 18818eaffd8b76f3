import PredicateLift.Proofs.Query.Convergence
import PredicateLift.Proofs.Value.Integers

/-!
# The grammar of canonical expressions

`Canonical` says of one node what may stand directly below it. Each rule leaves a node alone exactly if the node is
canonical, and since a pass lowers the weight of what it changes, no pass can undo what another did. The main statement
is that an expression is its own canonical form exactly if all its nodes are canonical.
-/

namespace PredicateLift.Expr

/-! ## The grammar -/

/-- Whether an expression is a comparison, a combination or a negation. -/
def isTest : Expr → Bool
  | compare _ _ _ | combine _ _ | not _ => true
  | _ => false

/-- Whether an expression is a combination with the given connective. -/
def isCombinationOf (op : Connective) : Expr → Bool
  | combine inner _ => inner == op
  | _ => false

/-- A literal stands on the left of a comparison only beside another, and then only if the outcome is not known. -/
def ComparesOpenly (op : Comparison) : Expr → Expr → Prop
  | literal a, literal b => Literal.compare? op a b = none
  | literal _, _ => False
  | _, _ => True

/-- What a negation may stand before. -/
def Negatable : Expr → Prop
  | literal (.bool _) | not _ | combine _ _ => False
  | compare op _ _ => op = .eq
  | _ => True

/-- The operands of an operation that cannot be carried out. -/
def OperatesOpenly : Operator → List Expr → Prop
  | .neg, [literal _] => False
  | .binary _, [literal a, literal b] => a.numeric? = none ∨ b.numeric? = none
  | _, _ => True

/-- What the grammar asks of a node and its direct parts. -/
def Canonical : Expr → Prop
  | literal _ | path _ | call _ _ _ | staticCall _ _ => True
  | compare op left right => op ≠ .ne ∧ ComparesOpenly op left right
  | combine op operands => 2 ≤ operands.length ∧ ∀ e ∈ operands, e.bool? = none ∧ e.isCombinationOf op = false
  | not operand => Negatable operand
  | arith op _ operands => OperatesOpenly op operands
  | conditional test thenBranch elseBranch =>
    test.bool? = none ∧ thenBranch ≠ elseBranch ∧ thenBranch.bool? = none ∧ elseBranch.bool? = none ∧
      (thenBranch.isTest = false ∨ elseBranch.isTest = false)

/-! ## Rules that leave a node alone -/

theorem ne_of_weight_lt {e e' : Expr} (h : e'.weight < e.weight) : e' ≠ e := by
  rintro rfl
  exact Nat.lt_irrefl _ h

theorem canonicalCompare_eq_self_iff {op : Comparison} {left right : Expr} :
    canonicalCompare op left right = .compare op left right ↔ Canonical (.compare op left right) := by
  cases left with
  | literal a =>
      cases right with
      | literal b =>
          simp only [canonicalCompare, literal?, Canonical, ComparesOpenly]
          cases Literal.compare? op a b with
          | none => simp
          | some outcome => simp [bool]
      | _ =>
          -- The mirrored comparison has the literal on the right, so it is another one.
          simp only [canonicalCompare, literal?, Canonical, ComparesOpenly, and_false, iff_false]
          split <;> simp
  | _ => simp [canonicalCompare, literal?, Canonical, ComparesOpenly]

theorem canonicalNot_eq_self_iff {operand : Expr} :
    canonicalNot operand = .not operand ↔ Canonical (.not operand) := by
  unfold canonicalNot
  split
  · simp [Canonical, Negatable, bool]
  · rename_i operand
    have hpos := operand.weight_pos
    have hlt : operand.weight < (not (not operand)).weight := by
      simp only [weight]
      omega
    simpa [Canonical, Negatable] using ne_of_weight_lt hlt
  · simp [Canonical, Negatable]
  · rename_i op left right hop
    simpa [Canonical, Negatable] using hop
  · simp [Canonical, Negatable]
  · simp_all [Canonical, Negatable]

theorem flatten?_cons_of_open {op : Connective} {operand : Expr} {rest : List Expr} (hbool : operand.bool? = none)
    (hop : operand.isCombinationOf op = false) :
    flatten? op (operand :: rest) = (flatten? op rest).map (operand :: ·) := by
  cases operand with
  | literal v =>
      cases v with
      | bool _ => cases hbool
      | _ => rfl
  | combine inner _ => simp_all [flatten?, isCombinationOf]
  | _ => rfl

theorem weights_flatten?_lt {op : Connective} {operand : Expr} {rest flat : List Expr}
    (hopen : ¬(operand.bool? = none ∧ operand.isCombinationOf op = false))
    (h : flatten? op (operand :: rest) = some flat) : weights flat < weights (operand :: rest) := by
  unfold flatten? at h
  split at h
  · split at h
    · have hle := (reducesAll_flatten? h).weights_le
      simp only [weights, weight]
      omega
    · cases h
  · rename_i inner operands
    have hop : inner = op := by simpa [bool?, isCombinationOf] using hopen
    rw [if_pos hop] at h
    obtain ⟨flat', hflat, rfl⟩ := Option.map_eq_some_iff.mp h
    have hle := (reducesAll_flatten? hflat).weights_le
    simp only [weights, weights_append, weight]
    omega
  · rename_i hbool hcombine
    refine absurd ⟨?_, ?_⟩ hopen
    · unfold bool?
      split
      · exact absurd rfl (hbool _)
      · rfl
    · unfold isCombinationOf
      split
      · exact absurd rfl (hcombine _ _)
      · rfl

theorem flatten?_eq_self_iff {op : Connective} {operands : List Expr} :
    flatten? op operands = some operands ↔ ∀ e ∈ operands, e.bool? = none ∧ e.isCombinationOf op = false := by
  induction operands with
  | nil => simp [flatten?]
  | cons operand rest ih =>
      rw [List.forall_mem_cons, ← ih]
      by_cases hopen : operand.bool? = none ∧ operand.isCombinationOf op = false
      · simp [flatten?_cons_of_open hopen.1 hopen.2, hopen]
      · refine iff_of_false (fun h => ?_) (fun h => hopen h.1)
        exact Nat.lt_irrefl _ (weights_flatten?_lt hopen h)

theorem canonicalCombine_eq_self_iff {op : Connective} {operands : List Expr} :
    canonicalCombine op operands = .combine op operands ↔ Canonical (.combine op operands) := by
  rw [Canonical, ← flatten?_eq_self_iff]
  unfold canonicalCombine
  split
  · rename_i hflat
    simp [hflat, bool]
  · rename_i hflat
    refine iff_of_false (by simp [bool]) ?_
    rintro ⟨hlength, h⟩
    cases hflat.symm.trans h
    simp at hlength
  · rename_i operand hflat
    have hle := (reducesAll_flatten? hflat).weights_le
    have hlt : operand.weight < (combine op operands).weight := by
      simp only [weights, weight] at hle ⊢
      omega
    refine iff_of_false (ne_of_weight_lt hlt) ?_
    rintro ⟨hlength, h⟩
    cases hflat.symm.trans h
    simp at hlength
  · rename_i flat hnil hsingle hflat
    rw [hflat]
    cases flat with
    | nil => exact absurd rfl hnil
    | cons first rest =>
        cases rest with
        | nil => exact absurd rfl (hsingle first)
        | cons second rest =>
            simp only [combine.injEq, true_and, Option.some.injEq]
            refine ⟨?_, And.right⟩
            rintro rfl
            exact ⟨by simp, rfl⟩

theorem canonicalArith_eq_self_iff {op : Operator} {kind : NumericKind} {operands : List Expr} :
    canonicalArith op kind operands = .ok (.arith op kind operands) ↔ Canonical (.arith op kind operands) := by
  unfold canonicalArith
  split
  · rename_i v
    simp only [Canonical, OperatesOpenly, iff_false, bind_eq_ok_iff, pure_eq_ok_iff]
    rintro ⟨w, _, h⟩
    cases h
  · rename_i a b
    simp only [bind_eq_ok_iff]
    cases op with
    | neg => simp [Literal.operate?, Canonical, OperatesOpenly, pure, Except.pure]
    | binary op =>
        simp only [Canonical, OperatesOpenly, Literal.operate?, Literal.arith?, ← Literal.ofLiterals?_eq_none_iff]
        cases NumberPair.ofLiterals? a b with
        | none => simp [pure, Except.pure]
        | some pair =>
            refine iff_of_false ?_ nofun
            rintro ⟨result, hresult, h⟩
            dsimp only at hresult
            split at hresult
            · cases hresult
            · cases hresult
              cases h
  · rename_i hpair hneg
    simp only [Canonical, true_iff]
    unfold OperatesOpenly
    split
    · exact hneg _ rfl rfl
    · exact (hpair _ _ rfl).elim
    · trivial

theorem isPredicate_eq_isTest {e : Expr} (h : e.bool? = none) : e.isPredicate = e.isTest := by
  cases e with
  | literal v =>
      cases v with
      | bool _ => cases h
      | _ => rfl
  | _ => rfl

theorem canonicalConditional_eq_self_iff {test thenBranch elseBranch : Expr} :
    canonicalConditional test thenBranch elseBranch = .conditional test thenBranch elseBranch ↔
      Canonical (.conditional test thenBranch elseBranch) := by
  rw [Canonical]
  unfold canonicalConditional
  split
  · rename_i htest
    refine iff_of_false (ne_of_weight_lt ?_) (by simp [htest])
    simp only [weight]
    omega
  · rename_i htest
    refine iff_of_false (ne_of_weight_lt ?_) (by simp [htest])
    simp only [weight]
    omega
  · rename_i htest
    split
    · rename_i heq
      refine iff_of_false (ne_of_weight_lt ?_) (by simp [heq])
      simp only [weight]
      omega
    · rename_i hne
      split
      · rename_i hthen _
        refine iff_of_false (ne_of_weight_lt ?_) (by simp [hthen])
        simp only [weight]
        omega
      · rename_i hthen _
        exact iff_of_false (by simp) (by simp [hthen])
      · rename_i hthen _
        exact iff_of_false (by simp [any]) (by simp [hthen])
      · rename_i hthen _
        exact iff_of_false (by simp [all]) (by simp [hthen])
      · rename_i helse
        exact iff_of_false (by simp [any]) (by simp [helse])
      · rename_i helse
        exact iff_of_false (by simp [all]) (by simp [helse])
      · rename_i hthen helse
        rw [isPredicate_eq_isTest hthen, isPredicate_eq_isTest helse]
        split
        · rename_i hboth
          refine iff_of_false (ne_of_weight_lt (weight_select_lt test thenBranch elseBranch)) ?_
          rw [Bool.and_eq_true] at hboth
          simp [hboth]
        · rename_i hboth
          rw [Bool.not_eq_true, Bool.and_eq_false_iff] at hboth
          exact iff_of_true rfl ⟨htest, hne, hthen, helse, hboth⟩

theorem settle_eq_self_iff {e : Expr} : settle e = .ok e ↔ Canonical e := by
  cases e with
  | compare _ _ _ => simpa [settle] using canonicalCompare_eq_self_iff
  | combine _ _ => simpa [settle] using canonicalCombine_eq_self_iff
  | not _ => simpa [settle] using canonicalNot_eq_self_iff
  | arith _ _ _ => exact canonicalArith_eq_self_iff
  | conditional _ _ _ => simpa [settle] using canonicalConditional_eq_self_iff
  | _ => simp [settle, Canonical]

/-! ## Expressions that no pass changes -/

/-- A pass leaves an expression alone exactly if its rule does, and a pass over each part. -/
theorem pass_eq_self_iff {e : Expr} : pass e = .ok e ↔ settle e = .ok e ∧ ∀ c ∈ e.children, pass c = .ok c := by
  rw [pass_eq_ok_iff, ← onParts_eq_ok_self_iff]
  constructor
  · rintro ⟨m, hm, hs⟩
    -- The parts are not made heavier and the rule does not either, so nothing has changed in between.
    obtain rfl : m = e := (reduces_onParts (fun c _ c' => reduces_pass) hm).antisymm (reduces_settle hs)
    exact ⟨hs, hm⟩
  · rintro ⟨hs, hm⟩
    exact ⟨e, hm, hs⟩

theorem pass_eq_self_iff_canonical {e : Expr} : pass e = .ok e ↔ ∀ n ∈ e.nodes, n.Canonical := by
  induction e using induction_on_parts with
  | h e ih =>
      rw [forall_nodes_iff, pass_eq_self_iff, settle_eq_self_iff]
      exact and_congr_right' (forall₂_congr ih)

/-- An expression is its own canonical form, whatever the limit on passes, exactly if every node obeys the grammar. -/
theorem canonicalize_eq_self_iff (limit : Nat) (e : Expr) :
    e.canonicalize limit = .ok e ↔ ∀ n ∈ e.nodes, n.Canonical := by
  rw [← pass_eq_self_iff_canonical]
  constructor
  · intro h
    obtain ⟨next, hnext, h⟩ := bind_eq_ok_iff.mp (canonicalize_eq limit e ▸ h)
    -- Later passes cannot come back to an expression that the first one changed.
    obtain rfl : next = e := (reduces_pass hnext).antisymm (reduces_passes h)
    exact hnext
  · intro h
    exact canonicalize_of_pass_eq_self h limit

end PredicateLift.Expr
