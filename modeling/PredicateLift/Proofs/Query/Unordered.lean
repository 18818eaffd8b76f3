import PredicateLift.Proofs.Query.Convergence
import PredicateLift.Proofs.Value.Unordered
import PredicateLift.Symbolic.Lowering

/-!
# Branches on values without an order

A branch on a three-way comparison tests a negated comparison where operands without an order take the branch. A reading
evaluates expressions over values that may have no order. Passes keep the negation only of `==`: any other they replace
by the opposite comparison, which operands without an order fail as well, unless the first pass already decides the
comparison between two numbers. The main statement says exactly when the canonical form of the test holds.
-/

namespace PredicateLift

/-! ## Readings -/

/-- Meanings for the parts of an expression, with an order between those values that have one. -/
structure Reading (V : Type) where
  literal : Literal → V
  path : Path → V
  call : Member → V → List V → V
  staticCall : Member → List V → V
  arith : Operator → NumericKind → List V → V
  holds : V → Bool
  order : V → V → Option Ordering
  holds_bool : ∀ b, holds (literal (.bool b)) = b
  order_swap : ∀ a b, order b a = (order a b).map .swap
  order_literals : ∀ {op a b outcome}, Literal.compare? op a b = some outcome →
    op.outcome (order (literal a) (literal b)) = outcome

namespace Reading

variable {V : Type} (ρ : Reading V)

def truth (b : Bool) : V := ρ.literal (.bool b)

mutual

/-- The value of an expression. -/
@[simp] def value : Expr → V
  | .literal v => ρ.literal v
  | .path p => ρ.path p
  | .compare op left right => ρ.truth (op.outcome (ρ.order (value left) (value right)))
  | .combine .and operands => ρ.truth ((values operands).all ρ.holds)
  | .combine .or operands => ρ.truth ((values operands).any ρ.holds)
  | .not operand => ρ.truth (!ρ.holds (value operand))
  | .arith op kind operands => ρ.arith op kind (values operands)
  | .call target method args => ρ.call method (value target) (values args)
  | .staticCall method args => ρ.staticCall method (values args)
  | .conditional test thenBranch elseBranch =>
    if ρ.holds (value test) then value thenBranch else value elseBranch

@[simp] def values : List Expr → List V
  | [] => []
  | e :: es => value e :: values es

end

def ordering (x y : Expr) : Option Ordering :=
  ρ.order (ρ.value x) (ρ.value y)

@[simp] theorem holds_truth (b : Bool) : ρ.holds (ρ.truth b) = b :=
  ρ.holds_bool b

theorem ordering_swap (x y : Expr) : ρ.ordering y x = (ρ.ordering x y).map .swap :=
  ρ.order_swap _ _

theorem ordering_literals {op : Comparison} {a b : Literal} {outcome : Bool}
    (h : Literal.compare? op a b = some outcome) : op.outcome (ρ.ordering (.literal a) (.literal b)) = outcome := by
  simpa [ordering] using ρ.order_literals h

end Reading

namespace Expr

/-! ## Comparisons under passes -/

theorem canonicalNot_relation (op : Comparison) (x y : Expr) :
    canonicalNot (relation op x y) = relation op.negate x y := by
  cases op <;> rfl

def isNumber : Expr → Bool
  | literal v => v.numeric?.isSome
  | _ => false

/-- Whether one pass makes a number of an expression. -/
def foldsToNumber (e : Expr) : Bool :=
  match pass e with
  | .ok e' => e'.isNumber
  | .error _ => false

theorem isNumber_literals {a b : Literal} :
    ((literal a).isNumber && (literal b).isNumber) = false ↔ NumberPair.ofLiterals? a b = none := by
  rw [Literal.ofLiterals?_eq_none_iff, Bool.and_eq_false_iff]
  simp [isNumber]

theorem compare?_of_isNumber (op : Comparison) {x y : Expr} (h : (x.isNumber && y.isNumber) = true) :
    ∃ a b outcome, x = .literal a ∧ y = .literal b ∧ Literal.compare? op a b = some outcome := by
  cases x with
  | literal a =>
      cases y with
      | literal b =>
          cases hpair : NumberPair.ofLiterals? a b with
          | some pair => exact ⟨a, b, _, rfl, rfl, Literal.compare?_of_numbers hpair⟩
          | none => simp [isNumber_literals.mpr hpair] at h
      | _ => simp [isNumber] at h
  | _ => simp [isNumber] at h

/-- A negated comparison becomes the opposite one, unless both sides are numbers. A negated `==` always does. -/
theorem canonicalNot_canonicalCompare {op : Comparison} {x y : Expr}
    (h : op = .eq ∨ (x.isNumber && y.isNumber) = false) :
    canonicalNot (canonicalCompare op x y) = canonicalCompare op.negate x y := by
  cases x with
  | literal a =>
      cases y with
      | literal b =>
          have hnegate := Literal.compare?_negate (h.imp_right isNumber_literals.mp)
          cases hc : Literal.compare? op a b with
          | some outcome => simp [canonicalCompare, literal?, hc, hnegate, canonicalNot, bool]
          | none =>
              simp only [canonicalCompare, literal?, hc, hnegate, Option.map_none]
              exact canonicalNot_relation op _ _
      | _ =>
          rw [canonicalCompare, canonicalCompare, ← Comparison.negate_mirror]
          exact canonicalNot_relation op.mirror _ _
  | _ => exact canonicalNot_relation op _ _

theorem pass_compare_eq_ok_iff {op : Comparison} {x y e : Expr} :
    pass (.compare op x y) = .ok e ↔
      ∃ x₁ y₁, pass x = .ok x₁ ∧ pass y = .ok y₁ ∧ canonicalCompare op x₁ y₁ = e := by
  simp only [pass, bind_eq_ok_iff, pure_eq_ok_iff]
  grind

theorem pass_not_eq_ok_iff {x e : Expr} : pass (.not x) = .ok e ↔ ∃ x₁, pass x = .ok x₁ ∧ canonicalNot x₁ = e := by
  simp only [pass, bind_eq_ok_iff, pure_eq_ok_iff]

theorem pass_relation_eq_ok {op : Comparison} {x y e : Expr} (h : pass (relation op x y) = .ok e) :
    ∃ x₁ y₁, pass x = .ok x₁ ∧ pass y = .ok y₁ ∧ canonicalCompare op x₁ y₁ = e := by
  unfold relation at h
  split at h
  · rename_i hop
    obtain ⟨_, hm, rfl⟩ := pass_not_eq_ok_iff.mp h
    obtain ⟨x₁, y₁, hx, hy, rfl⟩ := pass_compare_eq_ok_iff.mp hm
    exact ⟨x₁, y₁, hx, hy, by rw [hop, canonicalNot_canonicalCompare (.inl rfl), Comparison.negate]⟩
  · exact pass_compare_eq_ok_iff.mp h

end Expr

namespace Reading

variable {V : Type} (ρ : Reading V)

theorem holds_relation (op : Comparison) (x y : Expr) :
    ρ.holds (ρ.value (.relation op x y)) = op.outcome (ρ.ordering x y) := by
  unfold Expr.relation
  split
  · rename_i hop
    simp [hop, ordering, Comparison.outcome_ne]
  · simp [ordering]

/-- What passes make of a comparison holds by the order of what they make of its sides. -/
def Tracks (n : Nat) (op : Comparison) (x y e : Expr) : Prop :=
  WhenOk (Expr.passes n e) fun e' => ∃ x' y', Expr.passes n x = .ok x' ∧ Expr.passes n y = .ok y' ∧
    ρ.holds (ρ.value e') = op.outcome (ρ.ordering x' y')

variable {ρ}

theorem tracks_canonicalCompare {n : Nat} (hn : ∀ op x y, ρ.Tracks n op x y (.relation op x y)) (op : Comparison)
    (x y : Expr) : ρ.Tracks n op x y (Expr.canonicalCompare op x y) := by
  intro e' he'
  rcases Expr.canonicalCompare_cases op x y with ⟨a, b, outcome, rfl, rfl, hc, h⟩ | h | ⟨a, rfl, -, h⟩
  · rw [h, Expr.bool, Expr.passes_literal] at he'
    cases he'
    refine ⟨.literal a, .literal b, Expr.passes_literal n a, Expr.passes_literal n b, ?_⟩
    rw [ρ.ordering_literals hc]
    exact ρ.holds_bool outcome
  · rw [h] at he'
    exact hn op x y e' he'
  · -- The sides are swapped, and so is the order of their values.
    rw [h] at he'
    obtain ⟨y', x', hy, hx, hholds⟩ := hn op.mirror y (.literal a) e' he'
    refine ⟨x', y', hx, hy, ?_⟩
    rw [hholds, ordering_swap, Comparison.outcome_mirror]

theorem tracks_relation (n : Nat) : ∀ op x y, ρ.Tracks n op x y (.relation op x y) := by
  induction n with
  | zero =>
      intro op x y e' he'
      cases he'
      exact ⟨x, y, rfl, rfl, ρ.holds_relation op x y⟩
  | succ n ih =>
      intro op x y e' he'
      rw [Expr.passes_succ] at he'
      obtain ⟨m, hm, he'⟩ := bind_eq_ok_iff.mp he'
      obtain ⟨x₁, y₁, hx, hy, rfl⟩ := Expr.pass_relation_eq_ok hm
      obtain ⟨x', y', hx', hy', hholds⟩ := tracks_canonicalCompare ih op x₁ y₁ e' he'
      refine ⟨x', y', ?_, ?_, hholds⟩
      · rw [Expr.passes_succ, hx, ok_bind, hx']
      · rw [Expr.passes_succ, hy, ok_bind, hy']

/-! ## Canonical forms of tests -/

variable (ρ)

theorem holds_canonicalize_compare (op : Comparison) (x y : Expr) (limit : Nat) :
    WhenOk (Expr.canonicalize limit (.compare op x y)) fun e' =>
      ∃ x' y', x.canonicalize limit = .ok x' ∧ y.canonicalize limit = .ok y' ∧
        ρ.holds (ρ.value e') = op.outcome (ρ.ordering x' y') := by
  intro e' he'
  rw [Expr.canonicalize_eq] at he'
  obtain ⟨m, hm, he'⟩ := bind_eq_ok_iff.mp he'
  obtain ⟨x₁, y₁, hx, hy, rfl⟩ := Expr.pass_compare_eq_ok_iff.mp hm
  simp only [Expr.canonicalize_eq, hx, hy, ok_bind]
  exact tracks_canonicalCompare (tracks_relation _) op x₁ y₁ e' he'

/-- The canonical form of a negated comparison is exact if both sides become numbers at once. Otherwise it holds as the
opposite comparison does. -/
theorem holds_canonicalize_not (op : Comparison) (x y : Expr) (limit : Nat) :
    WhenOk (Expr.canonicalize limit (.not (.compare op x y))) fun e' =>
      ∃ x' y', x.canonicalize limit = .ok x' ∧ y.canonicalize limit = .ok y' ∧
        ρ.holds (ρ.value e') = if x.foldsToNumber && y.foldsToNumber then !op.outcome (ρ.ordering x' y')
          else op.negate.outcome (ρ.ordering x' y') := by
  intro e' he'
  rw [Expr.canonicalize_eq] at he'
  obtain ⟨m, hm, he'⟩ := bind_eq_ok_iff.mp he'
  obtain ⟨c, hc, rfl⟩ := Expr.pass_not_eq_ok_iff.mp hm
  obtain ⟨x₁, y₁, hx, hy, rfl⟩ := Expr.pass_compare_eq_ok_iff.mp hc
  simp only [Expr.canonicalize_eq, hx, hy, ok_bind, Expr.foldsToNumber]
  split
  · rename_i hnumbers
    -- The comparison is decided before the rule for negations sees it.
    obtain ⟨a, b, outcome, rfl, rfl, hdecided⟩ := Expr.compare?_of_isNumber op hnumbers
    rw [Expr.canonicalCompare_literals hdecided, Expr.bool, Expr.canonicalNot, Expr.bool, Expr.passes_literal] at he'
    cases he'
    refine ⟨.literal a, .literal b, Expr.passes_literal _ a, Expr.passes_literal _ b, ?_⟩
    rw [ρ.ordering_literals hdecided]
    exact ρ.holds_bool _
  · rename_i hnumbers
    -- After one pass nothing tells the negation from the opposite comparison.
    rw [Expr.canonicalNot_canonicalCompare (.inr (Bool.eq_false_iff.mpr hnumbers))] at he'
    exact tracks_canonicalCompare (tracks_relation _) op.negate x₁ y₁ e' he'

end Reading

/-! ## Operands without tests -/

namespace Expr

/-- Whether the root of an expression is neither a test nor a choice. -/
def isTerm : Expr → Bool
  | compare _ _ _ | combine _ _ | not _ | conditional _ _ _ => false
  | _ => true

/-- There is no test and no choice in an expression. -/
def Plain (e : Expr) : Prop :=
  ∀ n ∈ e.nodes, n.isTerm = true

instance (e : Expr) : Decidable e.Plain :=
  inferInstanceAs (Decidable (∀ n ∈ e.nodes, n.isTerm = true))

theorem plain_iff {e : Expr} : e.Plain ↔ e.isTerm = true ∧ ∀ c ∈ e.children, c.Plain :=
  forall_nodes_iff

theorem plain_literal (v : Literal) : (literal v).Plain :=
  plain_iff.mpr ⟨rfl, nofun⟩

end Expr

namespace Reading

variable {V : Type} {ρ : Reading V}

/-- Arithmetic on literals is read as it is folded. -/
structure Calculates (ρ : Reading V) : Prop where
  neg : ∀ {kind v w}, v.negate = .ok w → ρ.arith .neg kind [ρ.literal v] = ρ.literal w
  binary : ∀ {op kind a b v}, Literal.arith? op a b = .ok (some v) →
    ρ.arith (.binary op) kind [ρ.literal a, ρ.literal b] = ρ.literal v

/-- A computation gives a plain expression of the same value. -/
def Keeps (ρ : Reading V) (x : Except Fault Expr) (v : V) : Prop :=
  WhenOk x fun e' => ρ.value e' = v ∧ e'.Plain

theorem keeps_canonicalArith (hρ : ρ.Calculates) (op : Operator) (kind : NumericKind) {operands : List Expr}
    (h : ∀ e ∈ operands, e.Plain) :
    ρ.Keeps (Expr.canonicalArith op kind operands) (ρ.arith op kind (ρ.values operands)) := by
  have hsame : ρ.Keeps (.ok (.arith op kind operands)) (ρ.arith op kind (ρ.values operands)) :=
    .ok ⟨by rw [value], Expr.plain_iff.mpr ⟨rfl, h⟩⟩
  unfold Expr.canonicalArith
  split
  · rename_i v
    intro e' he'
    obtain ⟨w, hw, he'⟩ := bind_eq_ok_iff.mp he'
    cases he'
    exact ⟨(hρ.neg hw).symm, Expr.plain_literal w⟩
  · rename_i a b _
    intro e' he'
    obtain ⟨v?, hv, he'⟩ := bind_eq_ok_iff.mp he'
    cases v? with
    | none => exact hsame e' he'
    | some v =>
        cases he'
        cases op with
        | neg => cases hv
        | binary op => exact ⟨(hρ.binary hv).symm, Expr.plain_literal v⟩
  · exact hsame

theorem values_of_forall₂ {es es' : List Expr}
    (h : List.Forall₂ (fun e e' => ρ.value e' = ρ.value e ∧ e'.Plain) es es') :
    ρ.values es' = ρ.values es ∧ ∀ e' ∈ es', e'.Plain := by
  induction h with
  | nil => exact ⟨rfl, nofun⟩
  | cons he _ ih => exact ⟨by rw [values, values, he.1, ih.1], List.forall_mem_cons.mpr ⟨he.2, ih.2⟩⟩

theorem keeps_settle (hρ : ρ.Calculates) {e : Expr} (h : e.Plain) : ρ.Keeps e.settle (ρ.value e) := by
  obtain ⟨hroot, hparts⟩ := Expr.plain_iff.mp h
  cases e with
  | compare | combine | not | conditional => cases hroot
  | arith op kind operands =>
      rw [value]
      exact keeps_canonicalArith hρ op kind hparts
  | _ => exact .ok ⟨rfl, h⟩

theorem keeps_onParts {f : Expr → Except Fault Expr} {e : Expr} (h : e.Plain)
    (hf : ∀ c ∈ e.children, ρ.Keeps (f c) (ρ.value c)) : ρ.Keeps (e.onParts f) (ρ.value e) := by
  obtain ⟨hroot, -⟩ := Expr.plain_iff.mp h
  cases e with
  | literal | path => exact .ok ⟨rfl, h⟩
  | compare | combine | not | conditional => cases hroot
  | arith op kind operands =>
      intro m hm
      obtain ⟨operands', ho, hm⟩ := bind_eq_ok_iff.mp hm
      cases pure_eq_ok_iff.mp hm
      obtain ⟨hvalues, hplain⟩ := values_of_forall₂ (forall₂_of_mapM ho hf)
      exact ⟨by rw [value, value, hvalues], Expr.plain_iff.mpr ⟨rfl, hplain⟩⟩
  | call target method args =>
      obtain ⟨hft, hfa⟩ := List.forall_mem_cons.mp hf
      intro m hm
      obtain ⟨target', ht, hm⟩ := bind_eq_ok_iff.mp hm
      obtain ⟨args', ha, hm⟩ := bind_eq_ok_iff.mp hm
      cases pure_eq_ok_iff.mp hm
      obtain ⟨hvalue, htarget⟩ := hft target' ht
      obtain ⟨hvalues, hplain⟩ := values_of_forall₂ (forall₂_of_mapM ha hfa)
      exact ⟨by rw [value, value, hvalue, hvalues],
        Expr.plain_iff.mpr ⟨rfl, List.forall_mem_cons.mpr ⟨htarget, hplain⟩⟩⟩
  | staticCall method args =>
      intro m hm
      obtain ⟨args', ha, hm⟩ := bind_eq_ok_iff.mp hm
      cases pure_eq_ok_iff.mp hm
      obtain ⟨hvalues, hplain⟩ := values_of_forall₂ (forall₂_of_mapM ha hf)
      exact ⟨by rw [value, value, hvalues], Expr.plain_iff.mpr ⟨rfl, hplain⟩⟩

theorem keeps_pass (hρ : ρ.Calculates) {e : Expr} (h : e.Plain) : ρ.Keeps (Expr.pass e) (ρ.value e) := by
  induction e using Expr.induction_on_parts with
  | h e ih =>
      have hparts := (Expr.plain_iff.mp h).2
      rw [Expr.pass_eq]
      refine (keeps_onParts h fun c hc => ih c hc (hparts c hc)).bind ?_
      rintro m ⟨hvalue, hplain⟩
      rw [← hvalue]
      exact keeps_settle hρ hplain

theorem keeps_passes (hρ : ρ.Calculates) (n : Nat) {e : Expr} (h : e.Plain) : ρ.Keeps (Expr.passes n e) (ρ.value e) := by
  intro e' he'
  refine Expr.passes_invariant (P := fun x => ρ.value x = ρ.value e ∧ x.Plain) ?_ ⟨rfl, h⟩ he'
  rintro x x' ⟨hvalue, hplain⟩ hx'
  rw [← hvalue]
  exact keeps_pass hρ hplain x' hx'

theorem value_canonicalize {e e' : Expr} {limit : Nat} (h : e.canonicalize limit = .ok e') (hρ : ρ.Calculates)
    (hplain : e.Plain) : ρ.value e' = ρ.value e :=
  (keeps_passes hρ _ hplain e' h).1

end Reading

/-! ## Branches -/

theorem Symbolic.lower_threeWayTest {bias : Bias} {order : Ordering} (hbias : bias.order? = some order) (op : Comparison)
    {subject : Slot} {l r : Symbolic} {x y : Expr} (hl : l.lower subject = .ok x) (hr : r.lower subject = .ok y) :
    (threeWayTest op l r bias).lower subject =
      .ok (if op.holds order then .not (.compare op.negate x y) else .compare op x y) := by
  unfold threeWayTest
  rw [hbias]
  dsimp only
  split <;> simp [Symbolic.lower, hl, hr, ok_bind, pure, Except.pure]

namespace Reading

variable {V : Type} (ρ : Reading V)

/-- The canonical form of the test that a three-way comparison against zero becomes. -/
theorem holds_canonicalize_threeWay {bias : Bias} {order : Ordering} (hbias : bias.order? = some order)
    (op : Comparison) (x y : Expr) (limit : Nat) :
    WhenOk (Expr.canonicalize limit
        (if op.holds order then .not (.compare op.negate x y) else .compare op x y)) fun e' =>
      ∃ x' y', x.canonicalize limit = .ok x' ∧ y.canonicalize limit = .ok y' ∧
        (ρ.holds (ρ.value e') = true ↔ op.holds (compare (bias.result (ρ.ordering x' y')) 0) = true ∧
          ((ρ.ordering x' y').isSome = true ∨ op = .ne ∨ x.foldsToNumber = true ∧ y.foldsToNumber = true)) := by
  intro e' he'
  split at he'
  · rename_i htaken
    obtain ⟨x', y', hx, hy, hholds⟩ := holds_canonicalize_not ρ _ x y limit e' he'
    refine ⟨x', y', hx, hy, ?_⟩
    rw [hholds, Comparison.negate_negate]
    cases ρ.ordering x' y' with
    | some o => simp [Comparison.outcome, bias.compare_result_some, Comparison.holds_negate]
    | none =>
        have hop := Bias.ne_eq_of_holds hbias htaken
        rw [Bias.compare_result_none hbias, htaken, Comparison.outcome_none_negate, beq_false_of_ne hop]
        cases hnumbers : x.foldsToNumber && y.foldsToNumber with
        | true => simp [Bool.and_eq_true_iff.mp hnumbers]
        | false =>
            have hnot : ¬(x.foldsToNumber = true ∧ y.foldsToNumber = true) := by
              simp [← Bool.and_eq_true, hnumbers]
            simp [Comparison.outcome, hnot]
  · rename_i htaken
    obtain ⟨x', y', hx, hy, hholds⟩ := holds_canonicalize_compare ρ op x y limit e' he'
    refine ⟨x', y', hx, hy, ?_⟩
    rw [hholds]
    cases ρ.ordering x' y' with
    | some o => simp [Comparison.outcome, bias.compare_result_some]
    | none =>
        have hop : op ≠ .ne := fun h => htaken (h ▸ Bias.ne_holds hbias)
        simp [Comparison.outcome, Bias.compare_result_none hbias, htaken, hop]

/-- The canonical form of a branch's test holds exactly if the result of the three-way comparison passes, and in
addition the operands have an order, or the test is for inequality, or both operands become numbers at once. The operands
are taken in canonical form, which keeps their values if no test stands inside them and arithmetic is read as it is
folded. -/
theorem holds_canonicalize_branch (registry : Registry) (frame : Frame) (kind : NumericKind) (target : Offset)
    (op : Comparison) (limit : Nat) {subject : Slot} {l r : Symbolic} {x y : Expr} {bias : Bias}
    (hl : l.lower subject = .ok x) (hr : r.lower subject = .ok y) (hbias : bias ≠ .ordered) :
    ∃ compared test e,
      (Operation.compareThreeWay kind bias).run registry ((frame.push l).push r) = .ok (.next compared) ∧
      (Operation.branch (.zero op) target).run registry compared = .ok (.branch test target frame) ∧
      test.lower subject = .ok e ∧
      ∀ e', e.canonicalize limit = .ok e' → ∃ x' y',
        x.canonicalize limit = .ok x' ∧ (ρ.Calculates → x.Plain → ρ.value x' = ρ.value x) ∧
        y.canonicalize limit = .ok y' ∧ (ρ.Calculates → y.Plain → ρ.value y' = ρ.value y) ∧
        (ρ.holds (ρ.value e') = true ↔ op.holds (compare (bias.result (ρ.ordering x' y')) 0) = true ∧
          ((ρ.ordering x' y').isSome = true ∨ op = .ne ∨ x.foldsToNumber = true ∧ y.foldsToNumber = true)) := by
  obtain ⟨order, horder⟩ : ∃ order, bias.order? = some order := by
    cases bias with
    | ordered => exact absurd rfl hbias
    | less | greater => exact ⟨_, rfl⟩
  refine ⟨frame.push (.threeWay l r bias), threeWayTest op l r bias,
    if op.holds order then .not (.compare op.negate x y) else .compare op x y, rfl, rfl, ?_, ?_⟩
  · exact Symbolic.lower_threeWayTest horder op hl hr
  · intro e' he'
    obtain ⟨x', y', hx, hy, hholds⟩ := holds_canonicalize_threeWay ρ horder op x y limit e' he'
    exact ⟨x', y', hx, value_canonicalize hx, hy, value_canonicalize hy, hholds⟩

/-! ## An instance -/

/-- The reading that looks paths up in a table, knows no methods, and orders the literals. -/
def ofTable (table : List (Path × Literal)) : Reading Literal where
  literal := id
  path p := (table.lookup p).getD .null
  call _ _ _ := .null
  staticCall _ _ := .null
  arith
    | .neg, _, [v] => match v.negate with
      | .ok w => w
      | .error _ => .null
    | .binary op, _, [a, b] => match Literal.arith? op a b with
      | .ok (some v) => v
      | _ => .null
    | _, _, _ => .null
  holds v := v == .bool true
  order := Literal.order?
  holds_bool b := by cases b <;> rfl
  order_swap := Literal.order?_swap
  order_literals := Literal.outcome_order?

theorem ofTable_calculates (table : List (Path × Literal)) : (ofTable table).Calculates where
  neg h := by simp [ofTable, h]
  binary h := by simp [ofTable, h]

/-- A reading in which the score is not a number. -/
def unscored : Reading Literal :=
  ofTable [(⟨[.field "score"]⟩, .double ⟨0x7ff8000000000000⟩)]

def score : Symbolic := .field (.var 0) ⟨"Person", "score", "D"⟩

def scorePath : Expr := .path ⟨[.field "score"]⟩

def negatedMinusOne : Symbolic := .negative (.literal (.double ⟨0xbff0000000000000⟩)) .double

def one : Expr := .literal (.double ⟨0x3ff0000000000000⟩)

theorem holds_canonicalize_branch_unscored :
    ∃ compared test e,
      (Operation.compareThreeWay .double .less).run .builtin ((({} : Frame).push score).push negatedMinusOne) =
        .ok (.next compared) ∧
      (Operation.branch (.zero .ne) 7).run .builtin compared = .ok (.branch test 7 {}) ∧
      test.lower 0 = .ok e ∧ e.canonicalize 64 = .ok (.not (.compare .eq scorePath one)) ∧
      unscored.ordering scorePath one = none ∧
      unscored.holds (unscored.value (.not (.compare .eq scorePath one))) = true := by
  have hl : score.lower 0 = .ok scorePath := rfl
  have hr : negatedMinusOne.lower 0 = .ok (.arith .neg .double [.literal (.double ⟨0xbff0000000000000⟩)]) := rfl
  have hbias : Bias.less ≠ .ordered := nofun
  obtain ⟨compared, test, e, hcompared, htest, he, h⟩ :=
    holds_canonicalize_branch unscored .builtin {} .double 7 .ne 64 hl hr hbias
  have hcanonical : e.canonicalize 64 = .ok (.not (.compare .eq scorePath one)) := by
    cases hcompared
    cases htest
    cases he
    rfl
  obtain ⟨x', y', -, hx, -, hy, hholds⟩ := h _ hcanonical
  have hnone : unscored.ordering x' y' = none := by
    rw [ordering, hx (ofTable_calculates _) (by decide), hy (ofTable_calculates _) (by decide)]
    rfl
  refine ⟨compared, test, e, hcompared, htest, he, hcanonical, rfl, hholds.mpr ⟨?_, .inr (.inl rfl)⟩⟩
  rw [hnone]
  rfl

/-- A three-way comparison with that bias puts the score below one. The test holds, and its canonical form does not. -/
theorem not_holds_canonicalize_unscored :
    ∃ compared test e,
      (Operation.compareThreeWay .double .less).run .builtin
        ((({} : Frame).push score).push (.literal (.double ⟨0x3ff0000000000000⟩))) = .ok (.next compared) ∧
      (Operation.branch (.zero .lt) 7).run .builtin compared = .ok (.branch test 7 {}) ∧
      test.lower 0 = .ok e ∧ e.canonicalize 64 = .ok (.compare .lt scorePath one) ∧
      Comparison.lt.holds (compare (Bias.less.result (unscored.ordering scorePath one)) 0) = true ∧
      unscored.holds (unscored.value e) = true ∧
      unscored.holds (unscored.value (.compare .lt scorePath one)) = false :=
  ⟨_, _, _, rfl, rfl, rfl, rfl, rfl, rfl, rfl⟩

end Reading

end PredicateLift
