import PredicateLift.Proofs.Flow.OrGroups
import PredicateLift.Proofs.Query.Flattening
import PredicateLift.Symbolic.Lowering

/-!
# Recovery of chained disjunctions

The value of a chain of groups is a conjunction that is nested to the right, once for each group. One pass from the
leaves up turns the negated tests around and splices every tail into its conjunction, so the chain comes back as one
conjunction of disjunctions, whatever the limit on passes.
-/

namespace PredicateLift

/-- The test that a field of the subject compares so to zero. -/
def Expr.fieldTest (op : Comparison) (name : String) : Expr :=
  .compare op (.path (Path.root.child (.field name))) (.literal (.int 0))

theorem Expr.settled_fieldTest {op : Comparison} (hop : op ≠ .ne) (name : String) : (fieldTest op name).Settled := by
  have hparts : ∀ c ∈ (fieldTest op name).children, c.Settled := by
    simp [fieldTest, children, Settled, nodes, Canonical]
  exact settled_iff.mpr ⟨⟨hop, trivial⟩, hparts⟩

theorem Expr.pass_fieldTest {op : Comparison} (hop : op ≠ .ne) (name : String) :
    (fieldTest op name).pass = .ok (fieldTest op name) :=
  pass_eq_self_iff_canonical.mpr (settled_fieldTest hop name)

namespace OrGroups

variable (groups : OrGroups)

/-- What a group tests. -/
def operand (i : Nat) : Expr :=
  .any [.fieldTest .gt (groups.first i).name, .fieldTest .gt (groups.second i).name]

/-- What the chain tests. -/
def expression : Expr :=
  .all ((List.range groups.count).map groups.operand)

variable {groups}

/-! ## Lowering and one pass -/

theorem settled_operand (i : Nat) : (groups.operand i).Settled := by
  refine Expr.settled_iff.mpr ⟨⟨Nat.le_refl _, ?_⟩, ?_⟩
  · simp [Expr.fieldTest, Expr.bool?, Expr.isCombinationOf]
  · simp [operand, Expr.any, Expr.children, Expr.settled_fieldTest]

theorem settled_operands (is : List Nat) : ∀ e ∈ is.map groups.operand, e.Settled := by
  intro e he
  obtain ⟨i, -, rfl⟩ := List.mem_map.mp he
  exact settled_operand i

theorem lower_test (op : Comparison) (member : Member) :
    (groups.test op member).lower groups.subject = .ok (.fieldTest op member.name) := by
  simp only [test, Symbolic.lower, if_true]
  rfl

theorem lower_disjunction (i : Nat) :
    ∃ raw, (groups.disjunction i).lower groups.subject = .ok raw ∧ raw.pass = .ok (groups.operand i) := by
  refine ⟨.any [.fieldTest .gt (groups.first i).name, .not (.fieldTest .le (groups.second i).name)], ?_, ?_⟩
  · simp only [disjunction, Symbolic.lower, lower_test]
    rfl
  · have hgt : Comparison.gt ≠ .ne := by decide
    have hle : Comparison.le ≠ .ne := by decide
    simp only [Expr.any, Expr.pass, Expr.passAll, Expr.pass_fieldTest hgt, Expr.pass_fieldTest hle]
    rfl

/-- One pass flattens the conjunction from any group on. -/
theorem lower_conjunction (rest i : Nat) :
    ∃ raw, (groups.conjunction (rest + 1) i).lower groups.subject = .ok raw ∧
      raw.pass = .ok (Expr.canonicalCombine .and ((List.range' i (rest + 1)).map groups.operand)) := by
  -- The last group stands alone in the innermost conjunction; each group before it splices its tail in.
  induction rest generalizing i with
  | zero =>
      obtain ⟨raw, hlower, hpass⟩ := groups.lower_disjunction i
      refine ⟨raw, hlower, ?_⟩
      rw [hpass]
      exact congrArg _ (Expr.canonicalCombine_singleton (settled_operand i)).symm
  | succ rest ih =>
      obtain ⟨front, hfront, hfrontPass⟩ := groups.lower_disjunction i
      obtain ⟨tail, htail, htailPass⟩ := ih (i + 1)
      refine ⟨.combine .and [front, tail], ?_, ?_⟩
      · rw [conjunction, Symbolic.lower, hfront, ok_bind, htail]
        rfl
      · simp only [Expr.pass, Expr.passAll, hfrontPass, htailPass, ok_bind]
        exact congrArg _ (Expr.canonicalCombine_nest (settled_operands _))

/-! ## The whole chain -/

theorem canonical_expression (hcount : 2 ≤ groups.count) : groups.expression.Canonical := by
  refine ⟨by simpa using hcount, fun e he => ?_⟩
  obtain ⟨i, -, rfl⟩ := List.mem_map.mp he
  exact ⟨rfl, rfl⟩

theorem nodeCountOf_operands (is : List Nat) : Expr.nodeCountOf (is.map groups.operand) = 7 * is.length := by
  induction is with
  | nil => rfl
  | cons i is ih =>
      have hoperand : (groups.operand i).nodeCount = 7 := rfl
      rw [List.map_cons, Expr.nodeCountOf, ih, hoperand, List.length_cons]
      omega

theorem nodeCount_expression : groups.expression.nodeCount = 7 * groups.count + 1 := by
  rw [expression, Expr.all, Expr.nodeCount, nodeCountOf_operands, List.length_range, Nat.add_comm]

theorem exists_lower (hcount : 2 ≤ groups.count) :
    ∃ raw, (groups.conjunction groups.count 0).lower groups.subject = .ok raw ∧
      raw.pass = .ok groups.expression := by
  obtain ⟨raw, hlower, hpass⟩ := groups.lower_conjunction (groups.count - 1) 0
  rw [Nat.sub_add_cancel (by omega)] at hlower hpass
  refine ⟨raw, hlower, ?_⟩
  rw [hpass, ← List.range_eq_range', Expr.canonicalCombine_eq_self_iff.mpr (canonical_expression hcount)]
  rfl

/-- A chain of at least two groups comes back as the conjunction of its disjunctions, in order, whatever the limit on
passes. Each group has seven nodes, and the conjunction is one more. -/
theorem recovers_expression (groups : OrGroups) (hcount : 2 ≤ groups.count) (registry : Registry)
    {captures : Captures} {frame : Frame} (hframe : Frame.initial groups.subject captures = .ok frame) :
    ∃ stream value raw, Stream.ofList groups.code = .ok stream ∧ stream.reconstruct registry frame = .ok value ∧
      value.lower groups.subject = .ok raw ∧ (∀ limit, raw.canonicalize limit = .ok groups.expression) ∧
      groups.expression.nodeCount = 7 * groups.count + 1 := by
  obtain ⟨stream, hstream, hvalue⟩ := groups.exists_reconstruct registry hframe
  obtain ⟨raw, hlower, hpass⟩ := exists_lower hcount
  have hsettled : groups.expression.Settled :=
    Expr.settled_iff.mpr ⟨canonical_expression hcount, settled_operands _⟩
  refine ⟨stream, _, raw, hstream, hvalue, hlower, fun limit => ?_, nodeCount_expression⟩
  rw [Expr.canonicalize_eq, hpass, ok_bind]
  exact Expr.passes_of_pass_eq_self (Expr.pass_eq_self_iff_canonical.mpr hsettled) _

/-- Two groups that share a field. -/
def inStock : OrGroups :=
  .dense 2 (by decide) 0 (fun _ => ⟨"a/Item", "listed", "I"⟩)
    fun i => ⟨"a/Item", if i = 0 then "graded" else "sealed", "I"⟩

theorem recovers_expression_inStock :
    2 ≤ inStock.count ∧ Frame.initial inStock.subject ⟨[]⟩ = .ok ⟨[], ⟨[(0, .var 0)]⟩⟩ ∧
    ∃ stream value raw, Stream.ofList inStock.code = .ok stream ∧
      stream.reconstruct .builtin ⟨[], ⟨[(0, .var 0)]⟩⟩ = .ok value ∧ value.lower 0 = .ok raw ∧
      raw.canonicalize Expr.defaultPassLimit = .ok (.all [
        .any [.fieldTest .gt "listed", .fieldTest .gt "graded"],
        .any [.fieldTest .gt "listed", .fieldTest .gt "sealed"]]) ∧
      inStock.expression.nodeCount = 15 := by
  have hcount : 2 ≤ inStock.count := by decide
  have hframe : Frame.initial inStock.subject ⟨[]⟩ = .ok ⟨[], ⟨[(0, .var 0)]⟩⟩ := rfl
  obtain ⟨stream, value, raw, hstream, hvalue, hlower, hcanonical, hnodes⟩ :=
    recovers_expression inStock hcount .builtin hframe
  exact ⟨hcount, hframe, stream, value, raw, hstream, hvalue, hlower, hcanonical _, hnodes⟩

end OrGroups

end PredicateLift
