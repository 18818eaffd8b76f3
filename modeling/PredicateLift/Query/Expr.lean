import PredicateLift.Code.Member
import PredicateLift.Query.Path
import PredicateLift.Value.Literal
import PredicateLift.Value.Operator

/-!
# Query expressions

The form in which an analysed predicate is handed to a query translator. Operands stand in the order in which they
are evaluated.
-/

namespace PredicateLift

/-- An expression over the subject of a predicate. -/
inductive Expr where
  | literal (value : Literal)
  | path (path : Path)
  | compare (op : Comparison) (left right : Expr)
  | combine (op : Connective) (operands : List Expr)
  | not (operand : Expr)
  | arith (op : Operator) (kind : NumericKind) (operands : List Expr)
  | call (target : Expr) (method : Member) (args : List Expr)
  | staticCall (method : Member) (args : List Expr)
  | conditional (test thenBranch elseBranch : Expr)

namespace Expr

/-- A boolean literal. -/
def bool (value : Bool) : Expr :=
  .literal (.bool value)

/-- A conjunction. -/
def all (operands : List Expr) : Expr :=
  .combine .and operands

/-- A disjunction. -/
def any (operands : List Expr) : Expr :=
  .combine .or operands

/-! ## Equality -/

mutual

/-- Structural equality. -/
def same : Expr → Expr → Bool
  | literal a, literal b => a == b
  | path a, path b => a == b
  | compare p a b, compare q c d => p == q && same a c && same b d
  | combine p as, combine q bs => p == q && sameAll as bs
  | not a, not b => same a b
  | arith p j as, arith q k bs => p == q && j == k && sameAll as bs
  | call a m as, call b n bs => same a b && m == n && sameAll as bs
  | staticCall m as, staticCall n bs => m == n && sameAll as bs
  | conditional a b c, conditional d e f => same a d && same b e && same c f
  | _, _ => false

/-- Structural equality of lists of expressions. -/
def sameAll : List Expr → List Expr → Bool
  | [], [] => true
  | a :: as, b :: bs => same a b && sameAll as bs
  | _, _ => false

end

mutual

theorem same_refl : (a : Expr) → same a a = true
  | literal _ => by simp [same]
  | path _ => by simp [same]
  | compare _ a b => by simp [same, same_refl a, same_refl b]
  | combine _ as => by simp [same, sameAll_refl as]
  | not a => by simp [same, same_refl a]
  | arith _ _ as => by simp [same, sameAll_refl as]
  | call a _ as => by simp [same, same_refl a, sameAll_refl as]
  | staticCall _ as => by simp [same, sameAll_refl as]
  | conditional a b c => by simp [same, same_refl a, same_refl b, same_refl c]

theorem sameAll_refl : (as : List Expr) → sameAll as as = true
  | [] => rfl
  | a :: as => by simp [sameAll, same_refl a, sameAll_refl as]

end

mutual

theorem eq_of_same : {a b : Expr} → same a b = true → a = b
  | literal _, b, h => by cases b <;> simp_all [same]
  | path _, b, h => by cases b <;> simp_all [same]
  | compare _ _ _, b, h => by
      cases b <;> simp only [same, Bool.false_eq_true, Bool.and_eq_true, beq_iff_eq] at h
      rw [h.1.1, eq_of_same h.1.2, eq_of_same h.2]
  | combine _ _, b, h => by
      cases b <;> simp only [same, Bool.false_eq_true, Bool.and_eq_true, beq_iff_eq] at h
      rw [h.1, eq_of_sameAll h.2]
  | not _, b, h => by
      cases b <;> simp only [same, Bool.false_eq_true] at h
      rw [eq_of_same h]
  | arith _ _ _, b, h => by
      cases b <;> simp only [same, Bool.false_eq_true, Bool.and_eq_true, beq_iff_eq] at h
      rw [h.1.1, h.1.2, eq_of_sameAll h.2]
  | call _ _ _, b, h => by
      cases b <;> simp only [same, Bool.false_eq_true, Bool.and_eq_true, beq_iff_eq] at h
      rw [eq_of_same h.1.1, h.1.2, eq_of_sameAll h.2]
  | staticCall _ _, b, h => by
      cases b <;> simp only [same, Bool.false_eq_true, Bool.and_eq_true, beq_iff_eq] at h
      rw [h.1, eq_of_sameAll h.2]
  | conditional _ _ _, b, h => by
      cases b <;> simp only [same, Bool.false_eq_true, Bool.and_eq_true] at h
      rw [eq_of_same h.1.1, eq_of_same h.1.2, eq_of_same h.2]

theorem eq_of_sameAll : {as bs : List Expr} → sameAll as bs = true → as = bs
  | [], [], _ => rfl
  | _ :: _, _ :: _, h => by
      simp only [sameAll, Bool.and_eq_true] at h
      rw [eq_of_same h.1, eq_of_sameAll h.2]

end

instance : DecidableEq Expr := fun a b =>
  decidable_of_iff (same a b = true) ⟨eq_of_same, fun h => h ▸ same_refl a⟩

/-! ## Reading an expression -/

/-- The value of a literal. -/
def literal? : Expr → Option Literal
  | literal value => some value
  | _ => none

/-- The truth value of a boolean literal. -/
def bool? : Expr → Option Bool
  | literal (.bool value) => some value
  | _ => none

theorem eq_of_bool? {e : Expr} {b : Bool} (h : e.bool? = some b) : e = .literal (.bool b) := by
  unfold bool? at h
  split at h
  · cases h
    rfl
  · cases h

/-- The direct parts, in the order of evaluation. -/
def children : Expr → List Expr
  | literal _ => []
  | path _ => []
  | compare _ left right => [left, right]
  | combine _ operands => operands
  | not operand => [operand]
  | arith _ _ operands => operands
  | call target _ args => target :: args
  | staticCall _ args => args
  | conditional test thenBranch elseBranch => [test, thenBranch, elseBranch]

mutual

/-- The expression and all its parts, each before its own parts. -/
def nodes : Expr → List Expr
  | e@(literal _) => [e]
  | e@(path _) => [e]
  | e@(compare _ left right) => e :: (nodes left ++ nodes right)
  | e@(combine _ operands) => e :: nodesOf operands
  | e@(not operand) => e :: nodes operand
  | e@(arith _ _ operands) => e :: nodesOf operands
  | e@(call target _ args) => e :: (nodes target ++ nodesOf args)
  | e@(staticCall _ args) => e :: nodesOf args
  | e@(conditional test thenBranch elseBranch) => e :: (nodes test ++ (nodes thenBranch ++ nodes elseBranch))

/-- The parts of a list of expressions. -/
def nodesOf : List Expr → List Expr
  | [] => []
  | e :: es => nodes e ++ nodesOf es

end

mutual

/-- The number of nodes. -/
def nodeCount : Expr → Nat
  | literal _ => 1
  | path _ => 1
  | compare _ left right => 1 + left.nodeCount + right.nodeCount
  | combine _ operands => 1 + nodeCountOf operands
  | not operand => 1 + operand.nodeCount
  | arith _ _ operands => 1 + nodeCountOf operands
  | call target _ args => 1 + target.nodeCount + nodeCountOf args
  | staticCall _ args => 1 + nodeCountOf args
  | conditional test thenBranch elseBranch =>
    1 + test.nodeCount + thenBranch.nodeCount + elseBranch.nodeCount

/-- The number of nodes of a list of expressions. -/
def nodeCountOf : List Expr → Nat
  | [] => 0
  | e :: es => e.nodeCount + nodeCountOf es

end

/-- The paths that an expression reads, in the order of its nodes. -/
def paths (e : Expr) : List Path :=
  e.nodes.filterMap fun
    | path p => some p
    | _ => none

/-! ## Text -/

mutual

/-- How an expression is written. -/
def text : Expr → String
  | literal value => value.text
  | path p => p.text
  | compare op left right => "(" ++ left.text ++ " " ++ op.symbol ++ " " ++ right.text ++ ")"
  | combine op operands => "(" ++ (" " ++ op.symbol ++ " ").intercalate (texts operands) ++ ")"
  | not operand => "!" ++ operand.text
  | arith .neg _ operands => "-" ++ ", ".intercalate (texts operands)
  | arith (.binary op) _ operands => "(" ++ (" " ++ op.symbol ++ " ").intercalate (texts operands) ++ ")"
  | call target method args => target.text ++ "." ++ method.name ++ "(" ++ ", ".intercalate (texts args) ++ ")"
  | staticCall method args =>
    simpleName method.owner ++ "." ++ method.name ++ "(" ++ ", ".intercalate (texts args) ++ ")"
  | conditional test thenBranch elseBranch =>
    "(" ++ test.text ++ " ? " ++ thenBranch.text ++ " : " ++ elseBranch.text ++ ")"

/-- How the members of a list are written. -/
def texts : List Expr → List String
  | [] => []
  | e :: es => e.text :: texts es

end

end Expr

end PredicateLift
