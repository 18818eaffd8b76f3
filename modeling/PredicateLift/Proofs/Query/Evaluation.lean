import PredicateLift.Proofs.Value.Integers
import PredicateLift.Query.Expr
import Mathlib.Data.List.Forall2

/-!
# Evaluation of query expressions

An interpretation gives values to paths and calls, and an order to all values. Expressions are evaluated from left to
right; a combination stops at the first operand that decides it. Evaluation is stuck where an operand has not the sort
that is asked for, and where a divisor is zero.
-/

namespace PredicateLift

/-! ## Results that may be missing -/

/-- Where the first result is there, the second is the same. -/
def Refines {α : Type} (x y : Option α) : Prop :=
  ∀ a, x = some a → y = some a

namespace Refines

variable {α β : Type}

theorem refl (x : Option α) : Refines x x :=
  fun _ h => h

theorem of_eq {x y : Option α} (h : x = y) : Refines x y :=
  h ▸ .refl x

theorem trans {x y z : Option α} (hxy : Refines x y) (hyz : Refines y z) : Refines x z :=
  fun a h => hyz a (hxy a h)

theorem bind {x y : Option α} {f g : α → Option β} (hxy : Refines x y) (hfg : ∀ a, Refines (f a) (g a)) :
    Refines (x >>= f) (y >>= g) := by
  intro b hb
  obtain ⟨a, ha, hb⟩ := Option.bind_eq_some_iff.mp hb
  exact Option.bind_eq_some_iff.mpr ⟨a, hxy a ha, hfg a b hb⟩

theorem map {x y : Option α} (hxy : Refines x y) (f : α → β) : Refines (x.map f) (y.map f) := by
  intro b hb
  obtain ⟨a, ha, rfl⟩ := Option.map_eq_some_iff.mp hb
  exact Option.map_eq_some_iff.mpr ⟨a, hxy a ha, rfl⟩

theorem mapM {xs ys : List (Option α)} (h : List.Forall₂ Refines xs ys) : Refines (xs.mapM id) (ys.mapM id) := by
  induction h with
  | nil => exact .refl _
  | cons hxy _ ih =>
      simp only [List.mapM_cons]
      exact hxy.bind fun _ => ih.bind fun _ => .refl _

end Refines

/-- The outcome of a combination from those of its operands, of which no more than needed are looked at. -/
def Connective.connect (op : Connective) : List (Option Bool) → Option Bool
  | [] => some op.identity
  | x :: xs => do if (← x) = op.identity then op.connect xs else return !op.identity

/-- The outcome of a choice: that of the branch which the test selects. -/
def choose {α : Type} (test : Option Bool) (thenBranch elseBranch : Option α) : Option α := do
  if ← test then thenBranch else elseBranch

theorem Refines.connect {op : Connective} {xs ys : List (Option Bool)} (h : List.Forall₂ Refines xs ys) :
    Refines (op.connect xs) (op.connect ys) := by
  induction h with
  | nil => exact .refl _
  | cons hxy _ ih =>
      refine hxy.bind fun b => ?_
      split
      · exact ih
      · exact .refl _

theorem Refines.choose {α : Type} {t t' : Option Bool} {a a' b b' : Option α} (ht : Refines t t') (ha : Refines a a')
    (hb : Refines b b') : Refines (PredicateLift.choose t a b) (PredicateLift.choose t' a' b') := by
  refine ht.bind fun test => ?_
  cases test with
  | true => exact ha
  | false => exact hb

/-! ## Interpretations -/

/-- What an expression evaluates to: a literal, or a reference to something that no literal denotes. -/
inductive Answer (R : Type) where
  | literal (value : Literal)
  | reference (target : R)

namespace Answer

variable {R : Type}

def bool (b : Bool) : Answer R := .literal (.bool b)

def bool? : Answer R → Option Bool
  | literal (.bool b) => some b
  | _ => none

@[simp] theorem bind_bool?_map_bool (x : Option Bool) : (x.map (bool (R := R))).bind bool? = x := by
  cases x with
  | none => rfl
  | some b => rfl

end Answer

/-- Meanings for the paths, the calls and the comparisons of expressions. Paths and methods are declared as booleans
or not, and what is declared as a boolean gives no other value. -/
structure Interpretation (R : Type) where
  booleanPath : Path → Bool
  booleanMethod : Member → Bool
  path : Path → Option (Answer R)
  call : Member → Answer R → List (Answer R) → Option (Answer R)
  staticCall : Member → List (Answer R) → Option (Answer R)
  compare : Answer R → Answer R → Ordering
  path_boolean : ∀ {p d}, booleanPath p = true → path p = some d → ∃ b, d = .bool b
  call_boolean : ∀ {m target args d}, booleanMethod m = true → call m target args = some d → ∃ b, d = .bool b
  staticCall_boolean : ∀ {m args d}, booleanMethod m = true → staticCall m args = some d → ∃ b, d = .bool b
  compare_swap : ∀ a b, compare b a = (compare a b).swap
  compare_literals : ∀ {op a b outcome}, a.isDecimal = false → b.isDecimal = false →
    Literal.compare? op a b = some outcome → op.holds (compare (.literal a) (.literal b)) = outcome

namespace Interpretation

variable {R : Type}

/-- The result of an arithmetic operation; only numbers have one. -/
def operate : Operator → List (Answer R) → Option (Answer R)
  | .neg, [.literal v] => match v.negate with
    | .ok w => some (.literal w)
    | .error _ => none
  | .binary op, [.literal a, .literal b] => match Literal.arith? op a b with
    | .ok (some v) => some (.literal v)
    | _ => none
  | _, _ => none

variable (I : Interpretation R)

mutual

/-- The value of an expression, unless its evaluation is stuck. -/
@[simp] def eval : Expr → Option (Answer R)
  | .literal v => some (.literal v)
  | .path p => I.path p
  | .compare op left right => do
    let a ← eval left
    let b ← eval right
    return .bool (op.holds (I.compare a b))
  | .combine op operands => (op.connect ((evals operands).map (·.bind Answer.bool?))).map .bool
  | .not operand => (((eval operand).bind Answer.bool?).map (!·)).map .bool
  | .arith op _ operands => do operate op (← (evals operands).mapM id)
  | .call target method args => do
    let target ← eval target
    I.call method target (← (evals args).mapM id)
  | .staticCall method args => do I.staticCall method (← (evals args).mapM id)
  | .conditional test thenBranch elseBranch =>
    choose ((eval test).bind Answer.bool?) (eval thenBranch) (eval elseBranch)

@[simp] def evals : List Expr → List (Option (Answer R))
  | [] => []
  | e :: es => eval e :: evals es

end

theorem evals_eq_map (es : List Expr) : I.evals es = es.map I.eval := by
  induction es with
  | nil => rfl
  | cons e es ih => simp [evals, ih]

/-! ## Truth values -/

/-- The truth value of an expression, if it evaluates to one. -/
def truth (e : Expr) : Option Bool :=
  (I.eval e).bind Answer.bool?

@[simp] theorem truth_bool (b : Bool) : I.truth (.literal (.bool b)) = some b := by
  rw [truth, eval]
  rfl

@[simp] theorem truth_not (e : Expr) : I.truth (.not e) = (I.truth e).map (!·) := by
  rw [truth, eval, Answer.bind_bool?_map_bool, truth]

@[simp] theorem truth_combine (op : Connective) (es : List Expr) :
    I.truth (.combine op es) = op.connect (es.map I.truth) := by
  rw [truth, eval, Answer.bind_bool?_map_bool, evals_eq_map, List.map_map]
  rfl

@[simp] theorem truth_compare (op : Comparison) (left right : Expr) :
    I.truth (.compare op left right) = (do return op.holds (I.compare (← I.eval left) (← I.eval right))) := by
  rw [truth, eval]
  cases I.eval left with
  | none => rfl
  | some a =>
      cases I.eval right with
      | none => rfl
      | some b => rfl

@[simp] theorem truth_conditional (test thenBranch elseBranch : Expr) :
    I.truth (.conditional test thenBranch elseBranch) =
      choose (I.truth test) (I.truth thenBranch) (I.truth elseBranch) := by
  rw [truth, eval, ← truth]
  cases I.truth test with
  | none => rfl
  | some b => cases b <;> rfl

/-! ## Sorts -/

/-- Whether an expression is a boolean by its form and the declarations of paths and methods. -/
def isBoolean : Expr → Bool
  | .literal v => v.bool?.isSome
  | .path p => I.booleanPath p
  | .compare _ _ _ => true
  | .combine _ _ => true
  | .not _ => true
  | .arith _ _ _ => false
  | .call _ method _ => I.booleanMethod method
  | .staticCall method _ => I.booleanMethod method
  | .conditional _ thenBranch _ => isBoolean thenBranch

/-- The expression has no floating-point literal, operands of negations and combinations and tests of conditionals are
booleans, and the branches of a conditional are both booleans or both not. -/
inductive WellSorted : Expr → Prop where
  | literal {v} : v.isDecimal = false → WellSorted (.literal v)
  | path {p} : WellSorted (.path p)
  | compare {op left right} : WellSorted left → WellSorted right → WellSorted (.compare op left right)
  | combine {op operands} : (∀ e ∈ operands, WellSorted e) → (∀ e ∈ operands, I.isBoolean e = true) →
      WellSorted (.combine op operands)
  | not {operand} : WellSorted operand → I.isBoolean operand = true → WellSorted (.not operand)
  | arith {op kind operands} : (∀ e ∈ operands, WellSorted e) → WellSorted (.arith op kind operands)
  | call {target method args} : WellSorted target → (∀ e ∈ args, WellSorted e) →
      WellSorted (.call target method args)
  | staticCall {method args} : (∀ e ∈ args, WellSorted e) → WellSorted (.staticCall method args)
  | conditional {test thenBranch elseBranch} : WellSorted test → WellSorted thenBranch → WellSorted elseBranch →
      I.isBoolean test = true → I.isBoolean thenBranch = I.isBoolean elseBranch →
      WellSorted (.conditional test thenBranch elseBranch)

variable {I}

theorem WellSorted.of_not {operand : Expr} (h : I.WellSorted (.not operand)) :
    I.WellSorted operand ∧ I.isBoolean operand = true := by
  cases h with
  | not ho hb => exact ⟨ho, hb⟩

theorem WellSorted.of_combine {op : Connective} {operands : List Expr} (h : I.WellSorted (.combine op operands)) :
    ∀ e ∈ operands, I.WellSorted e ∧ I.isBoolean e = true := by
  cases h with
  | combine hs hb => exact fun e he => ⟨hs e he, hb e he⟩

theorem WellSorted.of_conditional {test thenBranch elseBranch : Expr}
    (h : I.WellSorted (.conditional test thenBranch elseBranch)) :
    (I.WellSorted test ∧ I.isBoolean test = true) ∧ I.WellSorted thenBranch ∧ I.WellSorted elseBranch ∧
      I.isBoolean thenBranch = I.isBoolean elseBranch := by
  cases h with
  | conditional ht ha hb htest hsame => exact ⟨⟨ht, htest⟩, ha, hb, hsame⟩

theorem WellSorted.children {e : Expr} (h : I.WellSorted e) : ∀ c ∈ e.children, I.WellSorted c := by
  cases h with
  | literal _ | path => exact List.forall_mem_nil _
  | compare hl hr => simp [Expr.children, hl, hr]
  | not ho _ => simp [Expr.children, ho]
  | combine hs _ | arith hs | staticCall hs => exact hs
  | call ht hs => exact List.forall_mem_cons.mpr ⟨ht, hs⟩
  | conditional ht ha hb _ _ => simp [Expr.children, ht, ha, hb]

/-- A boolean evaluates to truth values only. -/
theorem WellSorted.boolean {e : Expr} (h : I.WellSorted e) (hb : I.isBoolean e = true) {d : Answer R}
    (hd : I.eval e = some d) : ∃ b, d = .bool b := by
  induction h with
  | @literal v _ =>
      cases v with
      | bool b =>
          cases hd
          exact ⟨b, rfl⟩
      | _ => cases hb
  | path => exact I.path_boolean hb hd
  | compare =>
      rw [eval] at hd
      obtain ⟨_, _, hd⟩ := Option.bind_eq_some_iff.mp hd
      obtain ⟨_, _, hd⟩ := Option.bind_eq_some_iff.mp hd
      cases hd
      exact ⟨_, rfl⟩
  | combine | not =>
      rw [eval] at hd
      obtain ⟨b, _, rfl⟩ := Option.map_eq_some_iff.mp hd
      exact ⟨b, rfl⟩
  | arith => cases hb
  | call =>
      rw [eval] at hd
      obtain ⟨_, _, hd⟩ := Option.bind_eq_some_iff.mp hd
      obtain ⟨_, _, hd⟩ := Option.bind_eq_some_iff.mp hd
      exact I.call_boolean hb hd
  | staticCall =>
      rw [eval] at hd
      obtain ⟨_, _, hd⟩ := Option.bind_eq_some_iff.mp hd
      exact I.staticCall_boolean hb hd
  | conditional _ _ _ _ hsame _ iha ihb =>
      rw [eval] at hd
      obtain ⟨test, _, hd⟩ := Option.bind_eq_some_iff.mp hd
      cases test with
      | true => exact iha hb hd
      | false => exact ihb (hsame ▸ hb) hd

theorem WellSorted.eval_eq {e : Expr} (h : I.WellSorted e) (hb : I.isBoolean e = true) :
    I.eval e = (I.truth e).map .bool := by
  rw [truth]
  cases hd : I.eval e with
  | none => rfl
  | some d =>
      obtain ⟨b, rfl⟩ := h.boolean hb hd
      rfl

end Interpretation

end PredicateLift
