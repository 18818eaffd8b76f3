import PredicateLift.Proofs.Symbolic.QueryForms
import PredicateLift.Symbolic.Step
import PredicateLift.Value.Folding
import Mathlib.Control.Basic

/-!
# Values of query forms

Symbolic values and query expressions are evaluated side by side, in a monad, so that reading a field or calling a method
may fail or have an effect. A path applies its steps in order to the subject. The main statement is that a value and its
query form are the same computation: they give the same result, with the same effects in the same order.
-/

namespace PredicateLift

/-- Meanings for what symbolic values and query expressions are built from. A field is known by its name alone, and so
is a call without arguments where it is a step of a path. -/
structure Semantics (M : Type → Type) [Monad M] (V : Type) where
  literal : Literal → V
  var : Slot → V
  field : String → V → M V
  accessor : String → V → M V
  call : Member → V → List V → M V
  staticCall : Member → List V → M V
  /-- The element of an array at a position. -/
  nth : Int → V → M V
  length : V → M V
  arith : Operator → NumericKind → List V → M V
  compare : Comparison → V → V → M Bool
  threeWay : Bias → V → V → M V
  /-- The truth value that a test has. -/
  truth : V → M Bool
  /-- The position that an index stands for. -/
  position : V → M Int
  position_int : ∀ i, position (literal (.int i)) = pure i.toInt

/-- The outcome of a combination. Operands are evaluated up to the first that decides it. -/
def Connective.decide {M : Type → Type} [Monad M] (op : Connective) : List (M Bool) → M Bool
  | [] => return op.identity
  | x :: xs => do if (← x) = op.identity then op.decide xs else return !op.identity

namespace Semantics

variable {M : Type → Type} [Monad M] {V : Type} (ρ : Semantics M V)

def bool (b : Bool) : V := ρ.literal (.bool b)

mutual

/-- The value of a symbolic value, from left to right. -/
def value : Symbolic → M V
  | .literal v => return ρ.literal v
  | .var slot => return ρ.var slot
  | .field receiver member => do ρ.field member.name (← value receiver)
  | .call receiver method args _ => do
    let target ← value receiver
    ρ.call method target (← (values args).mapM id)
  | .staticCall method args _ => do ρ.staticCall method (← (values args).mapM id)
  | .negative operand kind => do ρ.arith .neg kind [← value operand]
  | .arith op kind left right => do
    let a ← value left
    let b ← value right
    ρ.arith op kind [a, b]
  | .compare op left right => do
    let a ← value left
    let b ← value right
    return ρ.bool (← ρ.compare op a b)
  | .not operand => do return ρ.bool (!(← ρ.truth (← value operand)))
  | .logical op left right => do
    let b ← ρ.truth (← value left)
    if b = op.identity then return ρ.bool (← ρ.truth (← value right)) else return ρ.bool b
  | .unboxed v _ => value v
  | .threeWay left right bias => do
    let a ← value left
    let b ← value right
    ρ.threeWay bias a b
  | .conditional test thenValue elseValue => do
    if ← ρ.truth (← value test) then value thenValue else value elseValue
  | .element array index _ => do
    let a ← value array
    ρ.nth (← ρ.position (← value index)) a
  | .length array => do ρ.length (← value array)

def values : List Symbolic → List (M V)
  | [] => []
  | s :: rest => value s :: values rest

end

/-- What a step of a path reads. -/
def read (v : V) : Segment → M V
  | .field name => ρ.field name v
  | .method name => ρ.accessor name v
  | .index position => ρ.nth position.toNat v
  | .length => ρ.length v

/-- The value at the end of a path. -/
def follow (subject : V) (p : Path) : M V :=
  p.segments.foldlM ρ.read subject

mutual

/-- The value of a query expression about a subject, from left to right. -/
def eval (subject : V) : Expr → M V
  | .literal v => return ρ.literal v
  | .path p => ρ.follow subject p
  | .compare op left right => do
    let a ← eval subject left
    let b ← eval subject right
    return ρ.bool (← ρ.compare op a b)
  | .combine op operands => do return ρ.bool (← op.decide ((evals subject operands).map (· >>= ρ.truth)))
  | .not operand => do return ρ.bool (!(← ρ.truth (← eval subject operand)))
  | .arith op kind operands => do ρ.arith op kind (← (evals subject operands).mapM id)
  | .call target method args => do
    let target ← eval subject target
    ρ.call method target (← (evals subject args).mapM id)
  | .staticCall method args => do ρ.staticCall method (← (evals subject args).mapM id)
  | .conditional test thenBranch elseBranch => do
    if ← ρ.truth (← eval subject test) then eval subject thenBranch else eval subject elseBranch

def evals (subject : V) : List Expr → List (M V)
  | [] => []
  | e :: es => eval subject e :: evals subject es

end

/-- A call without arguments on what a path leads to is known by the name of the method. -/
def NamesAccessors (subject : V) : Prop :=
  ∀ p method, (do ρ.call method (← ρ.follow subject p) []) = (do ρ.accessor method.name (← ρ.follow subject p))

variable {subject : Slot}

theorem evals_lowerAll {args : List Symbolic} {es : List Expr}
    (hargs : ∀ s ∈ args, ∀ e, s.lower subject = .ok e → ρ.eval (ρ.var subject) e = ρ.value s)
    (h : Symbolic.lowerAll subject args = .ok es) : ρ.evals (ρ.var subject) es = ρ.values args := by
  induction args generalizing es with
  | nil =>
      cases h
      rw [evals, values]
  | cons s rest ih =>
      obtain ⟨hs, hrest⟩ := List.forall_mem_cons.mp hargs
      simp only [Symbolic.lowerAll, bind_eq_ok_iff, pure_eq_ok_iff] at h
      obtain ⟨e, he, es, hes, rfl⟩ := h
      rw [evals, values, hs e he, ih hrest hes]

variable [LawfulMonad M]

theorem follow_child (subject : V) (p : Path) (segment : Segment) :
    ρ.follow subject (p.child segment) = (do ρ.read (← ρ.follow subject p) segment) := by
  simp [follow, Path.child]

/-- A step is taken from the value that the path before it leads to. -/
theorem eval_child {subject : V} {p : Path} {s : Symbolic} (h : ρ.eval subject (.path p) = ρ.value s)
    (segment : Segment) : ρ.eval subject (.path (p.child segment)) = (do ρ.read (← ρ.value s) segment) := by
  rw [← h, eval, eval, follow_child]

/-- An index that is not negative, as the position in a path. -/
theorem toInt_toUInt32 {i : Int32} (h : 0 ≤ i) : (i.toUInt32.toNat : Int) = i.toInt := by
  have hpos : (0 : Int) ≤ i.toInt := Int32.le_iff_toInt_le.mp h
  have hword : i.toInt = if 2 * i.toUInt32.toNat < 4294967296 then (i.toUInt32.toNat : Int)
      else (i.toUInt32.toNat : Int) - 4294967296 := BitVec.toInt_eq_toNat_cond i.toBitVec
  have hlt := i.toUInt32.toNat_lt
  split at hword <;> omega

theorem decide_pair (op : Connective) (x y : M Bool) :
    op.decide [x, y] = (do let b ← x; if b = op.identity then y else return b) := by
  have hlast (b : Bool) : (if b = op.identity then pure op.identity else pure !op.identity : M Bool) = pure b := by
    cases b <;> cases op <;> rfl
  simp only [Connective.decide, hlast, bind_pure]
  congr
  funext b
  cases b <;> cases op <;> rfl

/-- A value and its query form are the same computation. -/
theorem eval_lower (hρ : ρ.NamesAccessors (ρ.var subject)) {s : Symbolic} {e : Expr} (h : s.lower subject = .ok e) :
    ρ.eval (ρ.var subject) e = ρ.value s := by
  induction s using Symbolic.induction_on_parts generalizing e with
  | h s ih =>
      cases s with
      | literal v =>
          cases h
          rw [eval, value]
      | var slot =>
          obtain ⟨rfl, rfl⟩ := Symbolic.lower_var_eq_ok_iff.mp h
          rw [eval, value]
          rfl
      | field receiver member =>
          obtain ⟨p, hp, rfl⟩ := Symbolic.lower_field_eq_ok_iff.mp h
          rw [ρ.eval_child (ih receiver (by simp [Symbolic.children]) hp), value]
          rfl
      | length array =>
          obtain ⟨p, hp, rfl⟩ := Symbolic.lower_length_eq_ok_iff.mp h
          rw [ρ.eval_child (ih array (by simp [Symbolic.children]) hp), value]
          rfl
      | element array index kind =>
          obtain ⟨p, hp, i, rfl, hi, rfl⟩ := Symbolic.lower_element_eq_ok_iff.mp h
          rw [ρ.eval_child (ih array (by simp [Symbolic.children]) hp), value, value]
          simp only [pure_bind, ρ.position_int, read, toInt_toUInt32 hi]
      | call receiver method args kind =>
          obtain ⟨target, htarget, es, hes, rfl⟩ := Symbolic.lower_call_eq_ok_iff.mp h
          obtain ⟨hreceiver, hargs⟩ := List.forall_mem_cons.mp ih
          rw [value, ← hreceiver htarget, ← ρ.evals_lowerAll (fun s hs e => hargs s hs) hes]
          rcases Symbolic.lowerCall_cases target method es with ⟨p, rfl, rfl, hcall⟩ | ⟨hcall, -⟩
          · rw [hcall, eval, eval, evals, follow_child]
            simpa [read] using (hρ p method).symm
          · rw [hcall, eval]
      | staticCall method args kind =>
          simp only [Symbolic.lower, bind_eq_ok_iff, pure_eq_ok_iff] at h
          obtain ⟨es, hes, rfl⟩ := h
          have hargs : ρ.evals (ρ.var subject) es = ρ.values args := ρ.evals_lowerAll (fun s hs e => ih s hs) hes
          rw [value, eval, hargs]
      | negative operand kind =>
          simp only [Symbolic.lower, bind_eq_ok_iff, pure_eq_ok_iff] at h
          obtain ⟨x, hx, rfl⟩ := h
          rw [value, ← ih operand (by simp [Symbolic.children]) hx, eval]
          simp [evals]
      | arith op kind left right =>
          simp only [Symbolic.lower, bind_eq_ok_iff, pure_eq_ok_iff] at h
          obtain ⟨x, hx, y, hy, rfl⟩ := h
          rw [value, ← ih left (by simp [Symbolic.children]) hx, ← ih right (by simp [Symbolic.children]) hy, eval]
          simp [evals]
      | compare op left right =>
          simp only [Symbolic.lower, bind_eq_ok_iff, pure_eq_ok_iff] at h
          obtain ⟨x, hx, y, hy, rfl⟩ := h
          rw [value, ← ih left (by simp [Symbolic.children]) hx, ← ih right (by simp [Symbolic.children]) hy, eval]
      | not operand =>
          simp only [Symbolic.lower, bind_eq_ok_iff, pure_eq_ok_iff] at h
          obtain ⟨x, hx, rfl⟩ := h
          rw [value, ← ih operand (by simp [Symbolic.children]) hx, eval]
      | logical op left right =>
          simp only [Symbolic.lower, bind_eq_ok_iff, pure_eq_ok_iff] at h
          obtain ⟨x, hx, y, hy, rfl⟩ := h
          rw [value, ← ih left (by simp [Symbolic.children]) hx, ← ih right (by simp [Symbolic.children]) hy, eval]
          simp only [evals, List.map_cons, List.map_nil, decide_pair, bind_assoc]
          refine bind_congr fun a => bind_congr fun b => ?_
          split <;> simp only [bind_assoc, pure_bind]
      | unboxed v kind =>
          rw [Symbolic.lower] at h
          rw [value, ih v (by simp [Symbolic.children]) h]
      | threeWay left right bias => simp [Symbolic.lower] at h
      | conditional test thenValue elseValue =>
          simp only [Symbolic.lower, bind_eq_ok_iff, pure_eq_ok_iff] at h
          obtain ⟨t, ht, x, hx, y, hy, rfl⟩ := h
          rw [value, ← ih test (by simp [Symbolic.children]) ht, ← ih thenValue (by simp [Symbolic.children]) hx,
            ← ih elseValue (by simp [Symbolic.children]) hy, eval]

/-! ## An instance -/

/-- What is read of a subject that is a literal. Reading is stuck where there is nothing to read, and no methods with
arguments are known. -/
def ofLiteral (subject : Literal) : Semantics Option Literal where
  literal := id
  var _ := subject
  field name
    | .object _ fields => fields.lookup name
    | _ => none
  accessor name v := accessedProperty? (.literal v) ⟨"", name, ""⟩
  call
    | method, v, [] => accessedProperty? (.literal v) method
    | _, _, _ => none
  staticCall _ _ := none
  nth i
    | .array items => if 0 ≤ i then items[i.toNat]? else none
    | _ => none
  length
    | .array items => some (.int (Int32.ofNat items.length))
    | _ => none
  arith
    | .neg, _, [v] => v.negate.toOption
    | .binary op, _, [a, b] => (Literal.arith? op a b).toOption.join
    | _, _, _ => none
  compare := Literal.compare?
  threeWay _ _ _ := none
  truth := Literal.bool?
  position
    | .int i => some i.toInt
    | _ => none
  position_int _ := rfl

/-- An order of two lines. -/
def order : Literal :=
  .object "Order" [("lines", .array [.object "Line" [("price", .int 30)], .object "Line" [("price", .int 120)]])]

/-- `order.getLines()[1].price > 100`, where the price is a wrapped integer. -/
def dear : Symbolic :=
  .compare .gt
    (.unboxed (.field
      (.element (.call (.var 0) ⟨"Order", "getLines", "()[LLine;"⟩ [] (.array (.object "Line"))) (.literal (.int 1))
        (.object "Line"))
      ⟨"Line", "price", "Ljava/lang/Integer;"⟩) .int)
    (.literal (.int 100))

/-- The reads of the value are the steps of one path, and both ways the price of the second line is read. -/
theorem eval_lower_dear :
    (ofLiteral order).NamesAccessors order ∧
    dear.lower 0 = .ok (.compare .gt (.path ⟨[.method "getLines", .index 1, .field "price"]⟩) (.literal (.int 100))) ∧
    (ofLiteral order).value dear = some (.bool true) ∧
    (ofLiteral order).eval order
      (.compare .gt (.path ⟨[.method "getLines", .index 1, .field "price"]⟩) (.literal (.int 100))) =
        some (.bool true) := by
  have hnames : (ofLiteral order).NamesAccessors order := fun p method => rfl
  have hlower : dear.lower 0 =
      .ok (.compare .gt (.path ⟨[.method "getLines", .index 1, .field "price"]⟩) (.literal (.int 100))) := rfl
  have hvalue : (ofLiteral order).value dear = some (.bool true) := by decide +kernel
  exact ⟨hnames, hlower, hvalue, ((ofLiteral order).eval_lower hnames hlower).trans hvalue⟩

end Semantics

end PredicateLift
