import PredicateLift.Query.Expr
import PredicateLift.Value.Folding

/-!
# Canonical expressions

A pass rewrites an expression from its leaves up, with one rule per kind of node, and passes are repeated until one
changes nothing. The rules fold constants, move negations to the leaves, flatten and absorb combinations, put
literals to the right of comparisons, and turn conditionals between predicates into combinations.
-/

namespace PredicateLift

namespace Expr

/-! ## Rules for one node whose parts are already rewritten -/

/-- A comparison: decided between literals, with a literal on the right, and `!=` as a negated `==`. -/
def canonicalCompare (op : Comparison) (left right : Expr) : Expr :=
  let ordered (op : Comparison) (left right : Expr) : Expr :=
    if op = .ne then .not (.compare .eq left right) else .compare op left right
  match left.literal?, right.literal? with
  | some a, some b => match Literal.compare? op a b with
    | some outcome => bool outcome
    | none => ordered op left right
  | some _, none => ordered op.mirror right left
  | none, _ => ordered op left right

/-- A negation, pushed into comparisons other than `==` and, by one level, into combinations. -/
def canonicalNot : Expr → Expr
  | literal (.bool value) => bool !value
  | not operand => operand
  | compare .eq left right => .not (.compare .eq left right)
  | compare op left right => .compare op.negate left right
  | combine op operands => .combine op.flip (operands.map .not)
  | operand => .not operand

/-- The operands of a combination without nested combinations of the same connective and without its identity; none
if an operand decides the combination. -/
def flatten? (op : Connective) : List Expr → Option (List Expr)
  | [] => some []
  | operand :: rest => match operand with
    | literal (.bool value) => if value = op.identity then flatten? op rest else none
    | combine inner operands =>
      if inner = op then (flatten? op rest).map (operands ++ ·) else (flatten? op rest).map (operand :: ·)
    | _ => (flatten? op rest).map (operand :: ·)

/-- A combination with its operands flattened. -/
def canonicalCombine (op : Connective) (operands : List Expr) : Expr :=
  match flatten? op operands with
  | none => bool !op.identity
  | some [] => bool op.identity
  | some [operand] => operand
  | some flat => .combine op flat

/-- An operation, carried out on literals. -/
def canonicalArith (op : Operator) (kind : NumericKind) (operands : List Expr) : Except Fault Expr :=
  match op, operands with
  | .neg, [literal value] => do return .literal (← value.negate)
  | _, [literal left, literal right] => do
    match ← Literal.operate? op left right with
    | some value => return .literal value
    | none => return .arith op kind operands
  | _, _ => .ok (.arith op kind operands)

/-- Whether an expression is a comparison, a combination, a negation or a boolean literal. -/
def isPredicate : Expr → Bool
  | compare _ _ _ => true
  | combine _ _ => true
  | not _ => true
  | e => e.bool?.isSome

/-- Splits a combination that ends in `tail` into its connective and the combination of the operands before. -/
def splitTail? (e tail : Expr) : Option (Connective × Expr) :=
  match e with
  | combine op operands =>
    if 2 ≤ operands.length ∧ operands.getLast? = some tail then some (op, canonicalCombine op operands.dropLast)
    else none
  | _ => none

theorem eq_of_splitTail? {e tail b : Expr} {op : Connective} (h : e.splitTail? tail = some (op, b)) :
    ∃ front, e = .combine op (front ++ [tail]) ∧ b = canonicalCombine op front := by
  unfold splitTail? at h
  split at h
  · split at h
    · rename_i hlast
      cases h
      obtain ⟨front, rfl⟩ := List.getLast?_eq_some_iff.mp hlast.2
      exact ⟨front, rfl, by rw [List.dropLast_concat]⟩
    · cases h
  · cases h

/-- A choice between two predicates, as a combination. When one of them ends in the other, the shared part is kept
once. -/
def select (test thenBranch elseBranch : Expr) : Expr :=
  match splitTail? elseBranch thenBranch with
  | some (.and, b) => all [any [test, b], thenBranch]
  | some (.or, b) => any [all [.not test, b], thenBranch]
  | none => match splitTail? thenBranch elseBranch with
    | some (.and, b) => all [any [.not test, b], elseBranch]
    | some (.or, b) => any [all [test, b], elseBranch]
    | none => any [all [test, thenBranch], all [.not test, elseBranch]]

/-- A conditional: decided by a literal test or equal branches, and a combination if a branch is a boolean literal or
both are predicates. -/
def canonicalConditional (test thenBranch elseBranch : Expr) : Expr :=
  match test.bool? with
  | some true => thenBranch
  | some false => elseBranch
  | none =>
    if thenBranch = elseBranch then thenBranch
    else match thenBranch.bool?, elseBranch.bool? with
      | some true, some false => test
      | some false, some true => .not test
      | some true, _ => any [test, elseBranch]
      | some false, _ => all [.not test, elseBranch]
      | none, some true => any [.not test, thenBranch]
      | none, some false => all [test, thenBranch]
      | none, none =>
        if thenBranch.isPredicate && elseBranch.isPredicate then select test thenBranch elseBranch
        else .conditional test thenBranch elseBranch

/-! ## Passes -/

mutual

/-- One pass, from the leaves up. -/
def pass : Expr → Except Fault Expr
  | literal value => .ok (.literal value)
  | path p => .ok (.path p)
  | compare op left right => do
    let left ← pass left
    let right ← pass right
    return canonicalCompare op left right
  | combine op operands => do return canonicalCombine op (← passAll operands)
  | not operand => do return canonicalNot (← pass operand)
  | arith op kind operands => do canonicalArith op kind (← passAll operands)
  | call target method args => do
    let target ← pass target
    let args ← passAll args
    return .call target method args
  | staticCall method args => do return .staticCall method (← passAll args)
  | conditional test thenBranch elseBranch => do
    let test ← pass test
    let thenBranch ← pass thenBranch
    let elseBranch ← pass elseBranch
    return canonicalConditional test thenBranch elseBranch

/-- One pass over each of several expressions, in order. -/
def passAll : List Expr → Except Fault (List Expr)
  | [] => .ok []
  | e :: es => do
    let e ← pass e
    let es ← passAll es
    return e :: es

end

/-- Passes until one changes nothing, and at most the given number of them. -/
def passes : Nat → Expr → Except Fault Expr
  | 0, e => .ok e
  | n + 1, e => do
    let next ← pass e
    if next = e then return next else passes n next

/-- The number of passes that a limit allows: at least one. -/
def passLimit (limit : Nat) : Nat :=
  max limit 1

/-- The limit on passes unless another is asked for. -/
def defaultPassLimit : Nat := 64

/-- The canonical form of an expression, as far as the limit on passes allows. -/
def canonicalize (limit : Nat) (e : Expr) : Except Fault Expr :=
  passes (passLimit limit) e

end Expr

end PredicateLift
