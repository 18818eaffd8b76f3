import PredicateLift.Query.Expr
import PredicateLift.Symbolic.Value

/-!
# Query expressions of symbolic values

A symbolic value becomes a query expression when everything it reads of the subject is a path. Reads of computed
values, and values of other variables than the subject, have no query form.
-/

namespace PredicateLift.Symbolic

/-- The step of a path that reads the element at an index. -/
def indexSegment? : Symbolic → Option Segment
  | literal (.int i) => if 0 ≤ i then some (.index i.toUInt32) else none
  | _ => none

/-- The path that an expression is. -/
def path? : Expr → Option Path
  | .path p => some p
  | _ => none

/-- A call on a target: an accessor without arguments extends a path. -/
def lowerCall (target : Expr) (method : Member) (args : List Expr) : Expr :=
  match path? target, args with
  | some p, [] => .path (p.child (.method method.name))
  | _, args => .call target method args

mutual

/-- The query expression of a value whose subject is in the given slot. -/
def lower (subject : Slot) : Symbolic → Except Fault Expr
  | literal value => .ok (.literal value)
  | var slot =>
    if slot = subject then .ok (.path .root) else .error (.structural (.freeVariable slot))
  | field receiver member => do
    match path? (← lower subject receiver) with
    | some p => return .path (p.child (.field member.name))
    | none => .error (.structural (.fieldOfComputed member.name))
  | call receiver method args _ => do
    let target ← lower subject receiver
    let args ← lowerAll subject args
    return lowerCall target method args
  | staticCall method args _ => do return .staticCall method (← lowerAll subject args)
  | negative operand kind => do return .arith .neg kind [← lower subject operand]
  | arith op kind left right => do
    let left ← lower subject left
    let right ← lower subject right
    return .arith op kind [left, right]
  | compare op left right => do
    let left ← lower subject left
    let right ← lower subject right
    return .compare op left right
  | not operand => do return .not (← lower subject operand)
  | logical op left right => do
    let left ← lower subject left
    let right ← lower subject right
    return .combine op [left, right]
  | unboxed value _ => lower subject value
  | threeWay _ _ _ => .error (.structural .threeWayValue)
  | conditional test thenValue elseValue => do
    let test ← lower subject test
    let thenValue ← lower subject thenValue
    let elseValue ← lower subject elseValue
    return .conditional test thenValue elseValue
  | element array index _ => do
    match path? (← lower subject array), indexSegment? index with
    | some p, some segment => return .path (p.child segment)
    | _, _ => .error (.structural .elementOfComputed)
  | length array => do
    match path? (← lower subject array) with
    | some p => return .path (p.child .length)
    | none => .error (.structural .lengthOfComputed)

/-- The query expressions of several values, in order. -/
def lowerAll (subject : Slot) : List Symbolic → Except Fault (List Expr)
  | [] => .ok []
  | value :: values => do
    let e ← lower subject value
    let es ← lowerAll subject values
    return e :: es

end

end PredicateLift.Symbolic
