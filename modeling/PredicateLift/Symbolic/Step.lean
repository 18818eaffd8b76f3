import PredicateLift.Code.Intrinsic
import PredicateLift.Query.Path
import PredicateLift.Symbolic.Frame
import PredicateLift.Value.Conversion

/-!
# Execution of one instruction

`step` carries out an instruction on a frame. What can be read of captured literals is read at once; all else becomes
a term. Control goes on, jumps, may branch on a test, or returns a value.
-/

namespace PredicateLift

/-- What an instruction did. -/
inductive Effect where
  | next (frame : Frame)
  | jump (target : Offset) (frame : Frame)
  /-- Control goes to the target exactly if the test holds. -/
  | branch (test : Symbolic) (target : Offset) (frame : Frame)
  | done (value : Symbolic)
deriving DecidableEq

namespace Symbolic

/-- A value that went through an unboxing call. -/
def unbox (value : Symbolic) (kind : Kind) : Symbolic :=
  match value with
  | literal _ => value
  | _ => if value.kind = kind then value else .unboxed value kind

/-- A field of a value. -/
def readField (receiver : Symbolic) (member : Member) : Except Cause Symbolic :=
  match receiver with
  | literal (.object typeName fields) => match fields.lookup member.name with
    | some value => .ok (.literal value)
    | none => .error (.missingField typeName member.name)
  | literal other => .error (.fieldOfLiteral member.name other)
  | _ => .ok (.field receiver member)

/-- A number converted from one kind to another. Only literals can be narrowed, and widening leaves no trace. -/
def convert (value : Symbolic) (source target : NumericKind) : Except Cause Symbolic :=
  match value with
  | literal number => match number.convert? target with
    | some converted => .ok (.literal converted)
    | none => .error (.inconvertible number target)
  | _ => if source.rank < target.rank then .ok value else .error (.narrowing source target)

/-- The item of a list at a signed index. -/
def itemAt? (items : List Literal) (index : Int32) : Option Literal :=
  if 0 ≤ index then items[index.toInt.toNat]? else none

/-- An element of an array. -/
def readElement (array index : Symbolic) (kind : Kind) : Except Cause Symbolic :=
  match array, index with
  | literal (.array items), literal (.int i) => match itemAt? items i with
    | some item => .ok (.literal item)
    | none => .error (.indexOutOfBounds i items.length)
  | literal .null, _ => .error .loadFromNull
  | _, _ => .ok (.element array index kind)

/-- The length of an array. -/
def readLength (array : Symbolic) : Except Cause Symbolic :=
  match array with
  | literal (.array items) => .ok (.literal (.int (Int32.ofNat items.length)))
  | literal other => .error (.lengthOfLiteral other)
  | _ => .ok (.length array)

end Symbolic

/-- The integer that a three-way comparison gives for numbers without an order, as an order against zero. -/
def Bias.order? : Bias → Option Ordering
  | .ordered => none
  | .less => some .lt
  | .greater => some .gt

/-- The test of a three-way comparison against zero. Where numbers without an order pass, it is a negated
comparison. -/
def threeWayTest (op : Comparison) (left right : Symbolic) (bias : Bias) : Symbolic :=
  match bias.order? with
  | none => .compare op left right
  | some order =>
    if op.holds order then .not (.compare op.negate left right) else .compare op left right

/-- The test of a value against zero. -/
def zeroTest (op : Comparison) (value : Symbolic) : Symbolic :=
  match value with
  | .threeWay left right bias => threeWayTest op left right bias
  | _ =>
    if value.isBool && op == .eq then .not value
    else if value.isBool && op == .ne then value
    else .compare op value (.literal (.int 0))

/-- Takes what a condition tests from the stack, and gives the test. -/
def Condition.test (condition : Condition) (frame : Frame) : Except Cause (Symbolic × Frame) := do
  match condition with
  | .zero op =>
    let (value, frame) ← frame.pop
    return (zeroTest op value, frame)
  | .ints op | .refs op =>
    let (right, frame) ← frame.pop
    let (left, frame) ← frame.pop
    return (.compare op left right, frame)
  | .null =>
    let (value, frame) ← frame.pop
    return (.compare .eq value (.literal .null), frame)
  | .nonNull =>
    let (value, frame) ← frame.pop
    return (.compare .ne value (.literal .null), frame)

/-- The property of a captured object that a call without arguments reads. -/
def accessedProperty? (receiver : Symbolic) (method : Member) : Option Literal :=
  match receiver with
  | .literal (.object _ fields) => (accessorProperty? method.name).bind (List.lookup · fields)
  | _ => none

/-- The value of a call of a method with a receiver. -/
def callResult (registry : Registry) (method : Member) (receiver : Symbolic) (args : List Symbolic) (kind : Kind) :
    Except Cause Symbolic :=
  match registry.get? method, args with
  | some .equals, [arg] => .ok (.compare .eq receiver arg)
  | some .equals, _ => .error (.equalityArity method.name)
  | _, [] => match accessedProperty? receiver method with
    | some value => .ok (.literal value)
    | none => .ok (.call receiver method [] kind)
  | _, _ => .ok (.call receiver method args kind)

/-- The value of a call of a static method. -/
def staticCallResult (registry : Registry) (method : Member) (args : List Symbolic) (kind : Kind) :
    Except Cause Symbolic :=
  match registry.get? method, args with
  | some .equals, [left, right] => .ok (.compare .eq left right)
  | some .equals, _ => .error (.equalityArity method.name)
  | _, _ => .ok (.staticCall method args kind)

/-- Takes the operands of a call from the stack, and gives its value. -/
def runCall (registry : Registry) (dispatch : Dispatch) (method : Member) (frame : Frame) :
    Except Cause (Symbolic × Frame) := do
  match Signature.ofDescriptor? method.descriptor with
  | none => .error (.malformedDescriptor method.descriptor)
  | some signature =>
    if signature.result = .void then .error (.voidCall method.owner method.name)
    else
      let (args, frame) ← frame.popMany signature.parameters.length
      if dispatch = .static then
        return (← staticCallResult registry method args signature.result, frame)
      else
        let (receiver, frame) ← frame.pop
        return (← callResult registry method receiver args signature.result, frame)

/-- Carries out an operation on a frame. -/
def Operation.run (registry : Registry) (op : Operation) (frame : Frame) : Except Cause Effect := do
  match op with
  | .nop | .box _ | .checkCast _ => return .next frame
  | .unbox kind =>
    let (value, frame) ← frame.pop
    return .next (frame.push (value.unbox kind))
  | .push value => return .next (frame.push (.literal value))
  | .load slot _ => match frame.locals.get? slot with
    | some value => return .next (frame.push value)
    | none => .error (.unboundSlot slot)
  | .store slot _ =>
    let (value, frame) ← frame.pop
    return .next { frame with locals := frame.locals.set slot value }
  | .getField member =>
    let (receiver, frame) ← frame.pop
    return .next (frame.push (← receiver.readField member))
  | .getStatic member => return .next (frame.push (.literal (.constant member.owner member.name)))
  | .invoke dispatch method =>
    let (value, frame) ← runCall registry dispatch method frame
    return .next (frame.push value)
  | .arith op kind =>
    let (right, frame) ← frame.pop
    let (left, frame) ← frame.pop
    return .next (frame.push (.arith (.binary op) kind left right))
  | .negate kind =>
    let (operand, frame) ← frame.pop
    return .next (frame.push (.negative operand kind))
  | .convert source target =>
    let (value, frame) ← frame.pop
    return .next (frame.push (← value.convert source target))
  | .compareThreeWay _ bias =>
    let (right, frame) ← frame.pop
    let (left, frame) ← frame.pop
    return .next (frame.push (.threeWay left right bias))
  | .branch condition target =>
    let (test, frame) ← condition.test frame
    return .branch test target frame
  | .jump target => return .jump target frame
  | .ret none => .error .voidReturn
  | .ret (some _) =>
    let (value, _) ← frame.pop
    return .done value
  | .arrayLoad kind =>
    let (index, frame) ← frame.pop
    let (array, frame) ← frame.pop
    return .next (frame.push (← array.readElement index kind))
  | .arrayLength =>
    let (array, frame) ← frame.pop
    return .next (frame.push (← array.readLength))
  | .dup =>
    let (value, frame) ← frame.pop
    return .next ((frame.push value).push value)
  | .pop =>
    let (_, frame) ← frame.pop
    return .next frame

/-- Carries out an instruction on a frame; a failure is blamed on it. -/
def step (registry : Registry) (frame : Frame) (instruction : Instruction) : Except Fault Effect :=
  (instruction.op.run registry frame).mapError (Fault.located instruction.offset)

end PredicateLift
