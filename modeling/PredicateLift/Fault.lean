import PredicateLift.Value.Literal
import PredicateLift.Value.Operator

/-!
# Faults

An analysis that cannot be carried through ends in a fault. A fault names its cause and, where one instruction is to
blame, the offset of that instruction. Causes fall under a few reasons; the wording of every cause is in
`Cause.message` and nowhere else.
-/

namespace PredicateLift

/-- The position of an instruction in its body, in bytes. -/
abbrev Offset := UInt32

/-- The number of a local variable. -/
abbrev Slot := UInt16

/-- The families of causes. -/
inductive Reason where
  | unsupportedOpcode
  | stackUnderflow
  | invalidBranchTarget
  | unsupportedLoop
  | nonConvergentBranch
  | divisionByZeroLiteral
  | unrepresentableNumericNegation
  | unresolvableCapture
deriving DecidableEq

/-- How a reason is shown. -/
def Reason.text : Reason → String
  | .unsupportedOpcode => "unsupported opcode"
  | .stackUnderflow => "stack underflow"
  | .invalidBranchTarget => "invalid branch target"
  | .unsupportedLoop => "unsupported loop"
  | .nonConvergentBranch => "non-convergent branch"
  | .divisionByZeroLiteral => "division by zero literal"
  | .unrepresentableNumericNegation => "unrepresentable numeric negation"
  | .unresolvableCapture => "unresolvable capture"

/-- A report of a reason, a place and a message. -/
def Reason.report (reason : Reason) (offset : Option Offset) (message : String) : String :=
  let place := match offset with
    | some o => toString o.toNat
    | none => "none"
  reason.text ++ " at offset " ++ place ++ ": " ++ message

/-- What went wrong. -/
inductive Cause where
  /-- The code ends inside an instruction. -/
  | truncatedOperands
  /-- The opcode has no place in a predicate. -/
  | unknownOpcode (opcode : UInt8)
  /-- A relative branch leaves the range of offsets. -/
  | targetOutsideBody (target : Int)
  /-- A constant of two words is loaded as one, or the other way round. -/
  | constantWidth (index : UInt16) (wide : Bool)
  /-- A class is loaded as a value. -/
  | classLiteral (name : String)
  /-- There is no constant at the index that could be loaded. -/
  | notLoadable (index : UInt16)
  /-- There is no field reference at the index. -/
  | notFieldReference (index : UInt16)
  /-- There is no method reference at the index. -/
  | notMethodReference (index : UInt16)
  /-- There is no class at the index. -/
  | notClass (index : UInt16)
  /-- Two captures name one slot. -/
  | capturedTwice (slot : Slot)
  /-- A captured value is not of its declared kind. -/
  | captureKind (slot : Slot) (declared actual : Kind)
  /-- The slot of the subject is captured too. -/
  | subjectCaptured (slot : Slot)
  /-- A variable is neither the subject nor captured. -/
  | freeVariable (slot : Slot)
  /-- A field is read from a value that is no path. -/
  | fieldOfComputed (name : String)
  /-- The result of a three-way comparison is not tested by a branch. -/
  | threeWayValue
  /-- An array element is read by a computed array or index. -/
  | elementOfComputed
  /-- The length is taken of a value that is no path. -/
  | lengthOfComputed
  /-- Nothing is left on the operand stack. -/
  | emptyStack
  /-- The operand stack holds fewer operands than a call takes. -/
  | fewOperands (needed held : Nat)
  /-- A local variable is read before it is bound. -/
  | unboundSlot (slot : Slot)
  /-- A captured object lacks the field. -/
  | missingField (typeName name : String)
  /-- A field is read from a literal that is no object. -/
  | fieldOfLiteral (name : String) (literal : Literal)
  /-- A literal has no value of the kind. -/
  | inconvertible (literal : Literal) (target : NumericKind)
  /-- A value that is not known would be narrowed. -/
  | narrowing (source target : NumericKind)
  /-- The body returns no value. -/
  | voidReturn
  /-- A captured array has no item at the index. -/
  | indexOutOfBounds (index : Int32) (length : Nat)
  /-- An array element is read from null. -/
  | loadFromNull
  /-- The length is taken of a literal that is no array. -/
  | lengthOfLiteral (literal : Literal)
  /-- A method descriptor does not follow the grammar. -/
  | malformedDescriptor (descriptor : String)
  /-- A method without a result is called. -/
  | voidCall (owner name : String)
  /-- A method known as an equality does not compare two values. -/
  | equalityArity (name : String)
  /-- Offsets do not increase. -/
  | offsetOrder (offset previous : Offset)
  /-- The last instruction does not end the body. -/
  | pastTheEnd
  /-- A branch does not go forward. -/
  | backwardBranch (target : Offset)
  /-- No instruction starts where a branch goes. -/
  | missingTarget (target : Offset)
  /-- Control is outside the body. -/
  | leftBody
  /-- Control reaches the end of the body without a value. -/
  | noValue
  /-- Only one arm of a branch returns. -/
  | mixedArms
  /-- The arms of a branch meet with stacks of different depth. -/
  | stackDepths (taken fallthrough : Nat)
  /-- A literal is divided by zero. -/
  | divisionByZero (left : Literal) (op : BinaryOperator) (right : Literal)
  /-- A literal that is no number is negated. -/
  | cannotNegate (literal : Literal)
deriving DecidableEq

namespace Cause

/-- The family of a cause. -/
def reason : Cause → Reason
  | truncatedOperands | unknownOpcode _ | constantWidth _ _ | classLiteral _ | fieldOfComputed _ | threeWayValue
  | elementOfComputed | lengthOfComputed | inconvertible _ _ | narrowing _ _ | voidReturn | malformedDescriptor _
  | voidCall _ _ | equalityArity _ => .unsupportedOpcode
  | emptyStack | fewOperands _ _ => .stackUnderflow
  | targetOutsideBody _ | offsetOrder _ _ | pastTheEnd | missingTarget _ | leftBody | noValue => .invalidBranchTarget
  | backwardBranch _ => .unsupportedLoop
  | mixedArms | stackDepths _ _ => .nonConvergentBranch
  | divisionByZero _ _ _ => .divisionByZeroLiteral
  | cannotNegate _ => .unrepresentableNumericNegation
  | notLoadable _ | notFieldReference _ | notMethodReference _ | notClass _ | capturedTwice _ | captureKind _ _ _
  | subjectCaptured _ | freeVariable _ | unboundSlot _ | missingField _ _ | fieldOfLiteral _ _ | indexOutOfBounds _ _
  | loadFromNull | lengthOfLiteral _ => .unresolvableCapture

/-- Two digits of a byte in base sixteen. -/
def byteText (b : UInt8) : String :=
  String.ofList ((if b < 16 then ['0'] else []) ++ Text.hexDigits b.toNat)

/-- The wording of a cause. -/
def message : Cause → String
  | truncatedOperands => "instruction operands are truncated"
  | unknownOpcode opcode => "opcode 0x" ++ byteText opcode ++ " is not supported in predicates"
  | targetOutsideBody target => s!"branch target {target} is outside the method body"
  | constantWidth index wide =>
    s!"constant #{index.toNat} does not match the width of " ++ (if wide then "ldc2_w" else "ldc")
  | classLiteral name => s!"class literal {name} is not supported"
  | notLoadable index => s!"constant #{index.toNat} is not loadable"
  | notFieldReference index => s!"constant #{index.toNat} is not a field reference"
  | notMethodReference index => s!"constant #{index.toNat} is not a method reference"
  | notClass index => s!"constant #{index.toNat} is not a class"
  | capturedTwice slot => s!"slot {slot.toNat} is captured twice"
  | captureKind slot declared actual =>
    s!"capture in slot {slot.toNat}: expected {declared.text}, got {actual.text}"
  | subjectCaptured slot => s!"slot {slot.toNat} holds both the subject and a captured value"
  | freeVariable slot => s!"slot {slot.toNat} is neither the subject nor a capture"
  | fieldOfComputed name => s!"field {name} read from a computed value"
  | threeWayValue => "three-way comparison result used as a value"
  | elementOfComputed => "array element with a computed array or index"
  | lengthOfComputed => "length of a computed array"
  | emptyStack => "pop from an empty operand stack"
  | fewOperands needed held => s!"need {needed} operands, stack holds {held}"
  | unboundSlot slot => s!"local slot {slot.toNat} is unbound"
  | missingField typeName name => s!"captured {typeName} has no field {name}"
  | fieldOfLiteral name literal => s!"cannot read field {name} of literal {literal.text}"
  | inconvertible literal target => s!"cannot convert {literal.text} to {target.name}"
  | narrowing source target => s!"narrowing {source.name} to {target.name} of a non-constant"
  | voidReturn => "predicate body returns void"
  | indexOutOfBounds index length =>
    s!"index {index.toInt} out of bounds for captured array of length {length}"
  | loadFromNull => "array load from null"
  | lengthOfLiteral literal => s!"length of non-array literal {literal.text}"
  | malformedDescriptor descriptor => s!"malformed method descriptor {descriptor}"
  | voidCall owner name => s!"void call {owner}.{name} in a predicate"
  | equalityArity name => s!"equality intrinsic {name} has unexpected arity"
  | offsetOrder offset previous => s!"offset {offset.toNat} does not follow {previous.toNat}"
  | pastTheEnd => "control falls past the last instruction"
  | backwardBranch target => s!"backward branch to {target.toNat}"
  | missingTarget target => s!"branch target {target.toNat} is not an instruction boundary"
  | leftBody => "control left the method body"
  | noValue => "body ends without returning a value"
  | mixedArms => "one arm returns while the other continues"
  | stackDepths taken fallthrough =>
    s!"arms reach the merge with stack depths {taken} and {fallthrough}"
  | divisionByZero left op right => s!"{left.text} {op.symbol} {right.text}"
  | cannotNegate literal => s!"cannot negate {literal.kind.text} literal {literal.text}"

end Cause

/-- A cause, and the instruction to blame if there is one. -/
structure Fault where
  cause : Cause
  offset : Option Offset
deriving DecidableEq

namespace Fault

/-- A fault of the instruction at the given offset. -/
def located (offset : Offset) (cause : Cause) : Fault :=
  ⟨cause, some offset⟩

/-- A fault of the whole predicate. -/
def structural (cause : Cause) : Fault :=
  ⟨cause, none⟩

/-- The family of the cause. -/
def reason (fault : Fault) : Reason :=
  fault.cause.reason

/-- How a fault is shown. -/
def text (fault : Fault) : String :=
  fault.reason.report fault.offset fault.cause.message

end Fault

end PredicateLift
