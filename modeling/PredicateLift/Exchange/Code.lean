import PredicateLift.Code.Instruction
import PredicateLift.Code.Intrinsic
import PredicateLift.Code.Pool
import PredicateLift.Exchange.Values

/-!
# Members, constants and instructions in documents
-/

namespace PredicateLift

namespace Member

/-- A member as a document. -/
def toJson (member : Member) : Json :=
  .ofMembers [("owner", .string member.owner), ("name", .string member.name),
    ("descriptor", .string member.descriptor)]

/-- Reads a member. -/
def ofJson? (j : Json) : Option Member := do
  let [owner, name, descriptor] ← j.record? ["owner", "name", "descriptor"] | none
  return ⟨← owner.string?, ← name.string?, ← descriptor.string?⟩

end Member

namespace Constant

/-- A constant as a document. -/
def toJson (style : NumberStyle) : Constant → Json
  | integer value => .tagged "Integer" (.integer value.toInt)
  | float value => .tagged "Float" (style.float value)
  | long value => .tagged "Long" (style.long value)
  | double value => .tagged "Double" (style.double value)
  | string value => .tagged "String" (.string value)
  | classRef name => .tagged "Class" (.string name)
  | fieldRef member => .tagged "FieldRef" member.toJson
  | methodRef member => .tagged "MethodRef" member.toJson
  | interfaceMethodRef member => .tagged "InterfaceMethodRef" member.toJson

/-- Reads a constant. -/
def ofJson? (style : NumberStyle) (j : Json) : Option Constant := do
  match ← j.variant? with
  | ("Integer", some content) => return .integer (← content.int32?)
  | ("Float", some content) => return .float (← style.float? content)
  | ("Long", some content) => return .long (← style.long? content)
  | ("Double", some content) => return .double (← style.double? content)
  | ("String", some content) => return .string (← content.string?)
  | ("Class", some content) => return .classRef (← content.string?)
  | ("FieldRef", some content) => return .fieldRef (← Member.ofJson? content)
  | ("MethodRef", some content) => return .methodRef (← Member.ofJson? content)
  | ("InterfaceMethodRef", some content) => return .interfaceMethodRef (← Member.ofJson? content)
  | _ => none

end Constant

namespace Pool

/-- A pool as a document. -/
def toJson (style : NumberStyle) (pool : Pool) : Json :=
  .ofMembers [("entries", .ofList (Constant.toJson style) pool.entries.toList)]

/-- Reads a pool. -/
def ofJson? (style : NumberStyle) (j : Json) : Option Pool := do
  let [entries] ← j.record? ["entries"] | none
  return ⟨(← entries.list? (Constant.ofJson? style)).toArray⟩

end Pool

/-! ## Instructions -/

/-- A kind of dispatch as a document. -/
def Dispatch.toJson : Dispatch → Json
  | virtual => .string "Virtual"
  | special => .string "Special"
  | static => .string "Static"
  | interface => .string "Interface"

/-- Reads a kind of dispatch. -/
def Dispatch.ofJson? : Json → Option Dispatch :=
  named? [("Virtual", .virtual), ("Special", .special), ("Static", .static), ("Interface", .interface)]

/-- A bias as a document. -/
def Bias.toJson : Bias → Json
  | ordered => .string "None"
  | less => .string "Less"
  | greater => .string "Greater"

/-- Reads a bias. -/
def Bias.ofJson? : Json → Option Bias :=
  named? [("None", .ordered), ("Less", .less), ("Greater", .greater)]

/-- A condition as a document. -/
def Condition.toJson : Condition → Json
  | zero op => .tagged "Zero" op.toJson
  | ints op => .tagged "IntCmp" op.toJson
  | refs op => .tagged "RefCmp" op.toJson
  | null => .string "Null"
  | nonNull => .string "NonNull"

/-- Reads a condition. -/
def Condition.ofJson? (j : Json) : Option Condition := do
  match ← j.variant? with
  | ("Zero", some content) => return .zero (← Comparison.ofJson? content)
  | ("IntCmp", some content) => return .ints (← Comparison.ofJson? content)
  | ("RefCmp", some content) => return .refs (← Comparison.ofJson? content)
  | _ => named? [("Null", null), ("NonNull", nonNull)] j

namespace Operation

/-- A slot and a kind as a document. -/
def slotToJson (slot : Slot) (kind : Kind) : Json :=
  .ofMembers [("slot", .ofNat slot.toNat), ("kind", kind.toJson)]

/-- Reads a slot and a kind. -/
def slotOfJson? (j : Json) : Option (Slot × Kind) := do
  let [slot, kind] ← j.fields? ["slot", "kind"] | none
  return (← slot.uint16?, ← Kind.ofJson? kind)

/-- An operation as a document. -/
def toJson (style : NumberStyle) : Operation → Json
  | nop => .string "Nop"
  | push value => .tagged "LoadConst" (value.toJson style)
  | load slot kind => .tagged "LoadLocal" (slotToJson slot kind)
  | store slot kind => .tagged "StoreLocal" (slotToJson slot kind)
  | getField field => .tagged "GetField" field.toJson
  | getStatic field => .tagged "GetStatic" field.toJson
  | invoke dispatch method =>
    .tagged "Invoke" (.ofMembers [("kind", dispatch.toJson), ("method", method.toJson)])
  | arith op kind => .tagged "Arithmetic" (.ofMembers [("op", op.toJson), ("kind", kind.toJson)])
  | negate kind => .tagged "Negate" kind.toJson
  | convert source target => .tagged "Convert" (.ofMembers [("from", source.toJson), ("to", target.toJson)])
  | compareThreeWay kind bias =>
    .tagged "CompareThreeWay" (.ofMembers [("kind", kind.toJson), ("nan", bias.toJson)])
  | branch condition target =>
    .tagged "BranchIf" (.ofMembers [("cond", condition.toJson), ("target", .ofNat target.toNat)])
  | jump target => .tagged "Goto" (.ofMembers [("target", .ofNat target.toNat)])
  | ret kind => .tagged "Return" (.ofOption Kind.toJson kind)
  | arrayLoad kind => .tagged "ArrayLoad" kind.toJson
  | arrayLength => .string "ArrayLength"
  | box kind => .tagged "Box" kind.toJson
  | unbox kind => .tagged "Unbox" kind.toJson
  | checkCast className => .tagged "CheckCast" (.string className)
  | dup => .string "Dup"
  | pop => .string "Pop"

/-- Reads an operation. -/
def ofJson? (style : NumberStyle) (j : Json) : Option Operation := do
  match ← j.variant? with
  | ("LoadConst", some content) => return .push (← Literal.ofJson? style content)
  | ("LoadLocal", some content) =>
    let (slot, kind) ← slotOfJson? content
    return .load slot kind
  | ("StoreLocal", some content) =>
    let (slot, kind) ← slotOfJson? content
    return .store slot kind
  | ("GetField", some content) => return .getField (← Member.ofJson? content)
  | ("GetStatic", some content) => return .getStatic (← Member.ofJson? content)
  | ("Invoke", some content) =>
    let [kind, method] ← content.fields? ["kind", "method"] | none
    return .invoke (← Dispatch.ofJson? kind) (← Member.ofJson? method)
  | ("Arithmetic", some content) =>
    let [op, kind] ← content.fields? ["op", "kind"] | none
    return .arith (← BinaryOperator.ofJson? op) (← NumericKind.ofJson? kind)
  | ("Negate", some content) => return .negate (← NumericKind.ofJson? content)
  | ("Convert", some content) =>
    let [source, target] ← content.fields? ["from", "to"] | none
    return .convert (← NumericKind.ofJson? source) (← NumericKind.ofJson? target)
  | ("CompareThreeWay", some content) =>
    let [kind, bias] ← content.fields? ["kind", "nan"] | none
    return .compareThreeWay (← NumericKind.ofJson? kind) (← Bias.ofJson? bias)
  | ("BranchIf", some content) =>
    let [condition, target] ← content.fields? ["cond", "target"] | none
    return .branch (← Condition.ofJson? condition) (← target.uint32?)
  | ("Goto", some content) =>
    let [target] ← content.fields? ["target"] | none
    return .jump (← target.uint32?)
  | ("Return", some content) => return .ret (← content.option? Kind.ofJson?)
  | ("ArrayLoad", some content) => return .arrayLoad (← Kind.ofJson? content)
  | ("Box", some content) => return .box (← Kind.ofJson? content)
  | ("Unbox", some content) => return .unbox (← Kind.ofJson? content)
  | ("CheckCast", some content) => return .checkCast (← content.string?)
  | _ => named? [("Nop", nop), ("ArrayLength", arrayLength), ("Dup", dup), ("Pop", pop)] j

end Operation

namespace Instruction

/-- An instruction as a document. -/
def toJson (style : NumberStyle) (instruction : Instruction) : Json :=
  .ofMembers [("offset", .ofNat instruction.offset.toNat), ("op", instruction.op.toJson style)]

/-- Reads an instruction. -/
def ofJson? (style : NumberStyle) (j : Json) : Option Instruction := do
  let [offset, op] ← j.record? ["offset", "op"] | none
  return ⟨← offset.uint32?, ← Operation.ofJson? style op⟩

end Instruction

namespace Intrinsic

/-- An intrinsic as a document. -/
def toJson : Intrinsic → Json
  | box kind => .tagged "Box" kind.toJson
  | unbox kind => .tagged "Unbox" kind.toJson
  | equals => .string "Equals"

/-- Reads an intrinsic. -/
def ofJson? (j : Json) : Option Intrinsic := do
  match ← j.variant? with
  | ("Box", some content) => return .box (← Kind.ofJson? content)
  | ("Unbox", some content) => return .unbox (← Kind.ofJson? content)
  | _ => named? [("Equals", equals)] j

end Intrinsic

end PredicateLift
