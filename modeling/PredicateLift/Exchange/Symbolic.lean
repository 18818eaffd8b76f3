import PredicateLift.Exchange.Code
import PredicateLift.Symbolic.Frame

/-!
# Symbolic values and frames in documents

The stack of a frame is written from its bottom.
-/

namespace PredicateLift

namespace Symbolic

/-- A call as a document. -/
def callToJson (receiver : Json) (method : Member) (args : List Json) (kind : Kind) : Json :=
  .tagged "MethodCall" (.ofMembers [("receiver", receiver), ("method", method.toJson), ("args", .array args),
    ("kind", kind.toJson)])

/-- An operation on two values as a document. -/
def binaryToJson (op left right : Json) : Json :=
  .tagged "BinaryOp" (.ofMembers [("op", op), ("left", left), ("right", right)])

mutual

/-- A symbolic value as a document. -/
def toJson (style : NumberStyle) : Symbolic → Json
  | literal value => .tagged "Literal" (value.toJson style)
  | var slot => .tagged "VariableRef" (.ofNat slot.toNat)
  | field receiver member => .tagged "FieldAccess"
      (.ofMembers [("receiver", receiver.toJson style), ("field", member.toJson)])
  | call receiver method args kind => callToJson (receiver.toJson style) method (listToJson style args) kind
  | staticCall method args kind => callToJson .null method (listToJson style args) kind
  | negative operand kind => .tagged "UnaryOp"
      (.ofMembers [("operand", operand.toJson style), ("kind", kind.toJson)])
  | arith op kind left right =>
      binaryToJson (.tagged "Arithmetic" (.array [op.toJson, kind.toJson])) (left.toJson style) (right.toJson style)
  | compare op left right =>
      binaryToJson (.tagged "Compare" op.toJson) (left.toJson style) (right.toJson style)
  | not operand => .tagged "Negation" (operand.toJson style)
  | logical op left right => .tagged "Logical"
      (.ofMembers [("op", op.toJson), ("left", left.toJson style), ("right", right.toJson style)])
  | unboxed value kind => .tagged "Unboxed" (.ofMembers [("value", value.toJson style), ("kind", kind.toJson)])
  | threeWay left right bias => .tagged "ThreeWay"
      (.ofMembers [("left", left.toJson style), ("right", right.toJson style), ("nan", bias.toJson)])
  | conditional test thenValue elseValue => .tagged "Conditional"
      (.ofMembers [("test", test.toJson style), ("then_value", thenValue.toJson style),
        ("else_value", elseValue.toJson style)])
  | element array index kind => .tagged "ArrayElement"
      (.ofMembers [("array", array.toJson style), ("index", index.toJson style), ("kind", kind.toJson)])
  | length array => .tagged "ArrayLength" (array.toJson style)

/-- Symbolic values as documents. -/
def listToJson (style : NumberStyle) : List Symbolic → List Json
  | [] => []
  | value :: values => value.toJson style :: listToJson style values

end

/-- Reads a symbolic value nested at most as deeply as the bound. -/
def read? (style : NumberStyle) : (bound : Nat) → Json → Option Symbolic
  | 0, _ => none
  | bound + 1, j => do
    match ← j.variant? with
    | ("Literal", some content) => return .literal (← Literal.ofJson? style content)
    | ("VariableRef", some content) => return .var (← content.uint16?)
    | ("FieldAccess", some content) =>
      let [receiver, member] ← content.fields? ["receiver", "field"] | none
      return .field (← read? style bound receiver) (← Member.ofJson? member)
    | ("MethodCall", some content) =>
      let [receiver, method, args, kind] ← content.fields? ["receiver", "method", "args", "kind"] | none
      let receiver ← receiver.option? (read? style bound)
      let method ← Member.ofJson? method
      let args ← args.list? (read? style bound)
      let kind ← Kind.ofJson? kind
      match receiver with
      | some receiver => return .call receiver method args kind
      | none => return .staticCall method args kind
    | ("UnaryOp", some content) =>
      let [operand, kind] ← content.fields? ["operand", "kind"] | none
      return .negative (← read? style bound operand) (← NumericKind.ofJson? kind)
    | ("BinaryOp", some content) =>
      let [op, left, right] ← content.fields? ["op", "left", "right"] | none
      let left ← read? style bound left
      let right ← read? style bound right
      match ← op.variant? with
      | ("Arithmetic", some content) =>
        let [op, kind] ← content.items? | none
        return .arith (← Operator.ofJson? op) (← NumericKind.ofJson? kind) left right
      | ("Compare", some content) => return .compare (← Comparison.ofJson? content) left right
      | _ => none
    | ("Negation", some content) => return .not (← read? style bound content)
    | ("Logical", some content) =>
      let [op, left, right] ← content.fields? ["op", "left", "right"] | none
      return .logical (← Connective.ofJson? op) (← read? style bound left) (← read? style bound right)
    | ("Unboxed", some content) =>
      let [value, kind] ← content.fields? ["value", "kind"] | none
      return .unboxed (← read? style bound value) (← Kind.ofJson? kind)
    | ("ThreeWay", some content) =>
      let [left, right, bias] ← content.fields? ["left", "right", "nan"] | none
      return .threeWay (← read? style bound left) (← read? style bound right) (← Bias.ofJson? bias)
    | ("Conditional", some content) =>
      let [test, thenValue, elseValue] ← content.fields? ["test", "then_value", "else_value"] | none
      return .conditional (← read? style bound test) (← read? style bound thenValue)
        (← read? style bound elseValue)
    | ("ArrayElement", some content) =>
      let [array, index, kind] ← content.fields? ["array", "index", "kind"] | none
      return .element (← read? style bound array) (← read? style bound index) (← Kind.ofJson? kind)
    | ("ArrayLength", some content) => return .length (← read? style bound content)
    | _ => none

/-- Reads a symbolic value. -/
def ofJson? (style : NumberStyle) (j : Json) : Option Symbolic :=
  read? style (j.depth + 1) j

end Symbolic

namespace Frame

/-- A frame as a document. -/
def toJson (style : NumberStyle) (frame : Frame) : Json :=
  .ofMembers [
    ("stack", .array (Symbolic.listToJson style frame.stack.reverse)),
    ("locals", .ofMembers (frame.locals.bindings.map fun (slot, value) =>
      (toString slot.toNat, value.toJson style)))]

/-- Reads a slot written as text. -/
def slotOfText? (text : String) : Option Slot := do
  let digits := text.toList
  if digits.isEmpty || !digits.all Char.isDigit then none
  else (Json.integer (Json.Reader.digitsValue digits)).uint16?

/-- Reads a frame. -/
def ofJson? (style : NumberStyle) (j : Json) : Option Frame := do
  let [stack, locals] ← j.record? ["stack", "locals"] | none
  let stack ← stack.list? (Symbolic.ofJson? style)
  let bindings ← (← locals.members?).mapM fun (slot, value) => do
    return (← slotOfText? slot, ← Symbolic.ofJson? style value)
  return { stack := stack.reverse, locals := ⟨Bindings.ofList bindings⟩ }

end Frame

end PredicateLift
