import PredicateLift.Exchange.Numbers
import PredicateLift.Value.Literal
import PredicateLift.Value.Operator

/-!
# Kinds, operators and literals in documents

A variant without content is its name; a variant with content is an object whose one member has its name.
-/

namespace PredicateLift

/-- Reads a variant without content from a table of names. -/
def named? {α : Type} (table : List (String × α)) (j : Json) : Option α := do
  table.lookup (← j.unit?)

/-! ## Kinds -/

namespace Kind

/-- The kinds without content. -/
def named : List (String × Kind) := [
  ("Bool", .bool), ("Int", .int), ("Long", .long), ("Float", .float), ("Double", .double), ("Str", .str),
  ("Null", .null), ("Void", .void), ("Unknown", .unknown)]

/-- A kind as a document. -/
def toJson : Kind → Json
  | object name => .tagged "Object" (.string name)
  | array element => .tagged "Array" element.toJson
  | bool => .string "Bool"
  | int => .string "Int"
  | long => .string "Long"
  | float => .string "Float"
  | double => .string "Double"
  | str => .string "Str"
  | null => .string "Null"
  | void => .string "Void"
  | unknown => .string "Unknown"

/-- Reads a kind nested at most as deeply as the bound. -/
def read? : (bound : Nat) → Json → Option Kind
  | 0, _ => none
  | bound + 1, j => match j.variant? with
    | some ("Object", some content) => content.string?.map object
    | some ("Array", some content) => (read? bound content).map array
    | _ => named? named j

/-- Reads a kind. -/
def ofJson? (j : Json) : Option Kind :=
  read? (j.depth + 1) j

end Kind

/-- The names of the numeric kinds. -/
def NumericKind.named : List (String × NumericKind) := [
  ("Int", .int), ("Long", .long), ("Float", .float), ("Double", .double)]

/-- A numeric kind as a document. -/
def NumericKind.toJson (kind : NumericKind) : Json :=
  kind.toKind.toJson

/-- Reads a numeric kind. -/
def NumericKind.ofJson? : Json → Option NumericKind :=
  named? named

/-! ## Operators -/

namespace Comparison

/-- The names of the comparisons. -/
def named : List (String × Comparison) := [
  ("Eq", .eq), ("Ne", .ne), ("Lt", .lt), ("Le", .le), ("Gt", .gt), ("Ge", .ge)]

/-- A comparison as a document. -/
def toJson : Comparison → Json
  | eq => .string "Eq"
  | ne => .string "Ne"
  | lt => .string "Lt"
  | le => .string "Le"
  | gt => .string "Gt"
  | ge => .string "Ge"

/-- Reads a comparison. -/
def ofJson? : Json → Option Comparison :=
  named? named

end Comparison

namespace Connective

/-- A connective as a document. -/
def toJson : Connective → Json
  | and => .string "And"
  | or => .string "Or"

/-- Reads a connective. -/
def ofJson? : Json → Option Connective :=
  named? [("And", .and), ("Or", .or)]

end Connective

namespace BinaryOperator

/-- The names of the operators on two numbers. -/
def named : List (String × BinaryOperator) := [
  ("Add", .add), ("Sub", .sub), ("Mul", .mul), ("Div", .div), ("Rem", .rem)]

/-- An operator as a document. -/
def toJson : BinaryOperator → Json
  | add => .string "Add"
  | sub => .string "Sub"
  | mul => .string "Mul"
  | div => .string "Div"
  | rem => .string "Rem"

/-- Reads an operator. -/
def ofJson? : Json → Option BinaryOperator :=
  named? named

end BinaryOperator

namespace Operator

/-- An operator as a document. -/
def toJson : Operator → Json
  | binary op => op.toJson
  | neg => .string "Neg"

/-- Reads an operator. -/
def ofJson? : Json → Option Operator :=
  named? (("Neg", .neg) :: BinaryOperator.named.map fun (name, op) => (name, .binary op))

end Operator

/-! ## Literals -/

namespace Literal

mutual

/-- A literal as a document. -/
def toJson (style : NumberStyle) : Literal → Json
  | null => .string "Null"
  | bool value => .tagged "Bool" (.bool value)
  | int value => .tagged "Int" (.integer value.toInt)
  | long value => .tagged "Long" (style.long value)
  | float value => .tagged "Float" (style.float value)
  | double value => .tagged "Double" (style.double value)
  | str value => .tagged "Str" (.string value)
  | array items => .tagged "Array" (.array (itemsToJson style items))
  | object typeName fields =>
    .tagged "Object" (.ofMembers [("type_name", .string typeName), ("fields", .object (fieldsToJson style fields))])
  | constant owner name => .tagged "Constant" (.ofMembers [("owner", .string owner), ("name", .string name)])

/-- Literals as documents. -/
def itemsToJson (style : NumberStyle) : List Literal → List Json
  | [] => []
  | item :: items => item.toJson style :: itemsToJson style items

/-- Fields as members. -/
def fieldsToJson (style : NumberStyle) : List (String × Literal) → List (String × Json)
  | [] => []
  | (name, value) :: fields => (name, value.toJson style) :: fieldsToJson style fields

end

/-- Reads a literal nested at most as deeply as the bound. -/
def read? (style : NumberStyle) : (bound : Nat) → Json → Option Literal
  | 0, _ => none
  | bound + 1, j => do
    match ← j.variant? with
    | ("Bool", some content) => return .bool (← content.bool?)
    | ("Int", some content) => return .int (← content.int32?)
    | ("Long", some content) => return .long (← style.long? content)
    | ("Float", some content) => return .float (← style.float? content)
    | ("Double", some content) => return .double (← style.double? content)
    | ("Str", some content) => return .str (← content.string?)
    | ("Array", some content) => return .array (← content.list? (read? style bound))
    | ("Object", some content) =>
      let [typeName, fields] ← content.fields? ["type_name", "fields"] | none
      let members ← fields.members?
      let fields ← members.mapM fun (name, value) => (read? style bound value).map (name, ·)
      return .ofFields (← typeName.string?) fields
    | ("Constant", some content) =>
      let [owner, name] ← content.fields? ["owner", "name"] | none
      return .constant (← owner.string?) (← name.string?)
    | _ => named? [("Null", null)] j

/-- Reads a literal. -/
def ofJson? (style : NumberStyle) (j : Json) : Option Literal :=
  read? style (j.depth + 1) j

end Literal

end PredicateLift
