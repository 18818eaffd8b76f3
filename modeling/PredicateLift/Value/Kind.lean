import PredicateLift.Text.Quoted

/-!
# Kinds of values

A value on the operand stack has a kind. Four of the kinds are numeric and are ordered by widening.
-/

namespace PredicateLift

/-- The kind of a value. -/
inductive Kind where
  | bool
  | int
  | long
  | float
  | double
  | str
  | null
  | object (name : String)
  | array (element : Kind)
  | void
  | unknown
deriving DecidableEq

/-- The four kinds of numbers. -/
inductive NumericKind where
  | int
  | long
  | float
  | double
deriving DecidableEq

namespace NumericKind

/-- The place of a kind in the order of widening. -/
def rank : NumericKind → Nat
  | int => 0
  | long => 1
  | float => 2
  | double => 3

/-- The wider of two kinds. -/
def promote (a b : NumericKind) : NumericKind :=
  if a.rank ≤ b.rank then b else a

/-- Whether numbers of the kind have a fractional part. -/
def isDecimal : NumericKind → Bool
  | int | long => false
  | float | double => true

/-- The kind as a kind of value. -/
def toKind : NumericKind → Kind
  | int => .int
  | long => .long
  | float => .float
  | double => .double

theorem toKind_ne_bool (kind : NumericKind) : kind.toKind ≠ .bool := by
  cases kind <;> decide

/-- The name of the kind. -/
def name : NumericKind → String
  | int => "int"
  | long => "long"
  | float => "float"
  | double => "double"

end NumericKind

namespace Kind

/-- Whether values of the kind are not references. -/
def isPrimitive : Kind → Bool
  | bool | int | long | float | double => true
  | _ => false

/-- The kind as a kind of number. -/
def numeric? : Kind → Option NumericKind
  | int => some .int
  | long => some .long
  | float => some .float
  | double => some .double
  | _ => none

/-- Whether a value of the second kind may be bound where the first is declared. Booleans travel as integers,
references may be null, and an unknown kind fits everything. -/
def accepts : Kind → Kind → Bool
  | unknown, _ => true
  | _, unknown => true
  | object _, null => true
  | str, null => true
  | array _, null => true
  | bool, int => true
  | int, bool => true
  | array a, array b => a.accepts b
  | a, b => a == b

theorem accepts_refl (kind : Kind) : kind.accepts kind = true := by
  induction kind with
  | array element ih => simpa [accepts] using ih
  | _ => simp [accepts]

/-- The kind in constructor form, as messages show it. -/
def text : Kind → String
  | bool => "Bool"
  | int => "Int"
  | long => "Long"
  | float => "Float"
  | double => "Double"
  | str => "Str"
  | null => "Null"
  | object name => "Object(" ++ Text.quote name ++ ")"
  | array element => "Array(" ++ element.text ++ ")"
  | void => "Void"
  | unknown => "Unknown"

end Kind

end PredicateLift
