import PredicateLift.Binary.Rounding
import PredicateLift.Value.Literal

/-!
# Numeric conversions of literals

Every numeric literal converts to every numeric kind. Between integers the low bits are kept; an integer becomes the
nearest floating-point number; a floating-point number loses its fraction and is held inside the range of the
integers.
-/

namespace PredicateLift

namespace Binary

variable {f : Format}

/-- The 32-bit integer nearest to the integer part. -/
def toInt32 (x : Binary f) : Int32 :=
  Int32.ofInt (x.truncate Int32.minValue.toInt Int32.maxValue.toInt)

/-- The 64-bit integer nearest to the integer part. -/
def toInt64 (x : Binary f) : Int64 :=
  Int64.ofInt (x.truncate Int64.minValue.toInt Int64.maxValue.toInt)

end Binary

namespace Literal

/-- The literal as a number of the given kind; only numbers have one. -/
def convert? : Literal → NumericKind → Option Literal
  | int v, .int => some (int v)
  | int v, .long => some (long v.toInt64)
  | int v, .float => some (float (.ofInt .single v.toInt))
  | int v, .double => some (double (.ofInt .double v.toInt))
  | long v, .int => some (int v.toInt32)
  | long v, .long => some (long v)
  | long v, .float => some (float (.ofInt .single v.toInt))
  | long v, .double => some (double (.ofInt .double v.toInt))
  | float v, .int => some (int v.toInt32)
  | float v, .long => some (long v.toInt64)
  | float v, .float => some (float v)
  | float v, .double => some (double (v.convert .double))
  | double v, .int => some (int v.toInt32)
  | double v, .long => some (long v.toInt64)
  | double v, .float => some (float (v.convert .single))
  | double v, .double => some (double v)
  | _, _ => none

end Literal

end PredicateLift
