/-!
# Binary floating-point numbers

Numbers of the two binary interchange formats are kept as their bit patterns, so that equality tells every pattern
apart: zeros by sign, NaNs by sign and payload.

Every finite number of a format is a whole multiple of the format's least positive number. `Binary.datum` reads a
pattern as that multiple, and the arithmetic of the following modules works on these natural numbers.
-/

namespace PredicateLift

/-- Two to the power `n`. -/
abbrev twoPow (n : Nat) : Nat :=
  Nat.pow 2 n

/-- A binary interchange format, given by the widths of its exponent and fraction fields. -/
structure Format where
  exponentBits : Nat
  fractionBits : Nat
deriving DecidableEq

namespace Format

/-- The 32-bit format. -/
def single : Format := ⟨8, 23⟩

/-- The 64-bit format. -/
def double : Format := ⟨11, 52⟩

/-- The number of bits of a pattern: a sign, the exponent and the fraction. -/
def width (f : Format) : Nat :=
  1 + f.exponentBits + f.fractionBits

/-- The exponent field that marks infinities and NaNs. -/
def specialExponent (f : Format) : Nat :=
  twoPow f.exponentBits - 1

/-- The least positive number of the format is two to the power of minus this scale. -/
def scale (f : Format) : Nat :=
  twoPow (f.exponentBits - 1) - 2 + f.fractionBits

/-- The pattern of positive infinity, as a number. -/
def infinity (f : Format) : Nat :=
  f.specialExponent * twoPow f.fractionBits

/-- The fraction bit that marks a quiet NaN. -/
def quietBit (f : Format) : Nat :=
  twoPow (f.fractionBits - 1)

end Format

/-- A floating-point number of the format `f`. -/
structure Binary (f : Format) where
  bits : BitVec f.width
deriving DecidableEq

/-- A 32-bit floating-point number. -/
abbrev Single := Binary .single

/-- A 64-bit floating-point number. -/
abbrev Double := Binary .double

/-- What a pattern stands for. A finite number is a multiple of the least positive number of its format. -/
inductive Datum where
  | nan
  | infinite (negative : Bool)
  | finite (negative : Bool) (units : Nat)
deriving DecidableEq

namespace Binary

variable {f : Format}

/-- The number with the given sign and with the other fields packed in `magnitude`. -/
def pack (f : Format) (negative : Bool) (magnitude : Nat) : Binary f :=
  ⟨BitVec.ofNat f.width ((if negative then twoPow (f.width - 1) else 0) + magnitude)⟩

/-- The sign field. -/
def negative (x : Binary f) : Bool :=
  x.bits.msb

/-- The exponent field. -/
def exponent (x : Binary f) : Nat :=
  x.bits.toNat / twoPow f.fractionBits % twoPow f.exponentBits

/-- The fraction field. -/
def fraction (x : Binary f) : Nat :=
  x.bits.toNat % twoPow f.fractionBits

/-- Whether the pattern is a NaN. -/
def isNaN (x : Binary f) : Bool :=
  x.exponent == f.specialExponent && x.fraction != 0

/-- The significand with its leading bit, which only subnormal numbers lack. -/
def significand (x : Binary f) : Nat :=
  if x.exponent = 0 then x.fraction else twoPow f.fractionBits + x.fraction

/-- The magnitude in units of the least positive number. An infinity stands above every finite number. -/
def units (x : Binary f) : Nat :=
  x.significand * twoPow (x.exponent - 1)

/-- What the pattern stands for. -/
def datum (x : Binary f) : Datum :=
  if x.exponent = f.specialExponent then
    if x.fraction = 0 then .infinite x.negative else .nan
  else .finite x.negative x.units

/-- Whether the number is a zero of either sign. -/
def isZero (x : Binary f) : Bool :=
  x.exponent == 0 && x.fraction == 0

end Binary

end PredicateLift
