import PredicateLift.Binary.Rounding
import PredicateLift.Json.Reader
import PredicateLift.Text.Quoted

/-!
# Numbers in documents

Documents carry 64-bit integers and floating-point numbers in one of two styles. The plain style writes them as
numbers, so NaNs and infinities are lost. The exact style writes integers as decimal text and floating-point numbers
by their bit patterns; only a NaN is written without its pattern.
-/

namespace PredicateLift

/-- How long integers and floating-point numbers are written and read. -/
structure NumberStyle where
  long : Int64 → Json
  float : Single → Json
  double : Double → Json
  long? : Json → Option Int64
  float? : Json → Option Single
  double? : Json → Option Double

namespace NumberStyle

/-! ## Plain numbers -/

/-- A finite number; anything else is null. -/
def finite (x : Double) : Json :=
  if x.exponent = Format.double.specialExponent then .null else .number x

/-- A number as the nearest floating-point number of a format. -/
def nearest? (f : Format) : Json → Option (Binary f)
  | .integer n => some (.ofInt f n)
  | .number x => some (x.convert f)
  | _ => none

/-- The style that writes every number as a number. -/
def plain : NumberStyle where
  long v := .integer v.toInt
  float x := finite (x.convert .double)
  double := finite
  long? := Json.int64?
  float? := nearest? .single
  double? := nearest? .double

/-! ## Exact numbers -/

/-- The bit pattern of a number, in base sixteen at full width. -/
def pattern {f : Format} (x : Binary f) : Json :=
  if x.isNaN then .string "nan"
  else
    let digits := Text.hexDigits x.bits.toNat
    .string (String.ofList (List.replicate (f.width / 4 - digits.length) '0' ++ digits))

/-- The number with a bit pattern. -/
def ofPattern? (f : Format) (j : Json) : Option (Binary f) := do
  let digits := (← j.string?).toList
  if digits.length = f.width / 4 then return ⟨BitVec.ofNat f.width (← Json.Reader.hexNumber? digits)⟩ else none

/-- A 64-bit integer written as text. -/
def ofDecimal? (j : Json) : Option Int64 := do
  match (← j.string?).toList with
  | '-' :: digits => bounded (-(← natural? digits : Int))
  | digits => bounded (← natural? digits)
where
  /-- The value of a text of digits. -/
  natural? (digits : List Char) : Option Nat :=
    if digits.isEmpty || !digits.all Char.isDigit then none else some (Json.Reader.digitsValue digits)
  /-- An integer that fits 64 bits. -/
  bounded (n : Int) : Option Int64 :=
    (Json.integer n).int64?

/-- The style that keeps bit patterns. -/
def exact : NumberStyle where
  long v := .string (toString v.toInt)
  float := pattern
  double := pattern
  long? := ofDecimal?
  float? := ofPattern? .single
  double? := ofPattern? .double

end NumberStyle

end PredicateLift
