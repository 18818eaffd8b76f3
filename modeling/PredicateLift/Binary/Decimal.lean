import PredicateLift.Binary.Basic

/-!
# Decimal text of floating-point numbers

A finite number is written with the fewest decimal digits that read back as the same number; of two candidates with
equally many digits the nearer is taken, and the larger on a tie. The digits are found in exact arithmetic: a number
of `u` units is `u * 5 ^ scale` over a power of ten, so the decimal grids are grids of natural numbers.
-/

namespace PredicateLift

/-- The number `coefficient * 10 ^ exponent`. -/
structure Decimal where
  coefficient : Nat
  exponent : Int
deriving DecidableEq

/-- The numbers between `low` and `high` around `value`; the ends belong to it if `closed`. -/
structure Span where
  low : Nat
  value : Nat
  high : Nat
  closed : Bool

namespace Span

/-- Whether a point lies in the span. -/
def contains (s : Span) (n : Nat) : Bool :=
  if s.closed then decide (s.low ≤ n) && decide (n ≤ s.high) else decide (s.low < n) && decide (n < s.high)

/-- The multiple of `step` in the span that is nearest to the value, the larger on a tie. -/
def nearestMultiple? (s : Span) (step : Nat) : Option Nat :=
  let below := s.value / step
  let above := below + 1
  match s.contains (below * step), s.contains (above * step) with
  | true, true => some (if s.value - below * step < above * step - s.value then below else above)
  | true, false => some below
  | false, true => some above
  | false, false => none

/-- The coarsest grid of steps `unit * 10 ^ n`, with `n` at most the given bound, that has a point in the span, and
the point of it that is nearest to the value. -/
def coarsest (s : Span) (unit : Nat) : Nat → Nat × Nat
  | 0 => (s.value / unit, 0)
  | n + 1 => match s.nearestMultiple? (unit * Nat.pow 10 (n + 1)) with
    | some m => (m, n + 1)
    | none => s.coarsest unit n

end Span

/-- The decimal digits of a number. -/
def decimalDigits (n : Nat) : List Char :=
  Nat.toDigits 10 n

namespace Binary

variable {f : Format}

/-- The reals that round to the number, in quarters of `10 ^ (-scale)`. The gap below a power of two is half the gap
above it. -/
def span (x : Binary f) : Span :=
  let gap := twoPow (x.exponent - 1)
  let below := if x.fraction = 0 ∧ 1 < x.exponent then gap else 2 * gap
  let unit := Nat.pow 5 f.scale
  { low := (4 * x.units - below) * unit
    value := 4 * x.units * unit
    high := (4 * x.units + 2 * gap) * unit
    closed := x.significand % 2 == 0 }

/-- The magnitude of a finite number with the fewest digits that read back as it. -/
def shortest (x : Binary f) : Decimal :=
  let length := (decimalDigits (x.units * Nat.pow 5 f.scale)).length
  let (coefficient, power) := x.span.coarsest 4 length
  ⟨coefficient, power - f.scale⟩

end Binary

namespace Decimal

/-- The digits of a decimal without trailing zeros, and the power of ten of the first. -/
def scientific (d : Decimal) : List Char × Int :=
  let digits := decimalDigits d.coefficient
  ((digits.reverse.dropWhile (· == '0')).reverse, d.exponent + digits.length - 1)

/-- The least and the greatest power of ten of a first digit that is written without an exponent. -/
def positionalRange : Int × Int := (-4, 15)

/-- Digits in positional form, with at least one digit on each side of the point. -/
def positional (digits : List Char) (power : Int) : List Char :=
  if power < 0 then
    ['0', '.'] ++ List.replicate (-power - 1).toNat '0' ++ digits
  else
    let whole := power.toNat + 1
    let fraction := digits.drop whole
    digits.take whole ++ List.replicate (whole - digits.length) '0' ++ ['.'] ++
      (if fraction.isEmpty then ['0'] else fraction)

/-- Digits with one of them before the point, and an exponent. -/
def exponential (digits : List Char) (power : Int) : List Char :=
  let fraction := digits.drop 1
  digits.take 1 ++ (if fraction.isEmpty then [] else '.' :: fraction) ++ 'e' :: (toString power).toList

/-- The text of a decimal other than zero. -/
def text (d : Decimal) : List Char :=
  let (digits, power) := d.scientific
  if positionalRange.1 ≤ power ∧ power ≤ positionalRange.2 then positional digits power
  else exponential digits power

end Decimal

/-- The text of a floating-point number. -/
def Binary.text {f : Format} (x : Binary f) : String :=
  let sign := if x.negative then ['-'] else []
  match x.datum with
  | .nan => "NaN"
  | .infinite _ => String.ofList (sign ++ ['i', 'n', 'f'])
  | .finite _ units =>
    String.ofList (sign ++ if units = 0 then ['0', '.', '0'] else x.shortest.text)

end PredicateLift
