import PredicateLift.Binary.Basic

/-!
# Rounding to a binary format

Exact results are quotients of natural numbers, in units of the least positive number of the format. `Binary.round`
takes such a quotient to the nearest number of the format, a tie to the one with the even significand, and to
infinity beyond the largest. Conversions from integers and between formats are roundings of exact values.
-/

namespace PredicateLift

/-- The natural number nearest to `num / den`; a tie goes to the even one. -/
def roundQuotient (num den : Nat) : Nat :=
  let q := num / den
  let r := num % den
  if 2 * r < den then q
  else if den < 2 * r then q + 1
  else q + q % 2

namespace Binary

variable {f : Format}

/-- The number of the format nearest to `num / den` units, with the given sign. -/
def round (f : Format) (negative : Bool) (num den : Nat) : Binary f :=
  let shift := (num / den).log2 - f.fractionBits
  let significand := roundQuotient num (den * twoPow shift)
  pack f negative (min (shift * twoPow f.fractionBits + significand) f.infinity)

/-- A signed infinity. -/
def infinite (f : Format) (negative : Bool) : Binary f :=
  pack f negative f.infinity

/-- A signed zero. -/
def zero (f : Format) (negative : Bool) : Binary f :=
  pack f negative 0

/-- The NaN that an operation without a result gives: quiet, negative and without a payload. -/
def invalid (f : Format) : Binary f :=
  pack f true (f.infinity + f.quietBit)

/-- A NaN made quiet, with its sign and payload. -/
def quiet (x : Binary f) : Binary f :=
  pack f x.negative (f.infinity + (x.fraction ||| f.quietBit))

/-- The number of the format nearest to an integer. -/
def ofInt (f : Format) (n : Int) : Binary f :=
  round f (decide (n < 0)) (n.natAbs * twoPow f.scale) 1

/-- The number of the format `g` nearest to a number of the format `f`. A NaN keeps its sign and the leading bits of
its payload. -/
def convert (g : Format) (x : Binary f) : Binary g :=
  match x.datum with
  | .nan =>
    let payload := x.fraction * twoPow g.fractionBits / twoPow f.fractionBits
    pack g x.negative (g.infinity + (payload ||| g.quietBit))
  | .infinite negative => infinite g negative
  | .finite negative units => round g negative (units * twoPow g.scale) (twoPow f.scale)

/-- The integer part, taken to the nearer end of the interval from `low` to `high` when it lies outside; a NaN gives
zero. -/
def truncate (x : Binary f) (low high : Int) : Int :=
  match x.datum with
  | .nan => 0
  | .infinite negative => if negative then low else high
  | .finite negative units =>
    let whole := units / twoPow f.scale
    max low (min high (if negative then -whole else whole))

end Binary

end PredicateLift
