/-!
# Tables of code points

A character property is kept as a list of inclusive ranges in increasing order, so that a lookup can stop at the
first range beyond the character.
-/

namespace PredicateLift.Text

/-- Inclusive ranges of code points, in increasing order. -/
abbrev Ranges := List (Nat × Nat)

/-- Whether a code point lies in one of the ranges. -/
def Ranges.covers : Ranges → Nat → Bool
  | [], _ => false
  | (low, high) :: rest, c => if c < low then false else decide (c ≤ high) || covers rest c

end PredicateLift.Text
