import PredicateLift.Binary.Arith
import PredicateLift.Json.Basic

/-!
# Reading documents

A reader takes what it needs from the front of a text and gives the rest. A whole number that fits 64 bits is kept as
it is. Any other number is read as the digits that fit 64 bits, rounded, and then scaled by powers of ten.
-/

namespace PredicateLift.Json.Reader

/-- The text after leading blanks. -/
def skipBlanks (cs : List Char) : List Char :=
  cs.dropWhile fun c => c == ' ' || c == '\t' || c == '\n' || c == '\r'

/-! ## Strings -/

/-- The value of a digit in base sixteen. -/
def hexValue? (c : Char) : Option Nat :=
  if '0' ≤ c ∧ c ≤ '9' then some (c.toNat - '0'.toNat)
  else if 'a' ≤ c ∧ c ≤ 'f' then some (c.toNat - 'a'.toNat + 10)
  else if 'A' ≤ c ∧ c ≤ 'F' then some (c.toNat - 'A'.toNat + 10)
  else none

/-- The value of digits in base sixteen. -/
def hexNumber? (cs : List Char) : Option Nat :=
  cs.foldlM (fun n c => (hexValue? c).map (16 * n + ·)) 0

/-- The character with a code point outside the range of surrogates. -/
def character? (n : Nat) : Option Char :=
  if n.isValidChar then some (Char.ofNat n) else none

/-- The character that two surrogates stand for. -/
def surrogatePair? (high low : Nat) : Option Char :=
  if 0xd800 ≤ high ∧ high < 0xdc00 ∧ 0xdc00 ≤ low ∧ low < 0xe000 then
    character? (0x10000 + (high - 0xd800) * 0x400 + (low - 0xdc00))
  else none

/-- The character of an escape by one letter. -/
def escaped? : Char → Option Char
  | '"' => some '"'
  | '\\' => some '\\'
  | '/' => some '/'
  | 'b' => some '\x08'
  | 'f' => some '\x0c'
  | 'n' => some '\n'
  | 'r' => some '\r'
  | 't' => some '\t'
  | _ => none

/-- The characters up to the closing quote, after those already read, in reverse, and after a high surrogate that
still waits for its partner. -/
def stringTail? (waiting : Option Nat) (read : List Char) : List Char → Option (String × List Char)
  | '"' :: rest => if waiting.isNone then some (String.ofList read.reverse, rest) else none
  | '\\' :: 'u' :: a :: b :: c :: d :: rest => do
    let n ← hexNumber? [a, b, c, d]
    match waiting with
    | some high => stringTail? none ((← surrogatePair? high n) :: read) rest
    | none => match character? n with
      | some char => stringTail? none (char :: read) rest
      | none => stringTail? (some n) read rest
  | '\\' :: c :: rest => do
    if waiting.isSome then none else stringTail? none ((← escaped? c) :: read) rest
  | c :: rest => if waiting.isSome ∨ c < ' ' then none else stringTail? none (c :: read) rest
  | [] => none

/-! ## Numbers -/

/-- The value of decimal digits. -/
def digitsValue (digits : List Char) : Nat :=
  digits.foldl (fun n c => 10 * n + (c.toNat - '0'.toNat)) 0

/-- The largest powers of ten that a double can be scaled by at once. -/
def largestPower : Nat := 308

/-- A power of ten as a double. -/
def powerOfTen (n : Nat) : Double :=
  .round .double false (Nat.pow 10 n * twoPow Format.double.scale) 1

/-- A double times a power of ten, if that is finite. The power is divided or multiplied by in steps of at most the
largest power, the number of which is bounded by `steps`. -/
def scaled? (x : Double) (exponent : Int) : (steps : Nat) → Option Double
  | 0 => some x
  | steps + 1 =>
    if exponent.natAbs ≤ largestPower then
      if 0 ≤ exponent then
        let y := x.mul (powerOfTen exponent.natAbs)
        if y.exponent = Format.double.specialExponent then none else some y
      else some (x.div (powerOfTen exponent.natAbs))
    else if x.isZero then some x
    else if 0 ≤ exponent then none
    else scaled? (x.div (powerOfTen largestPower)) (exponent + largestPower) steps

/-- The leading digits whose value fits 64 bits, and the number of the others. -/
def significantDigits (digits : List Char) : Nat × Nat :=
  let rec take (n : Nat) : List Char → Nat × Nat
    | [] => (n, 0)
    | c :: rest =>
      let next := 10 * n + (c.toNat - '0'.toNat)
      if next < twoPow 64 then take next rest else (n, rest.length + 1)
  take 0 digits

/-- The number with the given whole, fractional and exponent parts. -/
def decimal? (negative : Bool) (whole fraction : List Char) (exponent : Int) : Option Json := do
  let (significand, dropped) := significantDigits (whole ++ fraction)
  let x := Binary.ofInt .double significand
  let power := exponent - fraction.length + dropped
  let y ← scaled? x power (power.natAbs / largestPower + 2)
  return .number (if negative then y.neg else y)

/-- A whole number, kept as it is if it fits 64 bits. -/
def whole? (negative : Bool) (digits : List Char) : Option Json :=
  let n := digitsValue digits
  if negative then
    if 0 < n ∧ n ≤ twoPow 63 then some (.integer (-n)) else decimal? true digits [] 0
  else if n < twoPow 64 then some (.integer n) else decimal? false digits [] 0

/-- The digits at the front of a text, and the rest. -/
def digits (cs : List Char) : List Char × List Char :=
  (cs.takeWhile Char.isDigit, cs.dropWhile Char.isDigit)

/-- The sign and the digits of an exponent. -/
def exponent? (cs : List Char) : Option (Int × List Char) :=
  let (negative, cs) := match cs with
    | '+' :: rest => (false, rest)
    | '-' :: rest => (true, rest)
    | _ => (false, cs)
  match digits cs with
  | ([], _) => none
  | (ds, rest) => some (if negative then -(digitsValue ds : Int) else digitsValue ds, rest)

/-- A number, after its sign. -/
def unsigned? (negative : Bool) (cs : List Char) : Option (Json × List Char) := do
  let (whole, rest) := digits cs
  match whole with
  | [] => none
  | '0' :: _ :: _ => none
  | _ =>
    let (fraction?, rest) ← match rest with
      | '.' :: rest => match digits rest with
        | ([], _) => none
        | (ds, rest) => some (some ds, rest)
      | _ => some (none, rest)
    let (exponent, rest) ← match rest with
      | 'e' :: rest => (exponent? rest).map fun (n, rest) => (some n, rest)
      | 'E' :: rest => (exponent? rest).map fun (n, rest) => (some n, rest)
      | _ => some (none, rest)
    match fraction?, exponent with
    | none, none => (whole? negative whole).map (·, rest)
    | _, _ => (decimal? negative whole (fraction?.getD []) (exponent.getD 0)).map (·, rest)

/-! ## Documents -/

mutual

/-- A document at the front of a text, nested at most as deeply as the bound. -/
def value? : (bound : Nat) → List Char → Option (Json × List Char)
  | 0, _ => none
  | bound + 1, cs => match skipBlanks cs with
    | 'n' :: 'u' :: 'l' :: 'l' :: rest => some (.null, rest)
    | 't' :: 'r' :: 'u' :: 'e' :: rest => some (.bool true, rest)
    | 'f' :: 'a' :: 'l' :: 's' :: 'e' :: rest => some (.bool false, rest)
    | '"' :: rest => (stringTail? none [] rest).map fun (s, rest) => (.string s, rest)
    | '[' :: rest => match skipBlanks rest with
      | ']' :: rest => some (.array [], rest)
      | _ => (items? bound rest).map fun (items, rest) => (.array items, rest)
    | '\x7b' :: rest => match skipBlanks rest with
      | '\x7d' :: rest => some (.object [], rest)
      | _ => (members? bound rest).map fun (members, rest) => (.ofMembers members, rest)
    | '-' :: rest => unsigned? true rest
    | rest => unsigned? false rest

/-- The items of an array up to its closing bracket. -/
def items? : (bound : Nat) → List Char → Option (List Json × List Char)
  | 0, _ => none
  | bound + 1, cs => do
    let (item, rest) ← value? bound cs
    match skipBlanks rest with
    | ',' :: rest =>
      let (items, rest) ← items? bound rest
      return (item :: items, rest)
    | ']' :: rest => return ([item], rest)
    | _ => none

/-- The members of an object up to its closing brace. -/
def members? : (bound : Nat) → List Char → Option (List (String × Json) × List Char)
  | 0, _ => none
  | bound + 1, cs => do
    match skipBlanks cs with
    | '"' :: rest =>
      let (name, rest) ← stringTail? none [] rest
      match skipBlanks rest with
      | ':' :: rest =>
        let (value, rest) ← value? bound rest
        match skipBlanks rest with
        | ',' :: rest =>
          let (members, rest) ← members? bound rest
          return ((name, value) :: members, rest)
        | '\x7d' :: rest => return ([(name, value)], rest)
        | _ => none
      | _ => none
    | _ => none

end

end PredicateLift.Json.Reader

namespace PredicateLift

/-- The document that a text holds. -/
def Json.parse? (text : String) : Option Json :=
  let cs := text.toList
  match Json.Reader.value? (cs.length + 1) cs with
  | some (j, rest) => if (Json.Reader.skipBlanks rest).isEmpty then some j else none
  | none => none

end PredicateLift
