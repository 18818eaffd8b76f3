import PredicateLift.Binary.Basic
import PredicateLift.Bindings

/-!
# Documents for exchange

The values of a common text format for structured data. Whole numbers of up to 64 bits and other numbers are kept
apart.
-/

namespace PredicateLift

/-- A structured document. The members of an object are listed by name in increasing order. -/
inductive Json where
  | null
  | bool (value : Bool)
  | integer (value : Int)
  | number (value : Double)
  | string (value : String)
  | array (items : List Json)
  | object (members : List (String × Json))

namespace Json

/-- An object with the given members. -/
def ofMembers (members : List (String × Json)) : Json :=
  .object (Bindings.ofList members)

/-- A natural number. -/
def ofNat (n : Nat) : Json :=
  .integer n

/-- The content, or null if there is none. -/
def ofOption {α : Type} (encode : α → Json) : Option α → Json
  | some a => encode a
  | none => .null

/-- A list. -/
def ofList {α : Type} (encode : α → Json) (as : List α) : Json :=
  .array (as.map encode)

mutual

/-- How deeply a document is nested. -/
def depth : Json → Nat
  | array items => 1 + itemsDepth items
  | object members => 1 + membersDepth members
  | _ => 0

/-- How deeply the items of an array are nested. -/
def itemsDepth : List Json → Nat
  | [] => 0
  | item :: items => max item.depth (itemsDepth items)

/-- How deeply the members of an object are nested. -/
def membersDepth : List (String × Json) → Nat
  | [] => 0
  | (_, value) :: members => max value.depth (membersDepth members)

end

/-! ## Reading scalars -/

/-- A truth value. -/
def bool? : Json → Option Bool
  | bool value => some value
  | _ => none

/-- A text. -/
def string? : Json → Option String
  | string value => some value
  | _ => none

/-- A whole number between two bounds. -/
def between? (low high : Int) : Json → Option Int
  | integer n => if low ≤ n ∧ n ≤ high then some n else none
  | _ => none

/-- A natural number of at most 64 bits. -/
def nat? (j : Json) : Option Nat :=
  (j.between? 0 0xffffffffffffffff).map Int.toNat

/-- A natural number of at most 16 bits. -/
def uint16? (j : Json) : Option UInt16 :=
  (j.between? 0 0xffff).map fun n => UInt16.ofNat n.toNat

/-- A natural number of at most 32 bits. -/
def uint32? (j : Json) : Option UInt32 :=
  (j.between? 0 0xffffffff).map fun n => UInt32.ofNat n.toNat

/-- A signed number of at most 32 bits. -/
def int32? (j : Json) : Option Int32 :=
  (j.between? Int32.minValue.toInt Int32.maxValue.toInt).map Int32.ofInt

/-- A signed number of at most 64 bits. -/
def int64? (j : Json) : Option Int64 :=
  (j.between? Int64.minValue.toInt Int64.maxValue.toInt).map Int64.ofInt

/-! ## Reading structures -/

/-- The items of an array. -/
def items? : Json → Option (List Json)
  | array items => some items
  | _ => none

/-- The members of an object. -/
def members? : Json → Option (List (String × Json))
  | object members => some members
  | _ => none

/-- The member of an object with the given name. -/
def member? (name : String) : Json → Option Json
  | object members => members.lookup name
  | _ => none

/-- The items of an array, each read by `decode`. -/
def list? {α : Type} (decode : Json → Option α) (j : Json) : Option (List α) := do
  (← j.items?).mapM decode

/-- Null as nothing, and anything else as read by `decode`. -/
def option? {α : Type} (decode : Json → Option α) : Json → Option (Option α)
  | null => some none
  | j => (decode j).map some

/-- The name of a variant, and its content if it has one: a text, or an object with a single member. -/
def variant? : Json → Option (String × Option Json)
  | string tag => some (tag, none)
  | object [(tag, content)] => some (tag, some content)
  | _ => none

/-- The name of a variant without content. -/
def unit? (j : Json) : Option String :=
  match j.variant? with
  | some (tag, none) => some tag
  | some (tag, some null) => some tag
  | _ => none

/-- The members of an object in the order of the given names, with null for one that is left out. The fields of a
variant are written only so. -/
def fields? (names : List String) : Json → Option (List Json)
  | object members => some (names.map fun name => (members.lookup name).getD .null)
  | _ => none

/-- The fields of a record in the given order: by name as in an object, or by position in an array. -/
def record? (names : List String) : Json → Option (List Json)
  | array items => if items.length = names.length then some items else none
  | j => j.fields? names

/-- A variant with the given content. -/
def tagged (tag : String) (content : Json) : Json :=
  .object [(tag, content)]

end Json

end PredicateLift
