import PredicateLift.Binary.Basic
import PredicateLift.Code.Member

/-!
# Constant pools

The constants that a body refers to by index. The first constant has index one.
-/

namespace PredicateLift

/-- An entry of a constant pool. -/
inductive Constant where
  | integer (value : Int32)
  | float (value : Single)
  | long (value : Int64)
  | double (value : Double)
  | string (value : String)
  | classRef (name : String)
  | fieldRef (member : Member)
  | methodRef (member : Member)
  | interfaceMethodRef (member : Member)
deriving DecidableEq

/-- A table of constants. -/
structure Pool where
  entries : Array Constant := #[]
deriving DecidableEq

namespace Pool

/-- The number of constants. -/
def size (pool : Pool) : Nat :=
  pool.entries.size

/-- Adds a constant at the end, and gives its index. An index has sixteen bits. -/
def push (pool : Pool) (constant : Constant) : Pool × UInt16 :=
  let entries := pool.entries.push constant
  (⟨entries⟩, UInt16.ofNat entries.size)

/-- The constant at an index. -/
def get? (pool : Pool) (index : UInt16) : Option Constant :=
  match index.toNat with
  | 0 => none
  | i + 1 => pool.entries[i]?

/-- The field reference at an index. -/
def fieldRef? (pool : Pool) (index : UInt16) : Option Member :=
  match pool.get? index with
  | some (.fieldRef member) => some member
  | _ => none

/-- The reference to a method of a class or an interface at an index. -/
def methodRef? (pool : Pool) (index : UInt16) : Option Member :=
  match pool.get? index with
  | some (.methodRef member) => some member
  | some (.interfaceMethodRef member) => some member
  | _ => none

/-- The class name at an index. -/
def className? (pool : Pool) (index : UInt16) : Option String :=
  match pool.get? index with
  | some (.classRef name) => some name
  | _ => none

end Pool

end PredicateLift
