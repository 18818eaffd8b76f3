import PredicateLift.Binary.Rounding
import PredicateLift.Code.Instruction
import PredicateLift.Code.Intrinsic
import PredicateLift.Code.Pool

/-!
# Decoding of bodies

A body is a sequence of bytes. Each instruction is an opcode followed by its operands, most significant byte first;
indices refer to the constant pool and branches are relative to the instruction. `decode` reads a body from front to
back and stops at the first instruction that it does not know or that is not complete.
-/

namespace PredicateLift

namespace Decoding

/-- An operation and the number of operand bytes that it takes. -/
structure Decoded where
  op : Operation
  operandBytes : Nat := 0
deriving DecidableEq

/-! ## Operands -/

/-- One operand byte. -/
def byte : List UInt8 → Except Cause UInt8
  | b :: _ => .ok b
  | [] => .error .truncatedOperands

/-- An operand of two bytes. -/
def word : List UInt8 → Except Cause UInt16
  | high :: low :: _ => .ok (high.toUInt16 <<< 8 ||| low.toUInt16)
  | _ => .error .truncatedOperands

/-- An operand of four bytes. -/
def doubleWord (operands : List UInt8) : Except Cause UInt32 := do
  let high ← word operands
  let low ← word (operands.drop 2)
  .ok (high.toUInt32 <<< 16 ||| low.toUInt32)

/-- The offset at a distance from an instruction. -/
def relative (offset : Offset) (distance : Int) : Except Cause Offset :=
  let target := offset.toNat + distance
  if 0 ≤ target ∧ target < 0x100000000 then .ok (UInt32.ofNat target.toNat)
  else .error (.targetOutsideBody target)

/-- The target of a branch with an operand of two bytes. -/
def branchTarget (offset : Offset) (operands : List UInt8) : Except Cause Offset := do
  relative offset (← word operands).toInt16.toInt

/-! ## Families of opcodes -/

/-- The numeric kinds in the order of the opcodes. -/
def numericKind : Nat → NumericKind
  | 0 => .int
  | 1 => .long
  | 2 => .float
  | _ => .double

/-- The kind of a local variable by the group of its opcode. -/
def localKind : Nat → Kind
  | 0 => .int
  | 1 => .long
  | 2 => .float
  | 3 => .double
  | _ => .unknown

/-- The binary operators in the order of the opcodes. -/
def operator : Nat → BinaryOperator
  | 0 => .add
  | 1 => .sub
  | 2 => .mul
  | 3 => .div
  | _ => .rem

/-- The comparisons in the order of the opcodes. -/
def comparison : Nat → Comparison
  | 0 => .eq
  | 1 => .ne
  | 2 => .lt
  | 3 => .ge
  | 4 => .gt
  | _ => .le

/-- The element kind of an array access in the order of the opcodes. -/
def elementKind : Nat → Kind
  | 1 => .long
  | 2 => .float
  | 3 => .double
  | 4 => .unknown
  | _ => .int

/-- The kinds that a number of the given kind converts to, in the order of the opcodes. -/
def conversions (source : NumericKind) : List NumericKind :=
  [NumericKind.int, .long, .float, .double].filter (· != source)

/-- The conversion at a place in the order of the opcodes: three for each kind. -/
def conversion (n : Nat) : Operation :=
  let source := numericKind (n / 3)
  .convert source ((conversions source).getD (n % 3) source)

/-- The operation of an opcode that takes no operands. -/
def plain? (opcode : Nat) : Option Operation :=
  if opcode = 0x00 then some .nop
  else if opcode = 0x01 then some (.push .null)
  else if opcode ≤ 0x08 then some (.push (.int (Int32.ofInt (opcode - 3))))
  else if opcode ≤ 0x0a then some (.push (.long (Int64.ofNat (opcode - 0x09))))
  else if opcode ≤ 0x0d then some (.push (.float (.ofInt .single (opcode - 0x0b))))
  else if opcode ≤ 0x0f then some (.push (.double (.ofInt .double (opcode - 0x0e))))
  else if opcode < 0x1a then none
  else if opcode ≤ 0x2d then
    some (.load (UInt16.ofNat ((opcode - 0x1a) % 4)) (localKind ((opcode - 0x1a) / 4)))
  else if opcode ≤ 0x35 then some (.arrayLoad (elementKind (opcode - 0x2e)))
  else if opcode < 0x3b then none
  else if opcode ≤ 0x4e then
    some (.store (UInt16.ofNat ((opcode - 0x3b) % 4)) (localKind ((opcode - 0x3b) / 4)))
  else if opcode = 0x57 then some .pop
  else if opcode = 0x59 then some .dup
  else if opcode < 0x60 then none
  else if opcode ≤ 0x73 then
    some (.arith (operator ((opcode - 0x60) / 4)) (numericKind ((opcode - 0x60) % 4)))
  else if opcode ≤ 0x77 then some (.negate (numericKind (opcode - 0x74)))
  else if opcode < 0x85 then none
  else if opcode ≤ 0x90 then some (conversion (opcode - 0x85))
  else match opcode with
    | 0x94 => some (.compareThreeWay .long .ordered)
    | 0x95 => some (.compareThreeWay .float .less)
    | 0x96 => some (.compareThreeWay .float .greater)
    | 0x97 => some (.compareThreeWay .double .less)
    | 0x98 => some (.compareThreeWay .double .greater)
    | 0xac => some (.ret (some .int))
    | 0xad => some (.ret (some .long))
    | 0xae => some (.ret (some .float))
    | 0xaf => some (.ret (some .double))
    | 0xb0 => some (.ret (some .unknown))
    | 0xb1 => some (.ret none)
    | 0xbe => some .arrayLength
    | _ => none

/-- The condition of a branch opcode. -/
def condition? (opcode : Nat) : Option Condition :=
  if opcode < 0x99 then none
  else if opcode ≤ 0x9e then some (.zero (comparison (opcode - 0x99)))
  else if opcode ≤ 0xa4 then some (.ints (comparison (opcode - 0x9f)))
  else if opcode ≤ 0xa6 then some (.refs (comparison (opcode - 0xa5)))
  else if opcode = 0xc6 then some .null
  else if opcode = 0xc7 then some .nonNull
  else none

/-! ## Operands that refer to the constant pool -/

/-- The operation that loads a constant, by an opcode for constants of two words or of one. -/
def loadConstant (pool : Pool) (wide : Bool) (index : UInt16) : Except Cause Operation :=
  let narrow (op : Except Cause Operation) := if wide then .error (.constantWidth index wide) else op
  let broad (op : Except Cause Operation) := if wide then op else .error (.constantWidth index wide)
  match pool.get? index with
  | some (.integer value) => narrow (.ok (.push (.int value)))
  | some (.float value) => narrow (.ok (.push (.float value)))
  | some (.long value) => broad (.ok (.push (.long value)))
  | some (.double value) => broad (.ok (.push (.double value)))
  | some (.string value) => narrow (.ok (.push (.str value)))
  | some (.classRef name) => narrow (.error (.classLiteral name))
  | some _ => narrow (.error (.notLoadable index))
  | none => .error (.notLoadable index)

/-- The field at an index. -/
def fieldAt (pool : Pool) (index : UInt16) : Except Cause Member :=
  match pool.fieldRef? index with
  | some field => .ok field
  | none => .error (.notFieldReference index)

/-- The class at an index. -/
def classAt (pool : Pool) (index : UInt16) : Except Cause String :=
  match pool.className? index with
  | some name => .ok name
  | none => .error (.notClass index)

/-- The call of the method at an index. A static call that boxes and any other call that unboxes have operations of
their own. -/
def invocation (pool : Pool) (registry : Registry) (dispatch : Dispatch) (index : UInt16) :
    Except Cause Operation :=
  match pool.methodRef? index with
  | none => .error (.notMethodReference index)
  | some method => .ok (match registry.get? method, dispatch with
    | some (.box kind), .static => .box kind
    | some (.unbox _), .static => .invoke dispatch method
    | some (.unbox kind), _ => .unbox kind
    | _, _ => .invoke dispatch method)

/-! ## Instructions -/

/-- The operation of an opcode with operands. -/
def withOperands (pool : Pool) (registry : Registry) (offset : Offset) (opcode : UInt8) (operands : List UInt8) :
    Except Cause Decoded := do
  match opcode.toNat with
  | 0x10 => return ⟨.push (.int (← byte operands).toInt8.toInt32), 1⟩
  | 0x11 => return ⟨.push (.int (← word operands).toInt16.toInt32), 2⟩
  | 0x12 => return ⟨← loadConstant pool false (← byte operands).toUInt16, 1⟩
  | 0x13 => return ⟨← loadConstant pool false (← word operands), 2⟩
  | 0x14 => return ⟨← loadConstant pool true (← word operands), 2⟩
  | 0x15 => return ⟨.load (← byte operands).toUInt16 .int, 1⟩
  | 0x16 => return ⟨.load (← byte operands).toUInt16 .long, 1⟩
  | 0x17 => return ⟨.load (← byte operands).toUInt16 .float, 1⟩
  | 0x18 => return ⟨.load (← byte operands).toUInt16 .double, 1⟩
  | 0x19 => return ⟨.load (← byte operands).toUInt16 .unknown, 1⟩
  | 0x36 => return ⟨.store (← byte operands).toUInt16 .int, 1⟩
  | 0x37 => return ⟨.store (← byte operands).toUInt16 .long, 1⟩
  | 0x38 => return ⟨.store (← byte operands).toUInt16 .float, 1⟩
  | 0x39 => return ⟨.store (← byte operands).toUInt16 .double, 1⟩
  | 0x3a => return ⟨.store (← byte operands).toUInt16 .unknown, 1⟩
  | 0xa7 => return ⟨.jump (← branchTarget offset operands), 2⟩
  | 0xb2 => return ⟨.getStatic (← fieldAt pool (← word operands)), 2⟩
  | 0xb4 => return ⟨.getField (← fieldAt pool (← word operands)), 2⟩
  | 0xb6 => return ⟨← invocation pool registry .virtual (← word operands), 2⟩
  | 0xb7 => return ⟨← invocation pool registry .special (← word operands), 2⟩
  | 0xb8 => return ⟨← invocation pool registry .static (← word operands), 2⟩
  | 0xb9 =>
    let call ← invocation pool registry .interface (← word operands)
    -- An argument count and a zero byte follow the index.
    let _ ← word (operands.drop 2)
    return ⟨call, 4⟩
  | 0xc0 => return ⟨.checkCast (← classAt pool (← word operands)), 2⟩
  | 0xc8 => return ⟨.jump (← relative offset (← doubleWord operands).toInt32.toInt), 4⟩
  | _ => .error (.unknownOpcode opcode)

/-- The instruction at an offset, from its opcode and the bytes that follow it. -/
def instruction (pool : Pool) (registry : Registry) (offset : Offset) (opcode : UInt8) (operands : List UInt8) :
    Except Cause Decoded :=
  match plain? opcode.toNat, condition? opcode.toNat with
  | some op, _ => .ok ⟨op, 0⟩
  | none, some condition => do return ⟨.branch condition (← branchTarget offset operands), 2⟩
  | none, none => withOperands pool registry offset opcode operands

/-- The instructions of the bytes from a position on, after `skip` of them. -/
def instructionsFrom (pool : Pool) (registry : Registry) :
    (position skip : Nat) → List UInt8 → Except Fault (List Instruction)
  | _, _, [] => .ok []
  | position, skip + 1, _ :: rest => instructionsFrom pool registry (position + 1) skip rest
  | position, 0, opcode :: rest => do
    let offset := UInt32.ofNat position
    let decoded ← (instruction pool registry offset opcode rest).mapError (Fault.located offset)
    let later ← instructionsFrom pool registry (position + 1) decoded.operandBytes rest
    return ⟨offset, decoded.op⟩ :: later

end Decoding

/-- The instructions of a body. -/
def decode (pool : Pool) (registry : Registry) (code : List UInt8) : Except Fault (List Instruction) :=
  Decoding.instructionsFrom pool registry 0 0 code

end PredicateLift
