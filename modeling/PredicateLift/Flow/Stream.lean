import PredicateLift.Code.Instruction

/-!
# Instruction streams

A stream is a list of instructions in which control only goes forward and always ends in a return. Every instruction
has a merge point: the first later place that control reaches whatever way it goes. The end of the list stands for
the place after a return.
-/

namespace PredicateLift

namespace Stream

/-! ## Where control goes -/

/-- The place of the instruction at an offset. -/
def indexOf? (code : List Instruction) (target : Offset) : Option Nat :=
  code.findIdx? (·.offset == target)

/-- The place of the instruction at an offset to which another instruction goes. -/
def indexOf (code : List Instruction) (source target : Offset) : Except Fault Nat :=
  match indexOf? code target with
  | some i => .ok i
  | none => .error (.located source (.missingTarget target))

/-- The place after the instruction `instruction` at place `i`. -/
def following (code : List Instruction) (i : Nat) (instruction : Instruction) : Except Fault Nat :=
  if i + 1 < code.length then .ok (i + 1) else .error (.located instruction.offset .pastTheEnd)

/-- The place to which an instruction branches; it has to be a later one. -/
def branchIndex (code : List Instruction) (instruction : Instruction) (target : Offset) : Except Fault Nat :=
  if target ≤ instruction.offset then .error (.located instruction.offset (.backwardBranch target))
  else indexOf code instruction.offset target

/-- The places to which control may go from the instruction at place `i`. -/
def successorsOf (code : List Instruction) (i : Nat) (instruction : Instruction) : Except Fault (List Nat) :=
  match instruction.op with
  | .ret _ => .ok [code.length]
  | .jump target => do return [← branchIndex code instruction target]
  | .branch _ target => do
    let next ← following code i instruction
    let taken ← branchIndex code instruction target
    return [next, taken]
  | _ => do return [← following code i instruction]

/-- The places to which control may go from place `i`; none from the end. -/
def successors (code : List Instruction) (i : Nat) : Except Fault (List Nat) :=
  match code[i]? with
  | some instruction => successorsOf code i instruction
  | none => .ok []

/-! ## Merge points -/

/-- The first place that two places have in common on their ways through the merge points, in at most `steps`
steps. -/
def meet (merge : Nat → Nat) : (steps : Nat) → Nat → Nat → Nat
  | 0, a, _ => a
  | steps + 1, a, b =>
    if a = b then a
    else if a < b then meet merge steps (merge a) b
    else meet merge steps a (merge b)

/-- The merge points of the last `count` instructions and of the end, in order. The merge point of an instruction
is where the ways through the merge points of its successors meet. -/
def mergesOfLast (code : List Instruction) : (count : Nat) → Except Fault (List Nat)
  | 0 => .ok [code.length]
  | count + 1 => do
    let later ← mergesOfLast code count
    let i := code.length - (count + 1)
    let merge (j : Nat) : Nat := later.getD (j - (i + 1)) code.length
    match ← successors code i with
    | [] => return code.length :: later
    | next :: others => return others.foldl (meet merge (2 * (count + 1))) next :: later

/-- The first offset that does not follow the one before it. -/
def disorder? : List Instruction → Option Fault
  | a :: b :: rest =>
    if b.offset ≤ a.offset then some (.located b.offset (.offsetOrder b.offset a.offset))
    else disorder? (b :: rest)
  | _ => none

end Stream

/-- A list of instructions with its merge points. -/
structure Stream where
  code : List Instruction
  merges : List Nat

namespace Stream

/-- The stream of a list of instructions. Offsets have to increase, control has to go forward, and it may not leave
the list except by a return. -/
def ofList (code : List Instruction) : Except Fault Stream :=
  match disorder? code with
  | some fault => .error fault
  | none => do return ⟨code, ← mergesOfLast code code.length⟩

/-- The number of instructions. -/
def size (stream : Stream) : Nat :=
  stream.code.length

/-- The place where the ways from place `i` meet again. -/
def mergePoint? (stream : Stream) (i : Nat) : Option Nat :=
  stream.merges[i]?

end Stream

end PredicateLift
