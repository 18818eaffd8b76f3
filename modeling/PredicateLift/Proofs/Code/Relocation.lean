import PredicateLift.Proofs.Code.Tiling

/-!
# Code at another place

What an instruction is depends on its offset only through the target of a branch, which lies at a fixed distance from the
instruction. So code that is moved decodes to the same instructions, with offsets and targets moved along. The main
statement is that decoding one piece of code after another gives the instructions of the first, followed by those of the
second moved by the length of the first.
-/

namespace PredicateLift

/-- The operation with its target moved on. -/
def Operation.shift (distance : Offset) : Operation → Operation
  | .branch condition target => .branch condition (target + distance)
  | .jump target => .jump (target + distance)
  | op => op

/-- The instruction moved on, together with its target. -/
def Instruction.shift (distance : Offset) (instruction : Instruction) : Instruction :=
  ⟨instruction.offset + distance, instruction.op.shift distance⟩

/-- The operation has no target. -/
def Operation.IsLocal (op : Operation) : Prop :=
  (Instruction.mk 0 op).target? = none

instance (op : Operation) : Decidable op.IsLocal :=
  inferInstanceAs (Decidable ((Instruction.mk 0 op).target? = none))

/-- Wherever the operation has its target, there is room to move it on. -/
def Operation.Fits (distance : Offset) (op : Operation) : Prop :=
  ∀ target ∈ (Instruction.mk 0 op).target?, target.toNat + distance.toNat < UInt32.size

theorem Operation.IsLocal.shift_eq {op : Operation} (h : op.IsLocal) (distance : Offset) : op.shift distance = op := by
  cases op with
  | branch _ _ | jump _ => cases h
  | _ => rfl

namespace Decoding

variable {pool : Pool} {registry : Registry} {offset distance : Offset}

/-! ## Instructions -/

theorem toNat_add {a b : Offset} (h : a.toNat + b.toNat < UInt32.size) : (a + b).toNat = a.toNat + b.toNat := by
  rw [UInt32.toNat_add, Nat.mod_eq_of_lt h]

theorem relative_shift {d : Int} {target : Offset} (hoffset : offset.toNat + distance.toNat < UInt32.size)
    (htarget : target.toNat + distance.toNat < UInt32.size) (h : relative offset d = .ok target) :
    relative (offset + distance) d = .ok (target + distance) := by
  simp only [relative] at h ⊢
  split at h
  · rename_i hrange
    cases h
    have hplace : (UInt32.ofNat (offset.toNat + d).toNat).toNat = (offset.toNat + d).toNat :=
      toNat_ofNat (by simp only [UInt32.size]; omega)
    rw [hplace] at htarget
    simp only [UInt32.size] at htarget
    rw [toNat_add hoffset, if_pos (by omega)]
    congr 1
    rw [← UInt32.toNat_inj, toNat_ofNat (by simp only [UInt32.size]; omega),
      toNat_add (by rw [hplace]; exact htarget), hplace]
    omega
  · cases h

theorem branchTarget_shift {operands : List UInt8} {target : Offset}
    (hoffset : offset.toNat + distance.toNat < UInt32.size) (htarget : target.toNat + distance.toNat < UInt32.size)
    (h : branchTarget offset operands = .ok target) :
    branchTarget (offset + distance) operands = .ok (target + distance) := by
  obtain ⟨w, hw, h⟩ := bind_eq_ok_iff.mp h
  rw [branchTarget, hw, ok_bind, relative_shift hoffset htarget h]

theorem isLocal_of_plain? {opcode : UInt8} {op : Operation} (h : plain? opcode.toNat = some op) : op.IsLocal := by
  have htable : ∀ code < 256, ∀ op ∈ plain? code, op.IsLocal := by decide +kernel
  exact htable _ opcode.toNat_lt op h

theorem exists_push_of_loadConstant {wide : Bool} {index : UInt16} {op : Operation}
    (h : loadConstant pool wide index = .ok op) : ∃ value, op = .push value := by
  cases hconstant : pool.get? index with
  | none => simp [loadConstant, hconstant] at h
  | some constant =>
      cases constant <;> cases wide <;> simp [loadConstant, hconstant] at h
      all_goals exact ⟨_, h.symm⟩

theorem isLocal_of_loadConstant {wide : Bool} {index : UInt16} {op : Operation}
    (h : loadConstant pool wide index = .ok op) : op.IsLocal := by
  obtain ⟨value, rfl⟩ := exists_push_of_loadConstant h
  rfl

theorem isLocal_of_invocation {dispatch : Dispatch} {index : UInt16} {op : Operation}
    (h : invocation pool registry dispatch index = .ok op) : op.IsLocal := by
  unfold invocation at h
  split at h
  · cases h
  · cases h
    split <;> rfl

theorem isLocal_of_withOperands {opcode : UInt8} {operands : List UInt8} {d : Decoded} (hjump : opcode.toNat ≠ 0xa7)
    (hwide : opcode.toNat ≠ 0xc8) (h : withOperands pool registry offset opcode operands = .ok d) : d.op.IsLocal := by
  unfold withOperands at h
  split at h
  case h_16 => exact absurd ‹_› hjump
  case h_24 => exact absurd ‹_› hwide
  case h_25 => cases h
  all_goals
    simp only [bind_eq_ok_iff, pure_eq_ok_iff] at h
    grind [Operation.IsLocal, Instruction.target?, isLocal_of_loadConstant, isLocal_of_invocation]

/-- Only a jump looks at the place where it stands. -/
theorem withOperands_offset {opcode : UInt8} (hjump : opcode.toNat ≠ 0xa7) (hwide : opcode.toNat ≠ 0xc8)
    (offset' : Offset) (operands : List UInt8) :
    withOperands pool registry offset opcode operands = withOperands pool registry offset' opcode operands := by
  unfold withOperands
  split
  case h_16 => exact absurd ‹_› hjump
  case h_24 => exact absurd ‹_› hwide
  all_goals rfl

theorem withOperands_shift {opcode : UInt8} {operands : List UInt8} {d : Decoded}
    (hoffset : offset.toNat + distance.toNat < UInt32.size) (hfits : d.op.Fits distance)
    (h : withOperands pool registry offset opcode operands = .ok d) :
    withOperands pool registry (offset + distance) opcode operands = .ok ⟨d.op.shift distance, d.operandBytes⟩ := by
  by_cases hjump : opcode.toNat = 0xa7
  · unfold withOperands at h ⊢
    rw [hjump] at h ⊢
    obtain ⟨target, htarget, h⟩ := bind_eq_ok_iff.mp h
    cases h
    simp only [branchTarget_shift hoffset (hfits target rfl) htarget, ok_bind]
    rfl
  by_cases hwide : opcode.toNat = 0xc8
  · unfold withOperands at h ⊢
    rw [hwide] at h ⊢
    obtain ⟨operand, hoperand, h⟩ := bind_eq_ok_iff.mp h
    obtain ⟨target, htarget, h⟩ := bind_eq_ok_iff.mp h
    cases h
    simp only [hoperand, ok_bind, relative_shift hoffset (hfits target rfl) htarget]
    rfl
  rw [withOperands_offset hjump hwide offset, h, (isLocal_of_withOperands hjump hwide h).shift_eq]

/-- A moved instruction is read as the same operation, with its target moved along. -/
theorem instruction_shift {opcode : UInt8} {operands : List UInt8} {d : Decoded}
    (hoffset : offset.toNat + distance.toNat < UInt32.size) (hfits : d.op.Fits distance)
    (h : instruction pool registry offset opcode operands = .ok d) :
    instruction pool registry (offset + distance) opcode operands = .ok ⟨d.op.shift distance, d.operandBytes⟩ := by
  unfold instruction at h ⊢
  split at h
  · rename_i op hplain
    cases h
    rw [(isLocal_of_plain? hplain).shift_eq]
  · obtain ⟨target, htarget, h⟩ := bind_eq_ok_iff.mp h
    cases h
    simp only [branchTarget_shift hoffset (hfits target rfl) htarget, ok_bind]
    rfl
  · exact withOperands_shift hoffset hfits h

theorem Encodes.shift {bytes : List UInt8} {op : Operation} (h : Encodes pool registry offset bytes op)
    (hoffset : offset.toNat + distance.toNat < UInt32.size) (hfits : op.Fits distance) :
    Encodes pool registry (offset + distance) bytes (op.shift distance) := by
  obtain ⟨opcode, operands, rfl, h⟩ := h
  exact ⟨opcode, operands, rfl, instruction_shift hoffset hfits h⟩

/-! ## Code -/

theorem Tiles.append {position : Nat} {front rest : List UInt8} {instructions later : List Instruction}
    (hfront : Tiles pool registry position front instructions)
    (hrest : Tiles pool registry (position + front.length) rest later) :
    Tiles pool registry position (front ++ rest) (instructions ++ later) := by
  induction hfront with
  | done position => exact hrest
  | next hbytes _ ih =>
      rw [List.length_append, ← Nat.add_assoc] at hrest
      rw [List.append_assoc, List.cons_append]
      exact .next hbytes (ih hrest)

theorem Tiles.shift {position distance : Nat} {code : List UInt8} {instructions : List Instruction}
    (h : Tiles pool registry position code instructions) (hbound : position + code.length + distance < UInt32.size)
    (hfits : ∀ i ∈ instructions, ∀ target ∈ i.target?, target.toNat + distance < UInt32.size) :
    Tiles pool registry (position + distance) code (instructions.map (Instruction.shift (.ofNat distance))) := by
  induction h with
  | done position => exact .done _
  | next hbytes _ ih =>
      rename_i position bytes rest op later _
      rw [List.length_append, ← Nat.add_assoc] at hbound
      have hdistance : (UInt32.ofNat distance).toNat = distance := toNat_ofNat (by omega)
      have hmoved : Encodes pool registry (.ofNat (position + distance)) bytes (op.shift (.ofNat distance)) := by
        rw [UInt32.ofNat_add]
        refine hbytes.shift ?_ fun target htarget => ?_
        · rw [hdistance, toNat_ofNat (by omega)]
          omega
        · rw [hdistance]
          exact hfits _ List.mem_cons_self target htarget
      have hlater := ih hbound fun i hi => hfits i (List.mem_cons_of_mem _ hi)
      rw [Nat.add_right_comm] at hlater
      rw [List.map_cons, Instruction.shift, ← UInt32.ofNat_add]
      exact .next hmoved hlater

/-- Of two pieces of code, one after the other, the second decodes to its own instructions, moved by the length of the
first: their offsets and their targets. -/
theorem decode_append {first second : List UInt8} {instructions later : List Instruction}
    (hfirst : decode pool registry first = .ok instructions) (hsecond : decode pool registry second = .ok later)
    (hbound : first.length + second.length < UInt32.size)
    (hfits : ∀ i ∈ later, ∀ target ∈ i.target?, target.toNat + first.length < UInt32.size) :
    decode pool registry (first ++ second) =
      .ok (instructions ++ later.map (Instruction.shift (.ofNat first.length))) := by
  have hmoved := (tiles_iff.mp hsecond).shift (by omega) hfits
  exact tiles_iff.mpr ((tiles_iff.mp hfirst).append hmoved)

/-- `it.items`, dropped again. -/
def droppedItems : List UInt8 :=
  [0x2a, 0xb4, 0x00, 0x01, 0x57]

/-- A loop that is left if `it` is null: a branch to its end and a jump back to its beginning. -/
def nullLoop : List UInt8 :=
  [0x2a, 0xc6, 0x00, 0x06, 0xa7, 0xff, 0xfc]

theorem decode_append_nullLoop :
    decode listPool .builtin droppedItems =
      .ok [⟨0, .load 0 .unknown⟩, ⟨1, .getField ⟨"Order", "items", "Ljava/util/List;"⟩⟩, ⟨4, .pop⟩] ∧
    decode listPool .builtin nullLoop = .ok [⟨0, .load 0 .unknown⟩, ⟨1, .branch .null 7⟩, ⟨4, .jump 0⟩] ∧
    droppedItems.length + nullLoop.length < UInt32.size ∧
    decode listPool .builtin (droppedItems ++ nullLoop) =
      .ok [⟨0, .load 0 .unknown⟩, ⟨1, .getField ⟨"Order", "items", "Ljava/util/List;"⟩⟩, ⟨4, .pop⟩,
        ⟨5, .load 0 .unknown⟩, ⟨6, .branch .null 12⟩, ⟨9, .jump 5⟩] := by
  have hfirst : decode listPool .builtin droppedItems =
      .ok [⟨0, .load 0 .unknown⟩, ⟨1, .getField ⟨"Order", "items", "Ljava/util/List;"⟩⟩, ⟨4, .pop⟩] := rfl
  have hsecond : decode listPool .builtin nullLoop =
      .ok [⟨0, .load 0 .unknown⟩, ⟨1, .branch .null 7⟩, ⟨4, .jump 0⟩] := rfl
  have hbound : droppedItems.length + nullLoop.length < UInt32.size := by decide
  refine ⟨hfirst, hsecond, hbound, decode_append hfirst hsecond hbound ?_⟩
  simp [Instruction.target?, droppedItems, UInt32.size]

end Decoding

end PredicateLift
