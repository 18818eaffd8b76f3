import PredicateLift.Code.Decoding
import PredicateLift.Proofs.Fallible

/-!
# Decoded instructions tile the code

How long an instruction is depends on its opcode alone (`operandCount`), and what it does on nothing after its operands.
So decoding splits the code from front to back into one piece for each instruction, and where it fails, the pieces
before that place are still instructions and no instruction starts there.
-/

namespace PredicateLift.Decoding

variable {pool : Pool} {registry : Registry}

/-! ## Operands -/

/-- The number of bytes that follow an opcode. -/
def operandCount (opcode : Nat) : Nat :=
  if opcode = 0x10 ∨ opcode = 0x12 ∨ 0x15 ≤ opcode ∧ opcode ≤ 0x19 ∨ 0x36 ≤ opcode ∧ opcode ≤ 0x3a then 1
  else if opcode = 0x11 ∨ opcode = 0x13 ∨ opcode = 0x14 ∨ 0x99 ≤ opcode ∧ opcode ≤ 0xa7 ∨ opcode = 0xb2 ∨
    opcode = 0xb4 ∨ 0xb6 ≤ opcode ∧ opcode ≤ 0xb8 ∨ opcode = 0xc0 ∨ opcode = 0xc6 ∨ opcode = 0xc7 then 2
  else if opcode = 0xb9 ∨ opcode = 0xc8 then 4
  else 0

theorem byte_append {front : List UInt8} (h : 1 ≤ front.length) (rest : List UInt8) :
    byte (front ++ rest) = byte front := by
  match front with
  | _ :: _ => rfl

theorem word_append {front : List UInt8} (h : 2 ≤ front.length) (rest : List UInt8) :
    word (front ++ rest) = word front := by
  match front with
  | _ :: _ :: _ => rfl

theorem word_drop_append {front : List UInt8} (h : 4 ≤ front.length) (rest : List UInt8) :
    word ((front ++ rest).drop 2) = word (front.drop 2) := by
  rw [List.drop_append_of_le_length (by omega), word_append (by rw [List.length_drop]; omega)]

theorem doubleWord_append {front : List UInt8} (h : 4 ≤ front.length) (rest : List UInt8) :
    doubleWord (front ++ rest) = doubleWord front := by
  rw [doubleWord, doubleWord, word_append (by omega), word_drop_append h]

theorem branchTarget_append (offset : Offset) {front : List UInt8} (h : 2 ≤ front.length) (rest : List UInt8) :
    branchTarget offset (front ++ rest) = branchTarget offset front := by
  rw [branchTarget, branchTarget, word_append h]

/-- Bytes after the operands make no difference. -/
theorem withOperands_append (offset : Offset) (opcode : UInt8) {front : List UInt8}
    (h : operandCount opcode.toNat ≤ front.length) (rest : List UInt8) :
    withOperands pool registry offset opcode (front ++ rest) = withOperands pool registry offset opcode front := by
  unfold withOperands
  generalize opcode.toNat = code at h
  split
  case h_25 => rfl
  all_goals simp (disch := exact Nat.le_trans (by decide) h) only [byte_append, word_append, word_drop_append,
    doubleWord_append, branchTarget_append]

theorem byte_length {operands : List UInt8} {b : UInt8} (h : byte operands = .ok b) : 1 ≤ operands.length := by
  match operands with
  | _ :: _ => simp

theorem word_length {operands : List UInt8} {w : UInt16} (h : word operands = .ok w) : 2 ≤ operands.length := by
  match operands with
  | _ :: _ :: _ => simp

theorem word_drop_length {operands : List UInt8} {w : UInt16} (h : word (operands.drop 2) = .ok w) :
    4 ≤ operands.length := by
  have hlength := word_length h
  rw [List.length_drop] at hlength
  omega

theorem doubleWord_length {operands : List UInt8} {w : UInt32} (h : doubleWord operands = .ok w) :
    4 ≤ operands.length := by
  obtain ⟨high, -, h⟩ := bind_eq_ok_iff.mp h
  obtain ⟨low, hlow, -⟩ := bind_eq_ok_iff.mp h
  exact word_drop_length hlow

theorem branchTarget_length {offset target : Offset} {operands : List UInt8}
    (h : branchTarget offset operands = .ok target) : 2 ≤ operands.length := by
  obtain ⟨w, hw, -⟩ := bind_eq_ok_iff.mp h
  exact word_length hw

theorem withOperands_size {offset : Offset} {opcode : UInt8} {operands : List UInt8} {d : Decoded}
    (h : withOperands pool registry offset opcode operands = .ok d) :
    d.operandBytes = operandCount opcode.toNat ∧ d.operandBytes ≤ operands.length := by
  unfold withOperands at h
  generalize opcode.toNat = code at h ⊢
  split at h
  case h_25 => cases h
  all_goals
    simp only [bind_eq_ok_iff, pure_eq_ok_iff] at h
    grind [operandCount, byte_length, word_length, word_drop_length, doubleWord_length, branchTarget_length]

theorem operandCount_of_plain? {opcode : UInt8} {op : Operation} (h : plain? opcode.toNat = some op) :
    operandCount opcode.toNat = 0 := by
  have htable : ∀ code < 256, (plain? code).isSome = true → operandCount code = 0 := by decide +kernel
  exact htable _ opcode.toNat_lt (by rw [h]; rfl)

theorem operandCount_of_condition? {opcode : UInt8} {condition : Condition}
    (h : condition? opcode.toNat = some condition) : operandCount opcode.toNat = 2 := by
  have htable : ∀ code < 256, (condition? code).isSome = true → operandCount code = 2 := by decide +kernel
  exact htable _ opcode.toNat_lt (by rw [h]; rfl)

/-! ## Instructions -/

theorem instruction_append (offset : Offset) (opcode : UInt8) {front : List UInt8}
    (h : operandCount opcode.toNat ≤ front.length) (rest : List UInt8) :
    instruction pool registry offset opcode (front ++ rest) = instruction pool registry offset opcode front := by
  unfold instruction
  split
  · rfl
  · rename_i condition _ hcondition
    rw [operandCount_of_condition? hcondition] at h
    rw [branchTarget_append offset h]
  · exact withOperands_append offset opcode h rest

theorem instruction_size {offset : Offset} {opcode : UInt8} {operands : List UInt8} {d : Decoded}
    (h : instruction pool registry offset opcode operands = .ok d) :
    d.operandBytes = operandCount opcode.toNat ∧ d.operandBytes ≤ operands.length := by
  unfold instruction at h
  split at h
  · rename_i op hplain
    cases h
    exact ⟨(operandCount_of_plain? hplain).symm, Nat.zero_le _⟩
  · rename_i hcondition
    obtain ⟨target, htarget, h⟩ := bind_eq_ok_iff.mp h
    cases pure_eq_ok_iff.mp h
    exact ⟨(operandCount_of_condition? hcondition).symm, branchTarget_length htarget⟩
  · exact withOperands_size h

/-- The bytes are those of one instruction at the offset, and no others. -/
def Encodes (pool : Pool) (registry : Registry) (offset : Offset) (bytes : List UInt8) (op : Operation) : Prop :=
  ∃ opcode operands, bytes = opcode :: operands ∧
    instruction pool registry offset opcode operands = .ok ⟨op, operands.length⟩

/-- The length that the format gives to an instruction with the given bytes. -/
def encodedLength : List UInt8 → Nat
  | [] => 0
  | opcode :: _ => 1 + operandCount opcode.toNat

theorem Encodes.length_eq {offset : Offset} {bytes : List UInt8} {op : Operation}
    (h : Encodes pool registry offset bytes op) : bytes.length = encodedLength bytes := by
  obtain ⟨opcode, operands, rfl, h⟩ := h
  rw [List.length_cons, encodedLength, ← (instruction_size h).1, Nat.add_comm]

/-- An instruction is read from its own bytes, whatever follows. -/
theorem Encodes.instruction_eq {offset : Offset} {opcode : UInt8} {operands : List UInt8} {op : Operation}
    (h : Encodes pool registry offset (opcode :: operands) op) (rest : List UInt8) :
    instruction pool registry offset opcode (operands ++ rest) = .ok ⟨op, operands.length⟩ := by
  obtain ⟨_, _, hbytes, h⟩ := h
  cases hbytes
  rw [instruction_append offset opcode (Nat.le_of_eq (instruction_size h).1.symm), h]

theorem encodes_take {offset : Offset} {opcode : UInt8} {operands : List UInt8} {d : Decoded}
    (h : instruction pool registry offset opcode operands = .ok d) :
    Encodes pool registry offset (opcode :: operands.take d.operandBytes) d.op := by
  obtain ⟨hcount, hle⟩ := instruction_size h
  have hlength : (operands.take d.operandBytes).length = d.operandBytes := List.length_take_of_le hle
  have hfront : instruction pool registry offset opcode (operands.take d.operandBytes) = .ok d := by
    rw [← instruction_append offset opcode (Nat.le_of_eq (hcount.symm.trans hlength.symm))
      (operands.drop d.operandBytes), List.take_append_drop, h]
  exact ⟨opcode, _, rfl, by rw [hfront, hlength]⟩

/-! ## Code -/

/-- The code from a position on is made of the bytes of the given instructions, one after the other. -/
inductive Tiles (pool : Pool) (registry : Registry) : Nat → List UInt8 → List Instruction → Prop
  | done (position : Nat) : Tiles pool registry position [] []
  | next {position : Nat} {bytes rest : List UInt8} {op : Operation} {later : List Instruction}
      (hbytes : Encodes pool registry (.ofNat position) bytes op)
      (hrest : Tiles pool registry (position + bytes.length) rest later) :
      Tiles pool registry position (bytes ++ rest) (⟨.ofNat position, op⟩ :: later)

theorem instructionsFrom_skip (position skip : Nat) (code : List UInt8) :
    instructionsFrom pool registry position skip code =
      instructionsFrom pool registry (position + skip) 0 (code.drop skip) := by
  induction skip generalizing position code with
  | zero => rfl
  | succ skip ih =>
      cases code with
      | nil => rfl
      | cons b rest =>
          rw [instructionsFrom, ih, List.drop_succ_cons, Nat.add_assoc, Nat.add_comm 1]

theorem instructionsFrom_cons (position : Nat) (opcode : UInt8) (operands : List UInt8) :
    instructionsFrom pool registry position 0 (opcode :: operands) = (do
      let d ← (instruction pool registry (.ofNat position) opcode operands).mapError (Fault.located (.ofNat position))
      let later ← instructionsFrom pool registry (position + (1 + d.operandBytes)) 0 (operands.drop d.operandBytes)
      return ⟨.ofNat position, d.op⟩ :: later) := by
  rw [instructionsFrom]
  simp only [instructionsFrom_skip (position + 1), Nat.add_assoc]

/-- Decoding takes the first instruction off the code and goes on after it. -/
theorem Encodes.instructionsFrom_append {position : Nat} {bytes : List UInt8} {op : Operation}
    (h : Encodes pool registry (.ofNat position) bytes op) (rest : List UInt8) :
    instructionsFrom pool registry position 0 (bytes ++ rest) =
      (instructionsFrom pool registry (position + bytes.length) 0 rest).map (⟨.ofNat position, op⟩ :: ·) := by
  obtain ⟨opcode, operands, rfl, -⟩ := id h
  rw [List.cons_append, instructionsFrom_cons, h.instruction_eq rest]
  simp only [mapError_ok, ok_bind, List.drop_left, List.length_cons, Nat.add_comm 1]
  cases instructionsFrom pool registry (position + (operands.length + 1)) 0 rest with
  | error _ => rfl
  | ok _ => rfl

theorem Tiles.instructionsFrom_eq {position : Nat} {code : List UInt8} {instructions : List Instruction}
    (h : Tiles pool registry position code instructions) :
    instructionsFrom pool registry position 0 code = .ok instructions := by
  induction h with
  | done position => rfl
  | next hbytes _ ih =>
      rw [hbytes.instructionsFrom_append, ih]
      rfl

/-- Nothing can be decoded from the bytes, which are to begin at the position. -/
def Obstructs (pool : Pool) (registry : Registry) (position : Nat) (bytes : List UInt8) (fault : Fault) : Prop :=
  ∃ opcode operands cause, bytes = opcode :: operands ∧ fault = .located (.ofNat position) cause ∧
    instruction pool registry (.ofNat position) opcode operands = .error cause

/-- The code is made of instructions up to a place, at which either it ends or something stands in the way. -/
theorem instructionsFrom_split (position : Nat) (code : List UInt8) :
    ∃ front rest instructions, code = front ++ rest ∧ Tiles pool registry position front instructions ∧
      (rest = [] ∨ ∃ fault, Obstructs pool registry (position + front.length) rest fault ∧
        instructionsFrom pool registry position 0 code = .error fault) := by
  -- On the number of bytes, since an instruction takes away several of them.
  induction hn : code.length using Nat.strongRecOn generalizing position code with
  | ind n ih =>
      subst hn
      cases code with
      | nil => exact ⟨[], [], [], rfl, .done position, .inl rfl⟩
      | cons opcode operands =>
          cases hinstruction : instruction pool registry (.ofNat position) opcode operands with
          | error cause =>
              refine ⟨[], opcode :: operands, [], rfl, .done position, .inr ⟨.located (.ofNat position) cause, ?_, ?_⟩⟩
              · exact ⟨opcode, operands, cause, rfl, rfl, hinstruction⟩
              · rw [instructionsFrom_cons, hinstruction]
                rfl
          | ok d =>
              have hbytes := encodes_take hinstruction
              have hcode : opcode :: operands =
                  (opcode :: operands.take d.operandBytes) ++ operands.drop d.operandBytes := by
                rw [List.cons_append, List.take_append_drop]
              have hshorter : (operands.drop d.operandBytes).length < (opcode :: operands).length := by
                simp only [List.length_drop, List.length_cons]
                omega
              obtain ⟨front, rest, instructions, hrest, htiles, hend⟩ := ih _ hshorter (position + _) _ rfl
              refine ⟨_ ++ front, rest, _, ?_, .next hbytes htiles, ?_⟩
              · rw [hcode, hrest, List.append_assoc]
              · rw [hcode, hbytes.instructionsFrom_append, List.length_append, ← Nat.add_assoc]
                refine hend.imp_right fun ⟨fault, hobstructs, hfault⟩ => ⟨fault, hobstructs, ?_⟩
                rw [hfault]
                rfl

theorem tiles_iff {position : Nat} {code : List UInt8} {instructions : List Instruction} :
    instructionsFrom pool registry position 0 code = .ok instructions ↔
      Tiles pool registry position code instructions := by
  refine ⟨fun h => ?_, Tiles.instructionsFrom_eq⟩
  obtain ⟨front, rest, others, rfl, htiles, rfl | ⟨fault, -, hfault⟩⟩ := instructionsFrom_split position code
  · rw [List.append_nil] at h ⊢
    cases htiles.instructionsFrom_eq.symm.trans h
    exact htiles
  · cases hfault.symm.trans h

theorem Obstructs.not_encodes {position : Nat} {bytes : List UInt8} {fault : Fault}
    (h : Obstructs pool registry position bytes fault) {front : List UInt8} (hfront : front <+: bytes)
    (op : Operation) : ¬Encodes pool registry (.ofNat position) front op := by
  obtain ⟨opcode, operands, cause, rfl, -, herror⟩ := h
  obtain ⟨rest, hrest⟩ := hfront
  intro hencodes
  obtain ⟨opcode', operands', rfl, -⟩ := id hencodes
  cases hrest
  cases (hencodes.instruction_eq rest).symm.trans herror

/-! ## Offsets -/

theorem toNat_ofNat {position : Nat} (h : position < UInt32.size) : (UInt32.ofNat position).toNat = position :=
  UInt32.toNat_ofNat_of_lt' h

theorem Encodes.length_pos {offset : Offset} {bytes : List UInt8} {op : Operation}
    (h : Encodes pool registry offset bytes op) : 0 < bytes.length := by
  obtain ⟨opcode, operands, rfl, -⟩ := h
  simp

/-- Where the instructions begin; none are to be found only at the end of the code. -/
theorem Tiles.head_eq {position : Nat} {code : List UInt8} {instructions : List Instruction}
    (h : Tiles pool registry position code instructions) (hbound : position + code.length ≤ UInt32.size) :
    (instructions.head?.map (·.offset.toNat)).getD (position + code.length) = position := by
  cases h with
  | done _ => rfl
  | next hbytes _ =>
      have hpos := hbytes.length_pos
      rw [List.length_append] at hbound
      exact toNat_ofNat (by omega)

/-- Each instruction takes up the bytes from its offset to where the next one begins or the code ends. -/
theorem Tiles.extent {position : Nat} {code : List UInt8} {instructions before later : List Instruction}
    {instruction : Instruction} (h : Tiles pool registry position code instructions)
    (hbound : position + code.length ≤ UInt32.size) (hsplit : instructions = before ++ instruction :: later) :
    ∃ front bytes rest, code = front ++ bytes ++ rest ∧ position + front.length = instruction.offset.toNat ∧
      position + (front.length + bytes.length) =
        (later.head?.map (·.offset.toNat)).getD (position + code.length) ∧
      Encodes pool registry instruction.offset bytes instruction.op := by
  induction h generalizing before with
  | done _ => cases before <;> cases hsplit
  | next hbytes hrest ih =>
      rename_i position bytes rest op others
      have hpos := hbytes.length_pos
      rw [List.length_append, ← Nat.add_assoc] at hbound ⊢
      cases before with
      | nil =>
          cases hsplit
          have hoffset : (UInt32.ofNat position).toNat = position := toNat_ofNat (by omega)
          refine ⟨[], bytes, rest, rfl, hoffset.symm, ?_, hbytes⟩
          rw [hrest.head_eq hbound, List.length_nil, Nat.zero_add]
      | cons first before =>
          cases hsplit
          obtain ⟨front, own, after, rfl, hoffset, hend, hown⟩ := ih hbound rfl
          refine ⟨bytes ++ front, own, after, by simp only [List.append_assoc], ?_, ?_, hown⟩
          · rw [← hoffset, List.length_append, Nat.add_assoc]
          · rw [← hend, List.length_append]
            omega

theorem Tiles.increasing {position : Nat} {code : List UInt8} {instructions : List Instruction}
    (h : Tiles pool registry position code instructions) (hbound : position + code.length ≤ UInt32.size) :
    instructions.Pairwise (·.offset < ·.offset) := by
  induction h with
  | done _ => exact .nil
  | next hbytes hrest ih =>
      rename_i position bytes rest op others
      have hpos := hbytes.length_pos
      rw [List.length_append, ← Nat.add_assoc] at hbound
      refine List.pairwise_cons.mpr ⟨fun instruction hmem => ?_, ih hbound⟩
      obtain ⟨before, later, hsplit⟩ := List.append_of_mem hmem
      obtain ⟨front, _, _, _, hoffset, _⟩ := hrest.extent hbound hsplit
      rw [UInt32.lt_iff_toNat_lt, ← hoffset, toNat_ofNat (by omega)]
      omega

/-- The instructions lie side by side in the code: the first begins where the code does, and each takes up the bytes
from its offset to the next one or to the end, as many as the format gives it. -/
structure Tiling (pool : Pool) (registry : Registry) (code : List UInt8) (instructions : List Instruction) : Prop where
  tiles : Tiles pool registry 0 code instructions
  starts : code ≠ [] → instructions.head?.map (·.offset) = some 0
  increasing : instructions.Pairwise (·.offset < ·.offset)
  extent : ∀ before instruction later, instructions = before ++ instruction :: later →
    ∃ front bytes rest, code = front ++ bytes ++ rest ∧ front.length = instruction.offset.toNat ∧
      front.length + bytes.length = (later.head?.map (·.offset.toNat)).getD code.length ∧
      bytes.length = encodedLength bytes ∧ Encodes pool registry instruction.offset bytes instruction.op

theorem Tiles.tiling {code : List UInt8} {instructions : List Instruction} (h : Tiles pool registry 0 code instructions)
    (hbound : code.length < UInt32.size) : Tiling pool registry code instructions where
  tiles := h
  starts := by
    intro hne
    cases h with
    | done _ => exact absurd rfl hne
    | next _ _ => rfl
  increasing := h.increasing (by omega)
  extent := by
    intro before instruction later hsplit
    obtain ⟨front, bytes, rest, hcode, hoffset, hend, hencodes⟩ := h.extent (by omega) hsplit
    simp only [Nat.zero_add] at hoffset hend
    exact ⟨front, bytes, rest, hcode, hoffset, hend, hencodes.length_eq, hencodes⟩

/-- Decoding succeeds exactly if instructions lie side by side in the whole code, and gives these. If it fails, it names
a place in the code up to which it succeeds and at which no instruction begins. -/
theorem decode_tiling (pool : Pool) (registry : Registry) {code : List UInt8} (hbound : code.length < UInt32.size) :
    (∀ instructions, decode pool registry code = .ok instructions ↔ Tiling pool registry code instructions) ∧
    ∀ fault, decode pool registry code = .error fault →
      ∃ o : Offset, fault.offset = some o ∧ o.toNat < code.length ∧
        (∃ instructions, decode pool registry (code.take o.toNat) = .ok instructions ∧
          Tiling pool registry (code.take o.toNat) instructions) ∧
        ∀ front, front <+: code.drop o.toNat → ∀ op, ¬Encodes pool registry o front op := by
  refine ⟨fun instructions => ⟨fun h => (tiles_iff.mp h).tiling hbound, fun h => tiles_iff.mpr h.tiles⟩, ?_⟩
  intro fault hfault
  obtain ⟨front, rest, instructions, rfl, htiles, rfl | ⟨_, hobstructs, herror⟩⟩ :=
    @instructionsFrom_split pool registry 0 code
  · rw [List.append_nil] at hfault
    cases htiles.instructionsFrom_eq.symm.trans hfault
  · cases herror.symm.trans hfault
    rw [Nat.zero_add] at hobstructs
    obtain ⟨opcode, operands, cause, rfl, rfl, -⟩ := id hobstructs
    rw [List.length_append, List.length_cons] at hbound
    have hplace : (UInt32.ofNat front.length).toNat = front.length := toNat_ofNat (by omega)
    refine ⟨.ofNat front.length, rfl, ?_, ?_, ?_⟩
    · rw [hplace, List.length_append, List.length_cons]
      omega
    · rw [hplace, List.take_left]
      exact ⟨instructions, htiles.instructionsFrom_eq, htiles.tiling (by omega)⟩
    · rw [hplace, List.drop_left]
      exact fun _ hfront op => hobstructs.not_encodes hfront op

/-- A field and a method of an interface. -/
def listPool : Pool :=
  ⟨#[.fieldRef ⟨"Order", "items", "Ljava/util/List;"⟩, .interfaceMethodRef ⟨"java/util/List", "size", "()I"⟩]⟩

/-- `it.items.size()`, with the last of the four bytes missing that the call takes. -/
def cutCall : List UInt8 :=
  [0x2a, 0xb4, 0x00, 0x01, 0xb9, 0x00, 0x02, 0x01]

/-- Decoding stops at the call that is cut off, after the two instructions before it. -/
theorem decode_tiling_cutCall :
    cutCall.length < UInt32.size ∧
    decode listPool .builtin cutCall = .error (.located 4 .truncatedOperands) ∧
    Tiling listPool .builtin [0x2a, 0xb4, 0x00, 0x01]
      [⟨0, .load 0 .unknown⟩, ⟨1, .getField ⟨"Order", "items", "Ljava/util/List;"⟩⟩] ∧
    ∀ front, front <+: [0xb9, 0x00, 0x02, 0x01] → ∀ op, ¬Encodes listPool .builtin 4 front op := by
  have hbound : cutCall.length < UInt32.size := by decide
  have hfault : decode listPool .builtin cutCall = .error (.located 4 .truncatedOperands) := rfl
  obtain ⟨o, ho, -, ⟨instructions, hdecode, htiling⟩, hnone⟩ := (decode_tiling listPool .builtin hbound).2 _ hfault
  cases ho
  cases hdecode
  exact ⟨hbound, hfault, htiling, hnone⟩

end PredicateLift.Decoding
