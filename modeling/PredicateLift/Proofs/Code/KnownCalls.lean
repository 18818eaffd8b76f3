import PredicateLift.Proofs.Code.Relocation
import PredicateLift.Proofs.Symbolic.Effects
import PredicateLift.Proofs.Symbolic.Frames
import Mathlib.Data.List.Forall2

/-!
# Calls with a known meaning

Decoding with a registry differs from decoding without one only in the calls of methods that box or unbox, which
become operations of their own. Such an operation keeps the depth of the stack, while a call takes away its operands
and leaves its value. So the two leave equally deep stacks exactly if the call takes one operand. Every method of the
standard library that boxes or unboxes does; what else is registered as such need not.
-/

namespace PredicateLift

/-- The operation is one that calls with a known meaning become. -/
def Operation.isKnown : Operation → Bool
  | .box _ => true
  | .unbox _ => true
  | _ => false

/-- By the meanings of a registry, the first operation becomes the second one. -/
inductive Recognizes (registry : Registry) : Operation → Operation → Prop where
  | same {op} : op.isKnown = false → Recognizes registry op op
  | box {method kind} : registry.get? method = some (.box kind) →
      Recognizes registry (.invoke .static method) (.box kind)
  | unbox {dispatch method kind} : dispatch ≠ .static → registry.get? method = some (.unbox kind) →
      Recognizes registry (.invoke dispatch method) (.unbox kind)

/-! ## Decoding -/

namespace Decoding

variable {pool : Pool} {registry : Registry}

theorem loadConstant_recognizes (wide : Bool) (index : UInt16) :
    EndAlike (fun _ => False) (Recognizes registry) (loadConstant pool wide index) (loadConstant pool wide index) := by
  refine .of_whenOk (fun op h => exists_push_of_loadConstant h) ?_
  rintro _ ⟨value, rfl⟩
  exact .same rfl

theorem invocation_recognizes (dispatch : Dispatch) (index : UInt16) :
    EndAlike (fun _ => False) (Recognizes registry) (invocation pool {} dispatch index)
      (invocation pool registry dispatch index) := by
  unfold invocation
  cases pool.methodRef? index with
  | none => exact .error
  | some method =>
      refine .ok ?_
      change Recognizes registry (.invoke dispatch method) _
      split
      · rename_i hget
        exact .box hget
      · exact .same rfl
      · rename_i hget hstatic
        exact .unbox hstatic hget
      · exact .same rfl

/-- Equally long, and the first operation becomes the second one. -/
def DecodedAlike (registry : Registry) (a b : Decoded) : Prop :=
  Recognizes registry a.op b.op ∧ a.operandBytes = b.operandBytes

theorem withOperands_recognizes (offset : Offset) (opcode : UInt8) (operands : List UInt8) :
    EndAlike (fun _ => False) (DecodedAlike registry) (withOperands pool {} offset opcode operands)
      (withOperands pool registry offset opcode operands) := by
  unfold withOperands
  split
  case h_3 | h_4 | h_5 => exact .bind_same fun _ => .bind (loadConstant_recognizes _ _) fun _ _ h => .ok ⟨h, rfl⟩
  case h_17 | h_18 | h_23 | h_24 => exact .bind_same fun _ => .bind_same fun _ => .ok ⟨.same rfl, rfl⟩
  case h_19 | h_20 | h_21 => exact .bind_same fun _ => .bind (invocation_recognizes _ _) fun _ _ h => .ok ⟨h, rfl⟩
  case h_22 =>
    exact .bind_same fun _ => .bind (invocation_recognizes _ _) fun _ _ h => .bind_same fun _ => .ok ⟨h, rfl⟩
  case h_25 => exact .error
  all_goals exact .bind_same fun _ => .ok ⟨.same rfl, rfl⟩

theorem isKnown_of_plain? {opcode : UInt8} {op : Operation} (h : plain? opcode.toNat = some op) :
    op.isKnown = false := by
  have htable : ∀ code < 256, ∀ op ∈ plain? code, op.isKnown = false := by decide +kernel
  exact htable _ opcode.toNat_lt op h

theorem instruction_recognizes (offset : Offset) (opcode : UInt8) (operands : List UInt8) :
    EndAlike (fun _ => False) (DecodedAlike registry) (instruction pool {} offset opcode operands)
      (instruction pool registry offset opcode operands) := by
  unfold instruction
  split
  · rename_i hplain
    exact .ok ⟨.same (isKnown_of_plain? hplain), rfl⟩
  · exact .bind_same fun _ => .ok ⟨.same rfl, rfl⟩
  · exact withOperands_recognizes offset opcode operands

/-- At one offset, and the first operation becomes the second one. -/
def InstructionsAlike (registry : Registry) (a b : Instruction) : Prop :=
  a.offset = b.offset ∧ Recognizes registry a.op b.op

theorem instructionsFrom_recognizes (position skip : Nat) (code : List UInt8) :
    EndAlike (fun _ => False) (List.Forall₂ (InstructionsAlike registry))
      (instructionsFrom pool {} position skip code) (instructionsFrom pool registry position skip code) := by
  induction code generalizing position skip with
  | nil => exact .ok .nil
  | cons opcode rest ih =>
      cases skip with
      | succ skip => exact ih (position + 1) skip
      | zero =>
          refine .bind ((instruction_recognizes _ opcode rest).mapError fun _ h => h) fun a b h => ?_
          -- Both are equally long, so that the next ones start at the same place.
          rw [h.2]
          exact .bind (ih _ _) fun _ _ hlater => .ok (.cons ⟨rfl, h.1⟩ hlater)

end Decoding

/-! ## Depths -/

/-- The number of operands of a call that leaves a value: the receiver, if there is one, and the arguments. -/
def operandCount? (dispatch : Dispatch) (descriptor : String) : Option Nat :=
  match Signature.ofDescriptor? descriptor with
  | none => none
  | some signature =>
    if signature.result = .void then none
    else some (signature.parameters.length + if dispatch = .static then 0 else 1)

theorem operandCount?_eq_some_iff {dispatch : Dispatch} {descriptor : String} {n : Nat} :
    operandCount? dispatch descriptor = some n ↔
      ∃ signature, Signature.ofDescriptor? descriptor = some signature ∧ signature.result ≠ .void ∧
        signature.parameters.length + (if dispatch = .static then 0 else 1) = n := by
  cases h : Signature.ofDescriptor? descriptor with
  | none => simp [operandCount?, h]
  | some signature => simp [operandCount?, h]

theorem operandCount?_eq_virtual {dispatch : Dispatch} (h : dispatch ≠ .static) (descriptor : String) :
    operandCount? dispatch descriptor = operandCount? .virtual descriptor := by
  have hvirtual : Dispatch.virtual ≠ .static := Dispatch.noConfusion
  simp only [operandCount?, if_neg h, if_neg hvirtual]

theorem Frame.depth_of_pop {frame rest : Frame} {value : Symbolic} (h : frame.pop = .ok (value, rest)) :
    rest.depth + 1 = frame.depth := by
  rw [Frame.eq_push_of_pop h]
  rfl

theorem Frame.depth_of_popMany {frame rest : Frame} {n : Nat} {args : List Symbolic}
    (h : frame.popMany n = .ok (args, rest)) : rest.depth + n = frame.depth := by
  obtain ⟨rfl, hlength⟩ := Frame.stack_of_popMany h
  simp only [Frame.depth, List.length_append, List.length_reverse, hlength]
  omega

section

variable {registry : Registry} {offset : Offset} {dispatch : Dispatch} {method : Member} {frame frame' : Frame}

theorem depth_of_runCall {value : Symbolic} (h : runCall registry dispatch method frame = .ok (value, frame')) :
    ∃ n, operandCount? dispatch method.descriptor = some n ∧ frame'.depth + n = frame.depth := by
  unfold runCall at h
  split at h
  · cases h
  · rename_i signature hsignature
    split at h
    · cases h
    · rename_i hvoid
      refine ⟨_, operandCount?_eq_some_iff.mpr ⟨signature, hsignature, hvoid, rfl⟩, ?_⟩
      obtain ⟨⟨args, frame₁⟩, hargs, h⟩ := bind_eq_ok_iff.mp h
      have hdepth := Frame.depth_of_popMany hargs
      simp only at h
      split at h
      · rename_i hstatic
        obtain ⟨_, _, h⟩ := bind_eq_ok_iff.mp h
        cases pure_eq_ok_iff.mp h
        rw [if_pos hstatic, Nat.add_zero, hdepth]
      · rename_i hstatic
        obtain ⟨⟨receiver, frame₂⟩, hreceiver, h⟩ := bind_eq_ok_iff.mp h
        obtain ⟨_, _, h⟩ := bind_eq_ok_iff.mp h
        cases pure_eq_ok_iff.mp h
        have hdepth' := Frame.depth_of_pop hreceiver
        rw [if_neg hstatic]
        change frame₂.depth + _ = _
        omega

/-- A call takes its operands from the stack and leaves its value. -/
theorem depth_of_invoke (h : step registry frame ⟨offset, .invoke dispatch method⟩ = .ok (.next frame')) :
    ∃ n, operandCount? dispatch method.descriptor = some n ∧ frame'.depth + n = frame.depth + 1 := by
  obtain ⟨⟨value, rest⟩, hcall, h⟩ := bind_eq_ok_iff.mp (step_eq_ok_iff.mp h)
  cases pure_eq_ok_iff.mp h
  obtain ⟨n, hn, hdepth⟩ := depth_of_runCall hcall
  refine ⟨n, hn, ?_⟩
  change rest.depth + 1 + n = frame.depth + 1
  omega

/-- Boxing and unboxing keep the depth of the stack. -/
theorem depth_of_isKnown {instruction : Instruction} (hknown : instruction.op.isKnown = true)
    (h : step registry frame instruction = .ok (.next frame')) : frame'.depth = frame.depth := by
  obtain ⟨offset, op⟩ := instruction
  cases op with
  | box kind =>
      cases h
      rfl
  | unbox kind =>
      obtain ⟨⟨value, rest⟩, hpop, h⟩ := bind_eq_ok_iff.mp (step_eq_ok_iff.mp h)
      cases pure_eq_ok_iff.mp h
      exact Frame.depth_of_pop hpop
  | _ => cases hknown

/-! ## Frames that are deep enough -/

theorem exists_callResult (method : Member) (receiver : Symbolic) (args : List Symbolic) (kind : Kind) :
    ∃ value, callResult {} method receiver args kind = .ok value := by
  cases args with
  | nil =>
      cases h : accessedProperty? receiver method with
      | none => exact ⟨.call receiver method [] kind, by simp only [callResult, h]; rfl⟩
      | some value => exact ⟨.literal value, by simp only [callResult, h]; rfl⟩
  | cons arg args => exact ⟨.call receiver method (arg :: args) kind, rfl⟩

theorem Frame.exists_pop (h : 0 < frame.depth) : ∃ value rest, frame.pop = .ok (value, rest) := by
  obtain ⟨stack, locals⟩ := frame
  cases stack with
  | nil => cases h
  | cons value stack => exact ⟨value, ⟨stack, locals⟩, rfl⟩

theorem Frame.exists_popMany {n : Nat} (h : n ≤ frame.depth) : ∃ args rest, frame.popMany n = .ok (args, rest) :=
  ⟨_, _, if_pos h⟩

theorem exists_runCall {n : Nat} (h : operandCount? dispatch method.descriptor = some n) (hn : n ≤ frame.depth) :
    ∃ value rest, runCall {} dispatch method frame = .ok (value, rest) := by
  obtain ⟨signature, hsignature, hvoid, rfl⟩ := operandCount?_eq_some_iff.mp h
  obtain ⟨args, frame₁, hargs⟩ := Frame.exists_popMany (Nat.le_of_add_right_le hn)
  simp only [runCall, hsignature, if_neg hvoid, hargs, ok_bind]
  by_cases hstatic : dispatch = .static
  · rw [if_pos hstatic]
    exact ⟨_, _, rfl⟩
  · rw [if_neg hstatic] at hn ⊢
    have hdepth := Frame.depth_of_popMany hargs
    obtain ⟨receiver, rest, hreceiver⟩ : ∃ receiver rest, frame₁.pop = .ok (receiver, rest) :=
      Frame.exists_pop (by omega)
    obtain ⟨value, hvalue⟩ := exists_callResult method receiver args signature.result
    simp only [hreceiver, hvalue, ok_bind]
    exact ⟨_, _, rfl⟩

/-- Where no method has a known meaning, a call goes on from every frame that holds its operands. -/
theorem exists_step_invoke {n : Nat} (h : operandCount? dispatch method.descriptor = some n) (hn : n ≤ frame.depth) :
    ∃ frame', step {} frame ⟨offset, .invoke dispatch method⟩ = .ok (.next frame') := by
  obtain ⟨value, rest, hcall⟩ := exists_runCall h hn
  refine ⟨rest.push value, step_eq_ok_iff.mpr ?_⟩
  simp only [Operation.run, hcall, ok_bind]
  rfl

theorem exists_step_isKnown {instruction : Instruction} (hknown : instruction.op.isKnown = true)
    (h : 0 < frame.depth) : ∃ frame', step registry frame instruction = .ok (.next frame') := by
  obtain ⟨offset, op⟩ := instruction
  cases op with
  | box kind => exact ⟨frame, rfl⟩
  | unbox kind =>
      obtain ⟨value, rest, hpop⟩ := Frame.exists_pop h
      refine ⟨rest.push (value.unbox kind), step_eq_ok_iff.mpr ?_⟩
      simp only [Operation.run, hpop, ok_bind]
      rfl
  | _ => cases hknown

end

/-! ## The balance of the stack -/

/-- From every frame from which both instructions go on, they leave equally deep stacks. -/
def Balanced (a b : Instruction) : Prop :=
  ∀ registry frame f g, step registry frame a = .ok (.next f) → step registry frame b = .ok (.next g) →
    f.depth = g.depth

/-- If the call leaves a value, it takes one operand. -/
def TakesOne (dispatch : Dispatch) (descriptor : String) : Prop :=
  ∀ n ∈ operandCount? dispatch descriptor, n = 1

instance (dispatch : Dispatch) (descriptor : String) : Decidable (TakesOne dispatch descriptor) :=
  inferInstanceAs (Decidable (∀ n ∈ operandCount? dispatch descriptor, n = 1))

/-- An operation that keeps the depth is in balance with a call exactly if that takes one operand. -/
theorem balanced_iff_takesOne {offset : Offset} {dispatch : Dispatch} {method : Member} {b : Instruction}
    (hb : b.op.isKnown = true) :
    Balanced ⟨offset, .invoke dispatch method⟩ b ↔ TakesOne dispatch method.descriptor := by
  constructor
  · intro h n hn
    -- One operand more than the call takes is enough for both.
    let frame : Frame := ⟨List.replicate (n + 1) (.var 0), {}⟩
    have hdepth : frame.depth = n + 1 := List.length_replicate
    obtain ⟨f, hf⟩ : ∃ f, step {} frame ⟨offset, .invoke dispatch method⟩ = .ok (.next f) :=
      exists_step_invoke hn (by omega)
    obtain ⟨g, hg⟩ : ∃ g, step {} frame b = .ok (.next g) := exists_step_isKnown hb (by omega)
    obtain ⟨n', hn', hcall⟩ := depth_of_invoke hf
    cases hn.symm.trans hn'
    have hkept := depth_of_isKnown hb hg
    have hsame := h {} frame f g hf hg
    omega
  · intro h registry frame f g hf hg
    obtain ⟨n, hn, hcall⟩ := depth_of_invoke hf
    have hkept := depth_of_isKnown hb hg
    have hone := h n hn
    omega

/-! ## Registries -/

/-- Calls of methods with the descriptor that have the given meaning take one operand. -/
def Intrinsic.fits (descriptor : String) : Intrinsic → Bool
  | .box _ => decide (TakesOne .static descriptor)
  | .unbox _ => decide (TakesOne .virtual descriptor)
  | .equals => true

/-- Every method that the registry lets box or unbox takes one operand. -/
def Registry.fits (registry : Registry) : Bool :=
  registry.entries.all fun entry => entry.2.fits entry.1.descriptor

theorem Registry.fits_builtin : builtin.fits = true := by
  decide +kernel

variable {registry : Registry}

theorem Registry.fits_of_get? (h : registry.fits = true) {method : Member} {intrinsic : Intrinsic}
    (hget : registry.get? method = some intrinsic) : intrinsic.fits method.descriptor = true := by
  have hfind : ∀ pattern, registry.find? pattern = some intrinsic → intrinsic.fits pattern.descriptor = true := by
    intro pattern hpattern
    obtain ⟨before, after, hentries, -⟩ := List.lookup_eq_some_iff.mp hpattern
    refine List.all_eq_true.mp h (pattern, intrinsic) ?_
    rw [hentries]
    exact List.mem_append_right before List.mem_cons_self
  rw [get?, Option.orElse_eq_orElse, Option.orElse_eq_or] at hget
  rcases Option.or_eq_some_iff.mp hget with hown | ⟨-, hany⟩
  · exact hfind ⟨some method.owner, method.name, method.descriptor⟩ hown
  · exact hfind ⟨none, method.name, method.descriptor⟩ hany

theorem Recognizes.takesOne {dispatch : Dispatch} {method : Member} {op : Operation}
    (h : Recognizes registry (.invoke dispatch method) op) (hop : op.isKnown = true) (hfits : registry.fits = true) :
    TakesOne dispatch method.descriptor := by
  -- An unboxing entry is checked for one way of dispatch, and all that have a receiver are alike.
  cases h with
  | same _ => cases hop
  | box hget => exact of_decide_eq_true (Registry.fits_of_get? hfits hget)
  | unbox hdispatch hget =>
      unfold TakesOne
      rw [operandCount?_eq_virtual hdispatch]
      exact of_decide_eq_true (Registry.fits_of_get? hfits hget)

namespace Decoding.InstructionsAlike

variable {a b : Instruction}

theorem eq (h : InstructionsAlike registry a b) (hb : b.op.isKnown = false) : a = b := by
  obtain ⟨offset, op⟩ := a
  obtain ⟨offset', op'⟩ := b
  obtain ⟨hoffset, hop⟩ := h
  cases hoffset
  cases hop with
  | same _ => rfl
  | box _ => cases hb
  | unbox _ _ => cases hb

/-- Only a call becomes another operation. -/
theorem exists_invoke (h : InstructionsAlike registry a b) (hb : b.op.isKnown = true) :
    ∃ dispatch method, a = ⟨b.offset, .invoke dispatch method⟩ ∧
      Recognizes registry (.invoke dispatch method) b.op := by
  obtain ⟨offset, op⟩ := a
  obtain ⟨offset', op'⟩ := b
  obtain ⟨hoffset, hop⟩ := h
  cases hoffset
  cases hop with
  | same hop => cases hop.symm.trans hb
  | box hget => exact ⟨_, _, rfl, .box hget⟩
  | unbox hdispatch hget => exact ⟨_, _, rfl, .unbox hdispatch hget⟩

end Decoding.InstructionsAlike

/-- Decoding with a registry replaces calls, and only calls, by operations of their own. Such an operation leaves a
stack as deep as the call does exactly if the call takes one operand, as it does if the registry fits. -/
theorem decode_balanced_iff {pool : Pool} {code : List UInt8} {known : List Instruction}
    (h : decode pool registry code = .ok known) :
    ∃ plain, decode pool {} code = .ok plain ∧ plain.length = known.length ∧
      ∀ (i : Nat) a b, plain[i]? = some a → known[i]? = some b →
        (b.op.isKnown = false → a = b) ∧
        (b.op.isKnown = true → ∃ dispatch method,
          a = ⟨b.offset, .invoke dispatch method⟩ ∧ Recognizes registry (.invoke dispatch method) b.op ∧
          (Balanced a b ↔ TakesOne dispatch method.descriptor) ∧ (registry.fits = true → Balanced a b)) := by
  obtain ⟨plain, hplain, halike⟩ := (Decoding.instructionsFrom_recognizes 0 0 code).exists_of_ok h
  obtain ⟨hlength, halike⟩ := List.forall₂_iff_get.mp halike
  refine ⟨plain, hplain, hlength, fun i a b ha hb => ?_⟩
  obtain ⟨hi, rfl⟩ := List.getElem?_eq_some_iff.mp ha
  obtain ⟨hi', rfl⟩ := List.getElem?_eq_some_iff.mp hb
  have hboth : Decoding.InstructionsAlike registry plain[i] known[i] := halike i hi hi'
  refine ⟨hboth.eq, fun hknown => ?_⟩
  obtain ⟨dispatch, method, hcall, hrecognizes⟩ := hboth.exists_invoke hknown
  have hiff : Balanced plain[i] known[i] ↔ TakesOne dispatch method.descriptor := by
    rw [hcall]
    exact balanced_iff_takesOne hknown
  exact ⟨dispatch, method, hcall, hrecognizes, hiff, fun hfits => hiff.mpr (hrecognizes.takesOne hknown hfits)⟩

/-- The constants of the body `order.quantity.intValue()`. -/
def quantityPool : Pool :=
  ⟨#[.fieldRef ⟨"Order", "quantity", "Ljava/lang/Integer;"⟩, .methodRef ⟨"java/lang/Integer", "intValue", "()I"⟩]⟩

/-- The value of an integer is unwrapped by an operation in balance with the call. -/
theorem decode_balanced_quantity :
    decode quantityPool .builtin [0x2a, 0xb4, 0, 1, 0xb6, 0, 2] = .ok
      [⟨0, .load 0 .unknown⟩, ⟨1, .getField ⟨"Order", "quantity", "Ljava/lang/Integer;"⟩⟩, ⟨4, .unbox .int⟩] ∧
    decode quantityPool {} [0x2a, 0xb4, 0, 1, 0xb6, 0, 2] = .ok
      [⟨0, .load 0 .unknown⟩, ⟨1, .getField ⟨"Order", "quantity", "Ljava/lang/Integer;"⟩⟩,
        ⟨4, .invoke .virtual ⟨"java/lang/Integer", "intValue", "()I"⟩⟩] ∧
    Balanced ⟨4, .invoke .virtual ⟨"java/lang/Integer", "intValue", "()I"⟩⟩ ⟨4, .unbox .int⟩ := by
  have hknown : decode quantityPool .builtin [0x2a, 0xb4, 0, 1, 0xb6, 0, 2] = .ok
      [⟨0, .load 0 .unknown⟩, ⟨1, .getField ⟨"Order", "quantity", "Ljava/lang/Integer;"⟩⟩, ⟨4, .unbox .int⟩] := rfl
  refine ⟨hknown, rfl, ?_⟩
  obtain ⟨plain, hplain, -, h⟩ := decode_balanced_iff hknown
  cases hplain
  obtain ⟨_, _, _, _, _, hfits⟩ := (h 2 _ _ rfl rfl).2 rfl
  exact hfits Registry.fits_builtin

/-- The constants of the body `order.price.amountIn("EUR")`. -/
def amountPool : Pool :=
  ⟨#[.fieldRef ⟨"Order", "price", "LMoney;"⟩, .string "EUR",
    .methodRef ⟨"Money", "amountIn", "(Ljava/lang/String;)J"⟩]⟩

/-- The standard library, and a method that unwraps an amount in the currency that it is given. -/
def amountRegistry : Registry :=
  Registry.builtin.register ⟨some "Money", "amountIn", "(Ljava/lang/String;)J"⟩ (.unbox .long)

/-- A method with an argument that is registered as unboxing leaves that argument on the stack. -/
theorem decode_not_balanced_amount :
    decode amountPool amountRegistry [0x2a, 0xb4, 0, 1, 0x12, 2, 0xb6, 0, 3] = .ok
      [⟨0, .load 0 .unknown⟩, ⟨1, .getField ⟨"Order", "price", "LMoney;"⟩⟩, ⟨4, .push (.str "EUR")⟩,
        ⟨6, .unbox .long⟩] ∧
    decode amountPool {} [0x2a, 0xb4, 0, 1, 0x12, 2, 0xb6, 0, 3] = .ok
      [⟨0, .load 0 .unknown⟩, ⟨1, .getField ⟨"Order", "price", "LMoney;"⟩⟩, ⟨4, .push (.str "EUR")⟩,
        ⟨6, .invoke .virtual ⟨"Money", "amountIn", "(Ljava/lang/String;)J"⟩⟩] ∧
    ¬Balanced ⟨6, .invoke .virtual ⟨"Money", "amountIn", "(Ljava/lang/String;)J"⟩⟩ ⟨6, .unbox .long⟩ := by
  refine ⟨rfl, rfl, fun h => ?_⟩
  have hdepths : 1 = 2 := h amountRegistry ⟨[.literal (.str "EUR"), .var 0], {}⟩ _ _ rfl rfl
  cases hdepths

end PredicateLift
