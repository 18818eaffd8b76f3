import PredicateLift.Symbolic.Step
import PredicateLift.Proofs.Fallible

/-!
# What one instruction can do

Only three operations move control; all others go on to the next instruction. An operation fails for a reason of its
own, never for one that concerns the way through the stream.
-/

namespace PredicateLift

/-- Control goes on to the next instruction. -/
def Operation.Plain : Operation → Prop
  | .branch _ _ => False
  | .jump _ => False
  | .ret _ => False
  | _ => True

/-- The causes that concern the way through a stream, other than stacks of different depths. -/
def Cause.OfControl : Cause → Prop
  | .leftBody => True
  | .noValue => True
  | .missingTarget _ => True
  | .mixedArms => True
  | _ => False

variable {registry : Registry}

/-! ## Effects -/

/-- The four kinds of effects, each with the operations that have it. -/
theorem Operation.run_cases {op : Operation} {frame : Frame} {effect : Effect}
    (h : op.run registry frame = .ok effect) :
    (∃ frame', effect = .next frame' ∧ op.Plain) ∨
    (∃ target, op = .jump target ∧ effect = .jump target frame) ∨
    (∃ condition target test frame', op = .branch condition target ∧
      condition.test frame = .ok (test, frame') ∧ effect = .branch test target frame') ∨
    ∃ kind value frame', op = .ret (some kind) ∧ frame.pop = .ok (value, frame') ∧ effect = .done value := by
  cases op with
  | jump target =>
      cases pure_eq_ok_iff.mp h
      exact .inr (.inl ⟨target, rfl, rfl⟩)
  | branch condition target =>
      obtain ⟨⟨test, frame'⟩, htest, h⟩ := bind_eq_ok_iff.mp h
      cases pure_eq_ok_iff.mp h
      exact .inr (.inr (.inl ⟨condition, target, test, frame', rfl, htest, rfl⟩))
  | ret kind =>
      cases kind with
      | none => cases h
      | some kind =>
          obtain ⟨⟨value, frame'⟩, hpop, h⟩ := bind_eq_ok_iff.mp h
          cases pure_eq_ok_iff.mp h
          exact .inr (.inr (.inr ⟨kind, value, frame', rfl, hpop, rfl⟩))
  | nop | box _ | checkCast _ | push _ | getStatic _ =>
      cases pure_eq_ok_iff.mp h
      exact .inl ⟨_, rfl, trivial⟩
  | load slot _ =>
      simp only [Operation.run] at h
      split at h
      · cases pure_eq_ok_iff.mp h
        exact .inl ⟨_, rfl, trivial⟩
      · cases h
  | unbox _ | store _ _ | negate _ | dup | pop | invoke _ _ =>
      obtain ⟨⟨_, _⟩, _, h⟩ := bind_eq_ok_iff.mp h
      cases pure_eq_ok_iff.mp h
      exact .inl ⟨_, rfl, trivial⟩
  | getField _ | convert _ _ | arrayLength =>
      obtain ⟨⟨_, _⟩, _, h⟩ := bind_eq_ok_iff.mp h
      obtain ⟨_, _, h⟩ := bind_eq_ok_iff.mp h
      cases pure_eq_ok_iff.mp h
      exact .inl ⟨_, rfl, trivial⟩
  | arith _ _ | compareThreeWay _ _ =>
      obtain ⟨⟨_, _⟩, _, h⟩ := bind_eq_ok_iff.mp h
      obtain ⟨⟨_, _⟩, _, h⟩ := bind_eq_ok_iff.mp h
      cases pure_eq_ok_iff.mp h
      exact .inl ⟨_, rfl, trivial⟩
  | arrayLoad _ =>
      obtain ⟨⟨_, _⟩, _, h⟩ := bind_eq_ok_iff.mp h
      obtain ⟨⟨_, _⟩, _, h⟩ := bind_eq_ok_iff.mp h
      obtain ⟨_, _, h⟩ := bind_eq_ok_iff.mp h
      cases pure_eq_ok_iff.mp h
      exact .inl ⟨_, rfl, trivial⟩

theorem step_eq_ok_iff {frame : Frame} {instruction : Instruction} {effect : Effect} :
    step registry frame instruction = .ok effect ↔ instruction.op.run registry frame = .ok effect :=
  mapError_eq_ok_iff

/-! ## Failures -/

/-- The computation does not fail for a cause that concerns the way through a stream. -/
def FailsLocally {α : Type} (x : Except Cause α) : Prop :=
  ∀ cause, x = .error cause → ¬ cause.OfControl

namespace FailsLocally

variable {α β : Type}

theorem ok (a : α) : FailsLocally (.ok a) :=
  WhenError.ok

theorem error {cause : Cause} (h : ¬ cause.OfControl) : FailsLocally (.error cause : Except Cause α) :=
  WhenError.error h

theorem bind {x : Except Cause α} {f : α → Except Cause β} (hx : FailsLocally x) (hf : ∀ a, FailsLocally (f a)) :
    FailsLocally (x >>= f) :=
  WhenError.bind hx hf

end FailsLocally

theorem Frame.pop_failsLocally (frame : Frame) : FailsLocally frame.pop := by
  unfold Frame.pop
  split
  · exact .ok _
  · exact .error id

theorem Frame.popMany_failsLocally (frame : Frame) (n : Nat) : FailsLocally (frame.popMany n) := by
  unfold Frame.popMany
  split
  · exact .ok _
  · exact .error id

theorem Condition.test_failsLocally (condition : Condition) (frame : Frame) :
    FailsLocally (condition.test frame) := by
  cases condition with
  | zero _ | null | nonNull => exact .bind frame.pop_failsLocally fun _ => .ok _
  | ints _ | refs _ =>
      exact .bind frame.pop_failsLocally fun popped => .bind popped.2.pop_failsLocally fun _ => .ok _

namespace Symbolic

theorem readField_failsLocally (receiver : Symbolic) (member : Member) :
    FailsLocally (receiver.readField member) := by
  unfold readField
  split
  · split
    · exact .ok _
    · exact .error id
  · exact .error id
  · exact .ok _

theorem convert_failsLocally (value : Symbolic) (source target : NumericKind) :
    FailsLocally (value.convert source target) := by
  unfold convert
  split
  · split
    · exact .ok _
    · exact .error id
  · split
    · exact .ok _
    · exact .error id

theorem readElement_failsLocally (array index : Symbolic) (kind : Kind) :
    FailsLocally (array.readElement index kind) := by
  unfold readElement
  split
  · split
    · exact .ok _
    · exact .error id
  · exact .error id
  · exact .ok _

theorem readLength_failsLocally (array : Symbolic) : FailsLocally array.readLength := by
  unfold readLength
  split
  · exact .ok _
  · exact .error id
  · exact .ok _

end Symbolic

theorem callResult_failsLocally (method : Member) (receiver : Symbolic) (args : List Symbolic) (kind : Kind) :
    FailsLocally (callResult registry method receiver args kind) := by
  unfold callResult
  split
  · exact .ok _
  · exact .error id
  · split <;> exact .ok _
  · exact .ok _

theorem staticCallResult_failsLocally (method : Member) (args : List Symbolic) (kind : Kind) :
    FailsLocally (staticCallResult registry method args kind) := by
  unfold staticCallResult
  split
  · exact .ok _
  · exact .error id
  · exact .ok _

theorem runCall_failsLocally (dispatch : Dispatch) (method : Member) (frame : Frame) :
    FailsLocally (runCall registry dispatch method frame) := by
  unfold runCall
  split
  · exact .error id
  · split
    · exact .error id
    · refine .bind (frame.popMany_failsLocally _) ?_
      rintro ⟨args, rest⟩
      simp only
      split
      · exact .bind (staticCallResult_failsLocally _ _ _) fun _ => .ok _
      · exact .bind rest.pop_failsLocally fun _ => .bind (callResult_failsLocally _ _ _ _) fun _ => .ok _

theorem Operation.run_failsLocally (op : Operation) (frame : Frame) : FailsLocally (op.run registry frame) := by
  cases op with
  | nop | box _ | checkCast _ | push _ | getStatic _ | jump _ => exact .ok _
  | load slot _ =>
      simp only [Operation.run]
      split
      · exact .ok _
      · exact .error id
  | ret kind =>
      cases kind with
      | none => exact .error id
      | some _ => exact .bind frame.pop_failsLocally fun _ => .ok _
  | unbox _ | store _ _ | negate _ | dup | pop => exact .bind frame.pop_failsLocally fun _ => .ok _
  | branch condition _ => exact .bind (condition.test_failsLocally frame) fun _ => .ok _
  | invoke dispatch method => exact .bind (runCall_failsLocally dispatch method frame) fun _ => .ok _
  | getField member =>
      exact .bind frame.pop_failsLocally fun popped => .bind (popped.1.readField_failsLocally member) fun _ => .ok _
  | convert source target =>
      exact .bind frame.pop_failsLocally fun popped =>
        .bind (popped.1.convert_failsLocally source target) fun _ => .ok _
  | arrayLength =>
      exact .bind frame.pop_failsLocally fun popped => .bind popped.1.readLength_failsLocally fun _ => .ok _
  | arith _ _ | compareThreeWay _ _ =>
      exact .bind frame.pop_failsLocally fun popped => .bind popped.2.pop_failsLocally fun _ => .ok _
  | arrayLoad kind =>
      exact .bind frame.pop_failsLocally fun index => .bind index.2.pop_failsLocally fun array =>
        .bind (array.1.readElement_failsLocally index.1 kind) fun _ => .ok _

/-- A fault of an instruction bears its offset, and does not concern the way through the stream. -/
theorem step_eq_error {frame : Frame} {instruction : Instruction} {fault : Fault}
    (h : step registry frame instruction = .error fault) :
    fault.offset = some instruction.offset ∧ ¬ fault.cause.OfControl := by
  obtain ⟨cause, hrun, rfl⟩ := mapError_eq_error_iff.mp h
  exact ⟨rfl, instruction.op.run_failsLocally frame cause hrun⟩

end PredicateLift
