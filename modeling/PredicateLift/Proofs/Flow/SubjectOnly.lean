import PredicateLift.Proofs.Flow.Following
import PredicateLift.Proofs.Symbolic.Effects
import PredicateLift.Proofs.Symbolic.Variables

/-!
# Only the subject stays symbolic

On entry to a body every local variable holds a literal or the subject. Following a stream brings in no variable, so
wherever it comes, in every arm and after every join, all variables in operands, local variables, tests and returned
values are the subject. What is reconstructed therefore never fails to have a query form for a variable that is not
resolved.
-/

namespace PredicateLift

variable {subject : Slot}

/-- Every variable that occurs in what an arm ends with is the subject. -/
def Outcome.Over (subject : Slot) : Outcome → Prop
  | .reached frame => frame.Over subject
  | .returned value => value.Over subject

/-! ## Entry -/

theorem over_initial {captures : Captures} {frame : Frame} (h : Frame.initial subject captures = .ok frame) :
    frame.Over subject := by
  obtain ⟨-, rfl⟩ := Frame.initial_eq_ok_iff.mp h
  have hempty : Frame.Over subject {} := ⟨List.forall_mem_nil _, fun _ _ h => by cases h⟩
  have hcaptures : Frame.Over subject { locals := .ofCaptures captures } := by
    refine Locals.ofCaptures_induction (P := fun locals => Frame.Over subject { locals := locals }) hempty ?_ _
    intro locals slot value hlocals
    exact hlocals.set slot trivial
  exact hcaptures.set subject (Eq.refl subject)

/-! ## Following a stream -/

namespace Stream

variable {stream : Stream} {registry : Registry}

theorem Performs.over {i : Nat} {frame : Frame} {effect : Effect} (hp : Performs stream registry i frame effect)
    (h : frame.Over subject) : effect.Over subject := by
  obtain ⟨instruction, _, hs⟩ := hp
  exact h.run instruction.op effect (step_eq_ok_iff.mp hs)

/-- An arm ends with nothing but the subject for a variable, if it starts so. -/
theorem Follows.over {i : Nat} {frame : Frame} {stop : Nat} {outcome : Outcome}
    (hf : Follows stream registry i frame stop outcome) (h : frame.Over subject) : outcome.Over subject := by
  induction hf with
  | stopped => exact h
  | next _ hp _ ih => exact ih (hp.over h)
  | jump _ hp _ _ ih => exact ih (hp.over h)
  | done _ hp => exact hp.over h
  | returned _ hp _ _ _ iha ihb =>
      obtain ⟨ht, hframe⟩ := hp.over h
      exact over_joinValues ht (iha hframe) (ihb hframe)
  | joined _ hp _ _ _ hjoin _ iha ihb ih =>
      obtain ⟨ht, hframe⟩ := hp.over h
      exact ih (Frame.Over.join ht (iha hframe) (ihb hframe) _ hjoin)

theorem Leads.over {c d : Config} (hd : Leads stream registry c d) (h : c.frame.Over subject) :
    d.frame.Over subject := by
  cases hd with
  | next _ hp => exact hp.over h
  | jump _ hp _ => exact hp.over h
  | taken _ hp _ => exact (hp.over h).2
  | fallthrough _ hp _ _ => exact (hp.over h).2
  | joined _ hp _ hta hfb hjoin =>
      obtain ⟨ht, hframe⟩ := hp.over h
      exact Frame.Over.join ht (hta.over hframe) (hfb.over hframe) _ hjoin

theorem Visits.over {c d : Config} (hd : Visits stream registry c d) (h : c.frame.Over subject) :
    d.frame.Over subject := by
  induction hd with
  | refl => exact h
  | tail _ hstep ih => exact hstep.over ih

/-! ## Reconstruction -/

/-- Only the subject is left symbolic. At every configuration that is met, inside of arms and after joins, each operand
and local variable, what the instruction there leaves, tests or returns, and what an arm from there ends with, has no
variable but the subject; and so has the reconstructed value. It may have no query form, but not for a capture that is
not resolved. -/
theorem reconstruct_over (stream : Stream) (registry : Registry) {captures : Captures} {frame : Frame}
    (hframe : Frame.initial subject captures = .ok frame) :
    (∀ c, Visits stream registry ⟨0, frame, stream.size⟩ c →
      c.frame.Over subject ∧
      (∀ effect, Performs stream registry c.place c.frame effect → effect.Over subject) ∧
      ∀ outcome, Follows stream registry c.place c.frame c.stop outcome → outcome.Over subject) ∧
    ∀ value, stream.reconstruct registry frame = .ok value →
      value.Over subject ∧
      ∀ fault, value.toBool.lower subject = .error fault → fault.reason ≠ .unresolvableCapture := by
  have hentry := over_initial hframe
  refine ⟨fun c hc => ?_, fun value hvalue => ?_⟩
  · have h := hc.over hentry
    exact ⟨h, fun _ hp => hp.over h, fun _ hf => hf.over h⟩
  · have h : value.Over subject := (reconstruct_follows hvalue).over hentry
    refine ⟨h, fun fault hfault hreason => ?_⟩
    cases hreason.symm.trans (Symbolic.lower_over _ h.toBool fault hfault)

/-- Code that replaces a captured value by the subject on one of two ways, and returns it. -/
def replacement : List Instruction := [
  ⟨0, .load 1 .int⟩,
  ⟨1, .branch (.zero .eq) 6⟩,
  ⟨4, .load 0 .unknown⟩,
  ⟨5, .store 1 .unknown⟩,
  ⟨6, .load 1 .unknown⟩,
  ⟨7, .ret (some .int)⟩]

def replacedValue : Symbolic :=
  .conditional (.compare .eq (.literal (.int 30)) (.literal (.int 0))) (.literal (.int 30)) (.var 0)

/-- After the join in `replacement` slot 1 holds a choice between the captured value and the subject. -/
theorem reconstruct_over_replacement :
    ∃ stream frame, ofList replacement = .ok stream ∧
      Frame.initial 0 ⟨[.inferred 1 (.int 30)]⟩ = .ok frame ∧
      stream.reconstruct .builtin frame = .ok replacedValue ∧ replacedValue.Over 0 ∧
      ∀ fault, replacedValue.toBool.lower 0 = .error fault → fault.reason ≠ .unresolvableCapture := by
  have hframe : Frame.initial 0 ⟨[.inferred 1 (.int 30)]⟩ =
      .ok ⟨[], ⟨[(0, .var 0), (1, .literal (.int 30))]⟩⟩ := rfl
  have hvalue : Stream.reconstruct ⟨replacement, [1, 4, 3, 4, 5, 6, 6]⟩ .builtin
      ⟨[], ⟨[(0, .var 0), (1, .literal (.int 30))]⟩⟩ = .ok replacedValue := rfl
  exact ⟨_, _, rfl, hframe, hvalue, (reconstruct_over _ .builtin hframe).2 _ hvalue⟩

end Stream

end PredicateLift
