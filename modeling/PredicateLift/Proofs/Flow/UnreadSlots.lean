import PredicateLift.Proofs.Flow.Recalling
import PredicateLift.Proofs.Symbolic.Locality

/-!
# Slots that are not read

Two frames with the same operands that agree on every slot that some instruction of a stream loads are followed in the
same way: each instruction leaves such frames again, and so does every join. The walk that remembers arms compares whole
frames, and recalls other arms for the one frame than for the other. Since it has the outcome of the walk without
memory, the two reconstructions are equal nevertheless.
-/

namespace PredicateLift

/-- The same operands, and the same bindings of the slots with the given property. -/
structure Frame.AgreeOn (reads : Slot → Prop) (f g : Frame) : Prop where
  stack : f.stack = g.stack
  locals : ∀ slot, reads slot → f.locals.get? slot = g.locals.get? slot

/-- Outcomes of one kind, with the same value or with related frames. -/
inductive Outcome.Related (R : Frame → Frame → Prop) : Outcome → Outcome → Prop where
  | reached {f g} : R f g → Related R (.reached f) (.reached g)
  | returned {value} : Related R (.returned value) (.returned value)

variable {reads : Slot → Prop}

/-! ## Instructions -/

theorem Frame.AgreeOn.set {f g : Frame} {slot : Slot} (value : Symbolic) (h : Frame.AgreeOn reads f g) :
    Frame.AgreeOn reads { f with locals := f.locals.set slot value }
      { g with locals := g.locals.set slot value } := by
  refine ⟨h.stack, fun slot' hread => ?_⟩
  simp only [Locals.get?_set, h.locals slot' hread]

theorem congruence_agreeOn (reads : Slot → Prop) : Congruence (fun _ => False) (Frame.AgreeOn reads) where
  push := by
    intro f g value h
    exact ⟨congrArg (value :: ·) h.stack, h.locals⟩
  pop := by
    rintro ⟨stack, locals⟩ ⟨_, locals'⟩ ⟨rfl, h⟩
    cases stack with
    | nil => exact .error
    | cons value rest => exact .ok ⟨rfl, rfl, h⟩
  popMany := by
    rintro ⟨stack, locals⟩ ⟨_, locals'⟩ n ⟨rfl, h⟩
    unfold Frame.popMany
    split
    · exact .ok ⟨rfl, rfl, h⟩
    · exact .error

/-! ## Joins -/

theorem Frame.AgreeOn.join {a b a' b' : Frame} (test : Symbolic) (ha : Frame.AgreeOn reads a a')
    (hb : Frame.AgreeOn reads b b') :
    EndAlike (fun _ => False) (Frame.AgreeOn reads) (Frame.join test a b) (Frame.join test a' b') := by
  have hdepth : a.depth = a'.depth ∧ b.depth = b'.depth :=
    ⟨congrArg List.length ha.stack, congrArg List.length hb.stack⟩
  unfold Frame.join
  rw [← hdepth.1, ← hdepth.2]
  split
  · refine .ok ⟨?_, fun slot hread => ?_⟩
    · simp only [ha.stack, hb.stack]
    · simp only [Locals.get?_join, ha.locals slot hread, hb.locals slot hread]
  · exact .error

theorem Outcome.Related.join {taken taken' fallthrough fallthrough' : Outcome} (test : Symbolic)
    (ht : Outcome.Related (Frame.AgreeOn reads) taken taken')
    (hf : Outcome.Related (Frame.AgreeOn reads) fallthrough fallthrough') :
    EndAlike (fun _ => False) (Outcome.Related (Frame.AgreeOn reads)) (Outcome.join test taken fallthrough)
      (Outcome.join test taken' fallthrough') := by
  cases ht with
  | reached ha =>
      cases hf with
      | reached hb => exact .bind (ha.join test hb) fun _ _ h => .ok (.reached h)
      | returned => exact .error
  | returned =>
      cases hf with
      | reached _ => exact .error
      | returned => exact .ok .returned

/-! ## Following a stream -/

namespace Stream

/-- Some instruction loads the slot. -/
def Reads (code : List Instruction) (slot : Slot) : Prop :=
  ∃ instruction ∈ code, ∃ kind, instruction.op = .load slot kind

variable {stream : Stream} {registry : Registry} {f g : Frame}

theorem step_agreeOn {code : List Instruction} {instruction : Instruction} (hmem : instruction ∈ code)
    (h : Frame.AgreeOn (Reads code) f g) :
    EndAlike (fun _ => False) (Effect.Related (Frame.AgreeOn (Reads code))) (step registry f instruction)
      (step registry g instruction) := by
  have hload : ∀ slot kind, instruction.op = .load slot kind → f.locals.get? slot = g.locals.get? slot :=
    fun slot kind hload => h.locals slot ⟨instruction, hmem, kind, hload⟩
  exact ((congruence_agreeOn (Reads code)).run h hload fun _ _ _ _ _ value h => h.set value).mapError fun _ h => h

/-- From one place to another the walk has related outcomes, or fails with the same fault. -/
theorem walk_agreeOn {steps i stop : Nat} (h : Frame.AgreeOn (Reads stream.code) f g) :
    EndAlike (fun _ => False) (Outcome.Related (Frame.AgreeOn (Reads stream.code)))
      (walk stream registry steps i f stop) (walk stream registry steps i g stop) := by
  induction steps generalizing i f g stop with
  | zero =>
      by_cases hne : i = stop
      · subst hne
        rw [walk_stop, walk_stop]
        exact .ok (.reached h)
      · rw [walk_zero hne, walk_zero hne]
        exact .error
  | succ steps ih =>
      by_cases hne : i = stop
      · subst hne
        rw [walk_stop, walk_stop]
        exact .ok (.reached h)
      cases hi : stream.code[i]? with
      | none =>
          rw [walk_outside hne hi, walk_outside hne hi]
          exact .error
      | some instruction =>
          rw [walk_succ hne hi, walk_succ hne hi]
          refine .bind (step_agreeOn (List.mem_of_getElem? hi) h) fun effect effect' heffect => ?_
          cases heffect with
          | next h => exact ih h
          | jump h => exact .bind_same fun j => ih h
          | done => exact .ok .returned
          | branch h =>
              -- Both arms end alike, and so does the join from which the walk goes on.
              refine .bind_same fun j => .bind (ih h) fun taken taken' htaken =>
                .bind (ih h) fun fallthrough fallthrough' hfall =>
                  .bind ((htaken.join _ hfall).mapError fun _ h => h) fun joined joined' hjoined => ?_
              cases hjoined with
              | reached h => exact ih h
              | returned => exact .ok .returned

/-- Slots that no instruction loads do not influence what is reconstructed from an accepted list: frames with the same
operands that agree on all other slots give the same value or the same fault. -/
theorem reconstruct_eq_of_agreeOn {code : List Instruction} (hcode : ofList code = .ok stream) (registry : Registry)
    (hstack : f.stack = g.stack) (hlocals : ∀ slot, Reads code slot → f.locals.get? slot = g.locals.get? slot) :
    stream.reconstruct registry f = stream.reconstruct registry g := by
  obtain ⟨hacc, rfl⟩ := accepted_of_ofList hcode
  rw [hacc.reconstruct_eq, hacc.reconstruct_eq]
  refine EndAlike.eq (.bind (walk_agreeOn ⟨hstack, hlocals⟩) fun outcome outcome' houtcome => ?_)
  cases houtcome with
  | reached _ => exact .error
  | returned => exact .ok rfl

/-- `disjunction` reads the subject alone: a captured value in another slot makes no difference. -/
theorem reconstruct_eq_of_agreeOn_disjunction :
    ∃ stream, ofList disjunction = .ok stream ∧
      (∀ slot, Reads disjunction slot → slot = 0) ∧
      stream.reconstruct .builtin ⟨[], ⟨[(0, .var 0), (1, .literal (.int 30))]⟩⟩ =
        stream.reconstruct .builtin ⟨[], ⟨[(0, .var 0)]⟩⟩ ∧
      stream.reconstruct .builtin ⟨[], ⟨[(0, .var 0)]⟩⟩ =
        .ok (.logical .or (.field (.var 0) ⟨"a/Item", "sold", "Z"⟩)
          (.not (.not (.field (.var 0) ⟨"a/Item", "lost", "Z"⟩)))) := by
  have h : ofList disjunction = .ok ⟨disjunction, [1, 2, 9, 4, 5, 9, 7, 9, 9, 10, 10]⟩ := rfl
  have hreads : ∀ slot, Reads disjunction slot → slot = 0 := by
    rintro slot ⟨instruction, hmem, kind, hload⟩
    simp only [disjunction, List.mem_cons, List.not_mem_nil, or_false] at hmem
    rcases hmem with rfl | rfl | rfl | rfl | rfl | rfl | rfl | rfl | rfl | rfl <;> cases hload <;> rfl
  refine ⟨_, h, hreads, reconstruct_eq_of_agreeOn h .builtin rfl fun slot hslot => ?_, rfl⟩
  rw [hreads slot hslot]
  rfl

end Stream

end PredicateLift
