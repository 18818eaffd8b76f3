import PredicateLift.Proofs.Fallible
import PredicateLift.Proofs.Symbolic.Frames
import PredicateLift.Symbolic.Step

/-!
# Instructions act on the top of the stack

A relation between frames is a congruence if it is kept when the same operands are put on both stacks or taken from
them. What an instruction does to two frames in such a relation is related again, if it reads the same from the slot
that it loads. Two congruences give the main statement: operands further down the stack make no difference to an
instruction, and it changes no slot but the one that it stores to.
-/

namespace PredicateLift

/-! ## Congruences -/

/-- The same operands, and related frames. -/
def SameOperands {α : Type} (R : Frame → Frame → Prop) (p q : α × Frame) : Prop :=
  p.1 = q.1 ∧ R p.2 q.2

/-- The relation is kept when both frames get the same operand and when both give up as many operands, which are the
same then. -/
structure Congruence (excused : Cause → Prop) (R : Frame → Frame → Prop) : Prop where
  push : ∀ {f g} value, R f g → R (f.push value) (g.push value)
  pop : ∀ {f g}, R f g → EndAlike excused (SameOperands R) f.pop g.pop
  popMany : ∀ {f g} n, R f g → EndAlike excused (SameOperands R) (f.popMany n) (g.popMany n)

/-- Effects of one kind, with the same target, test and value, that leave related frames. -/
inductive Effect.Related (R : Frame → Frame → Prop) : Effect → Effect → Prop where
  | next {f g} : R f g → Related R (.next f) (.next g)
  | jump {target f g} : R f g → Related R (.jump target f) (.jump target g)
  | branch {test target f g} : R f g → Related R (.branch test target f) (.branch test target g)
  | done {value} : Related R (.done value) (.done value)

namespace Congruence

variable {excused : Cause → Prop} {R : Frame → Frame → Prop} {registry : Registry} {f g : Frame}

theorem bind_pop {α β : Type} {S : α → β → Prop} {next : Symbolic × Frame → Except Cause α}
    {next' : Symbolic × Frame → Except Cause β} (hR : Congruence excused R) (h : R f g)
    (hnext : ∀ value f' g', R f' g' → EndAlike excused S (next (value, f')) (next' (value, g'))) :
    EndAlike excused S (f.pop >>= next) (g.pop >>= next') := by
  refine .bind (hR.pop h) ?_
  rintro ⟨value, f'⟩ ⟨_, g'⟩ ⟨rfl, h'⟩
  exact hnext value f' g' h'

theorem test (hR : Congruence excused R) (condition : Condition) (h : R f g) :
    EndAlike excused (SameOperands R) (condition.test f) (condition.test g) := by
  cases condition with
  | zero _ | null | nonNull => exact hR.bind_pop h fun _ _ _ h₁ => .ok ⟨rfl, h₁⟩
  | ints _ | refs _ => exact hR.bind_pop h fun _ _ _ h₁ => hR.bind_pop h₁ fun _ _ _ h₂ => .ok ⟨rfl, h₂⟩

theorem runCall (hR : Congruence excused R) (dispatch : Dispatch) (method : Member) (h : R f g) :
    EndAlike excused (SameOperands R) (PredicateLift.runCall registry dispatch method f)
      (PredicateLift.runCall registry dispatch method g) := by
  unfold PredicateLift.runCall
  split
  · exact .error
  · split
    · exact .error
    · refine .bind (hR.popMany _ h) ?_
      rintro ⟨args, f₁⟩ ⟨_, g₁⟩ ⟨rfl, h₁⟩
      simp only
      split
      · exact .bind_same fun _ => .ok ⟨rfl, h₁⟩
      · exact hR.bind_pop h₁ fun _ _ _ h₂ => .bind_same fun _ => .ok ⟨rfl, h₂⟩

/-- An operation keeps a congruence, if both frames agree on the slot that it loads, and binding the slot that it stores
to keeps the relation. -/
theorem run (hR : Congruence excused R) {op : Operation} (h : R f g)
    (hload : ∀ slot kind, op = .load slot kind → f.locals.get? slot = g.locals.get? slot)
    (hstore : ∀ slot kind, op = .store slot kind → ∀ {f g} value, R f g →
      R { f with locals := f.locals.set slot value } { g with locals := g.locals.set slot value }) :
    EndAlike excused (Effect.Related R) (op.run registry f) (op.run registry g) := by
  cases op with
  | nop | box _ | checkCast _ => exact .ok (.next h)
  | jump _ => exact .ok (.jump h)
  | push _ | getStatic _ => exact .ok (.next (hR.push _ h))
  | load slot kind =>
      simp only [Operation.run, hload slot kind rfl]
      cases g.locals.get? slot with
      | none => exact .error
      | some value => exact .ok (.next (hR.push value h))
  | store slot kind => exact hR.bind_pop h fun value _ _ h₁ => .ok (.next (hstore slot kind rfl value h₁))
  | ret kind =>
      cases kind with
      | none => exact .error
      | some _ => exact hR.bind_pop h fun _ _ _ _ => .ok .done
  | branch condition _ =>
      refine .bind (hR.test condition h) ?_
      rintro ⟨test, f₁⟩ ⟨_, g₁⟩ ⟨rfl, h₁⟩
      exact .ok (.branch h₁)
  | invoke dispatch method =>
      refine .bind (hR.runCall dispatch method h) ?_
      rintro ⟨value, f₁⟩ ⟨_, g₁⟩ ⟨rfl, h₁⟩
      exact .ok (.next (hR.push value h₁))
  | unbox _ | negate _ => exact hR.bind_pop h fun _ _ _ h₁ => .ok (.next (hR.push _ h₁))
  | dup => exact hR.bind_pop h fun value _ _ h₁ => .ok (.next (hR.push value (hR.push value h₁)))
  | pop => exact hR.bind_pop h fun _ _ _ h₁ => .ok (.next h₁)
  | getField _ | convert _ _ | arrayLength =>
      exact hR.bind_pop h fun _ _ _ h₁ => .bind_same fun _ => .ok (.next (hR.push _ h₁))
  | arith _ _ | compareThreeWay _ _ =>
      exact hR.bind_pop h fun _ _ _ h₁ => hR.bind_pop h₁ fun _ _ _ h₂ => .ok (.next (hR.push _ h₂))
  | arrayLoad _ =>
      exact hR.bind_pop h fun _ _ _ h₁ => hR.bind_pop h₁ fun _ _ _ h₂ =>
        .bind_same fun _ => .ok (.next (hR.push _ h₂))

end Congruence

/-! ## Operands further down -/

/-- The frame with further operands beneath its own. -/
def Frame.on (frame : Frame) (below : List Symbolic) : Frame :=
  { frame with stack := frame.stack ++ below }

def Effect.on (below : List Symbolic) : Effect → Effect
  | .next frame => .next (frame.on below)
  | .jump target frame => .jump target (frame.on below)
  | .branch test target frame => .branch test target (frame.on below)
  | .done value => .done value

theorem congruence_on (below : List Symbolic) :
    Congruence (fun cause => cause.reason = .stackUnderflow) (fun f g => g = f.on below) where
  push := by
    rintro f _ value rfl
    rfl
  pop := by
    rintro ⟨stack, locals⟩ _ rfl
    cases stack with
    | nil => exact .excused rfl
    | cons value rest => exact .ok ⟨rfl, rfl⟩
  popMany := by
    rintro f _ n rfl
    unfold Frame.popMany
    split
    · rename_i hn
      have hn' : n ≤ (f.on below).stack.length := Nat.le_trans hn (by simp [Frame.on])
      rw [if_pos hn']
      refine .ok ⟨?_, ?_⟩
      · simp only [Frame.on, List.take_append_of_le_length hn]
      · simp only [Frame.on, List.drop_append_of_le_length hn]
    · exact .excused rfl

theorem Effect.eq_on_of_related (below : List Symbolic) (e e' : Effect)
    (h : Effect.Related (fun f g => g = f.on below) e e') : e' = e.on below := by
  cases h with
  | next h => exact congrArg Effect.next h
  | jump h => exact congrArg (Effect.jump _) h
  | branch h => exact congrArg (Effect.branch _ _) h
  | done => rfl

/-! ## Slots -/

def Effect.frame? : Effect → Option Frame
  | .next frame => some frame
  | .jump _ frame => some frame
  | .branch _ _ frame => some frame
  | .done _ => none

/-- A frame is only related to itself, and only if it has the given local variables. -/
theorem congruence_locals (locals : Locals) :
    Congruence (fun _ => False) (fun f g => f = g ∧ f.locals = locals) where
  push := by
    rintro f _ value ⟨rfl, h⟩
    exact ⟨rfl, h⟩
  pop := by
    rintro ⟨stack, _⟩ _ ⟨rfl, h⟩
    cases stack with
    | nil => exact .error
    | cons value rest => exact .ok ⟨rfl, rfl, h⟩
  popMany := by
    rintro f _ n ⟨rfl, h⟩
    unfold Frame.popMany
    split
    · exact .ok ⟨rfl, rfl, h⟩
    · exact .error

/-- Only a store changes a slot, and no other slot than its own. -/
theorem Operation.run_locals {registry : Registry} {op : Operation} {frame frame' : Frame} {effect : Effect}
    (h : op.run registry frame = .ok effect) (hframe : effect.frame? = some frame') :
    frame'.locals = frame.locals ∨
      ∃ stored kind, op = .store stored kind ∧
        ∀ slot, slot ≠ stored → frame'.locals.get? slot = frame.locals.get? slot := by
  by_cases hop : ∃ stored kind, op = .store stored kind
  · obtain ⟨stored, kind, rfl⟩ := hop
    obtain ⟨⟨value, rest⟩, hpop, h⟩ := bind_eq_ok_iff.mp h
    cases pure_eq_ok_iff.mp h
    cases hframe
    refine .inr ⟨stored, kind, rfl, fun slot hslot => ?_⟩
    rw [Frame.eq_push_of_pop hpop, Locals.get?_set, if_neg hslot]
    rfl
  · -- Compared with itself, the run tells which local variables it leaves.
    have hrun : EndAlike _ _ (op.run registry frame) (op.run registry frame) :=
      (congruence_locals frame.locals).run ⟨rfl, rfl⟩ (fun _ _ _ => rfl)
        fun stored kind hstored => absurd ⟨stored, kind, hstored⟩ hop
    rw [h] at hrun
    cases hrun with
    | ok hrelated =>
        cases hrelated with
        | next hf | jump hf | branch hf =>
            cases hframe
            exact .inl hf.2
        | done => cases hframe

/-! ## Steps -/

/-- An instruction acts on the top of the stack only. With further operands beneath, it has the same effect, which
leaves them where they are, or fails with the same fault, unless the stack ran out of operands without them. And it
changes no slot but the one that it stores to. -/
theorem step_on (registry : Registry) (instruction : Instruction) (frame : Frame) (below : List Symbolic) :
    ((∀ fault, step registry frame instruction = .error fault → fault.reason ≠ .stackUnderflow) →
      step registry (frame.on below) instruction = (step registry frame instruction).map (Effect.on below)) ∧
    ∀ effect frame', step registry frame instruction = .ok effect → effect.frame? = some frame' →
      frame'.locals = frame.locals ∨
        ∃ stored kind, instruction.op = .store stored kind ∧
          ∀ slot, slot ≠ stored → frame'.locals.get? slot = frame.locals.get? slot := by
  constructor
  · intro hfault
    have hrun : EndAlike _ _ (instruction.op.run registry frame) (instruction.op.run registry (frame.on below)) :=
      (congruence_on below).run rfl (fun _ _ _ => rfl) fun _ _ _ _ _ _ h => h ▸ rfl
    exact (hrun.mapError fun _ h => h).eq_map (Effect.eq_on_of_related below) hfault
  · intro effect frame' hstep hframe
    exact Operation.run_locals (mapError_eq_ok_iff.mp hstep) hframe

def namesEqual : Instruction :=
  ⟨4, .invoke .static ⟨"java/util/Objects", "equals", "(Ljava/lang/Object;Ljava/lang/Object;)Z"⟩⟩

/-- A comparison of the subject with a name takes two operands, whether or not there is a third one. -/
theorem step_on_namesEqual :
    step .builtin ⟨[.literal (.str "gold"), .var 0], {}⟩ namesEqual =
      .ok (.next ⟨[.compare .eq (.var 0) (.literal (.str "gold"))], {}⟩) ∧
    step .builtin ⟨[.literal (.str "gold"), .var 0, .literal (.int 7)], {}⟩ namesEqual =
      .ok (.next ⟨[.compare .eq (.var 0) (.literal (.str "gold")), .literal (.int 7)], {}⟩) := by
  have hstep : step .builtin ⟨[.literal (.str "gold"), .var 0], {}⟩ namesEqual =
      .ok (.next ⟨[.compare .eq (.var 0) (.literal (.str "gold"))], {}⟩) := rfl
  refine ⟨hstep, ?_⟩
  have hon := (step_on .builtin namesEqual ⟨[.literal (.str "gold"), .var 0], {}⟩ [.literal (.int 7)]).1
  rw [hstep] at hon
  exact hon fun fault h => by cases h

end PredicateLift
