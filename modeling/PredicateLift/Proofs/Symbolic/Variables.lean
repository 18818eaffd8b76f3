import PredicateLift.Flow.Join
import PredicateLift.Proofs.Fallible
import PredicateLift.Proofs.Symbolic.Frames
import PredicateLift.Symbolic.Lowering
import PredicateLift.Symbolic.Step

/-!
# Variables in symbolic values

No operation and no join brings a new variable into a frame: what it leaves is made of literals and of values that
were there before. So a frame in which only the subject occurs as a variable stays one. A value in which only the
subject occurs may have no query form, but never for a variable that is not resolved.
-/

namespace PredicateLift

namespace Symbolic

mutual

/-- Every variable that occurs in the value is the subject. -/
@[simp] def Over (subject : Slot) : Symbolic → Prop
  | literal _ => True
  | var slot => slot = subject
  | field receiver _ => receiver.Over subject
  | call receiver _ args _ => receiver.Over subject ∧ OverAll subject args
  | staticCall _ args _ => OverAll subject args
  | negative operand _ => operand.Over subject
  | arith _ _ left right => left.Over subject ∧ right.Over subject
  | compare _ left right => left.Over subject ∧ right.Over subject
  | not operand => operand.Over subject
  | logical _ left right => left.Over subject ∧ right.Over subject
  | unboxed value _ => value.Over subject
  | threeWay left right _ => left.Over subject ∧ right.Over subject
  | conditional test thenValue elseValue =>
    test.Over subject ∧ thenValue.Over subject ∧ elseValue.Over subject
  | element array index _ => array.Over subject ∧ index.Over subject
  | length array => array.Over subject

/-- Every variable that occurs in a member of the list is the subject. -/
@[simp] def OverAll (subject : Slot) : List Symbolic → Prop
  | [] => True
  | s :: rest => s.Over subject ∧ OverAll subject rest

end

variable {subject : Slot}

theorem overAll_iff {args : List Symbolic} : OverAll subject args ↔ ∀ s ∈ args, s.Over subject := by
  induction args with
  | nil => simp
  | cons s rest ih => simp [ih]

/-! ## Operations on values -/

theorem Over.toBool {s : Symbolic} (h : s.Over subject) : s.toBool.Over subject := by
  refine toBool_induction (P := fun s s' => s.Over subject → s'.Over subject) ?_ ?_ (fun _ => id) ?_ s h
  · exact fun _ => trivial
  · exact fun _ => trivial
  · intro test a a' b b' ha hb h
    exact ⟨h.1, ha h.2.1, hb h.2.2⟩

theorem Over.unbox {s : Symbolic} (h : s.Over subject) (kind : Kind) : (s.unbox kind).Over subject := by
  unfold Symbolic.unbox
  split
  · exact h
  · split <;> simpa using h

theorem Over.readField {receiver : Symbolic} (h : receiver.Over subject) (member : Member) :
    WhenOk (receiver.readField member) (Over subject) := by
  unfold Symbolic.readField
  split
  · split
    · exact .ok (by simp)
    · exact .error
  · exact .error
  · exact .ok (by simpa using h)

theorem Over.convert {s : Symbolic} (h : s.Over subject) (source target : NumericKind) :
    WhenOk (s.convert source target) (Over subject) := by
  unfold Symbolic.convert
  split
  · split
    · exact .ok (by simp)
    · exact .error
  · split
    · exact .ok h
    · exact .error

theorem Over.readElement {array index : Symbolic} (ha : array.Over subject) (hi : index.Over subject) (kind : Kind) :
    WhenOk (array.readElement index kind) (Over subject) := by
  unfold Symbolic.readElement
  split
  · split
    · exact .ok (by simp)
    · exact .error
  · exact .error
  · exact .ok ⟨ha, hi⟩

theorem Over.readLength {array : Symbolic} (h : array.Over subject) : WhenOk array.readLength (Over subject) := by
  unfold Symbolic.readLength
  split
  · exact .ok (by simp)
  · exact .error
  · exact .ok h

theorem Over.zeroTest {s : Symbolic} (h : s.Over subject) (op : Comparison) :
    (PredicateLift.zeroTest op s).Over subject := by
  unfold PredicateLift.zeroTest
  split
  · unfold threeWayTest
    split
    · exact h
    · split <;> exact h
  · split
    · exact h
    · split
      · exact h
      · exact ⟨h, trivial⟩

end Symbolic

variable {subject : Slot} {registry : Registry}

/-! ## Joins -/

open Symbolic

theorem Symbolic.Over.of_splitTail? {s tail left : Symbolic} {op : Connective} (h : s.Over subject)
    (hs : s.splitTail? tail = some (op, left)) : left.Over subject := by
  rw [Symbolic.eq_of_splitTail? hs] at h
  exact h.1

theorem over_joinBooleans {test taken fallthrough : Symbolic} (ht : test.Over subject) (ha : taken.Over subject)
    (hb : fallthrough.Over subject) : (joinBooleans test taken fallthrough).Over subject := by
  unfold joinBooleans
  split
  · exact ht
  · exact ht
  · exact ⟨ht, hb⟩
  · exact ⟨ht, hb⟩
  · exact ⟨ht, ha⟩
  · exact ⟨ht, ha⟩
  · split
    · rename_i hs
      exact ⟨⟨ht, hb.of_splitTail? hs⟩, ha⟩
    · rename_i hs
      exact ⟨⟨ht, hb.of_splitTail? hs⟩, ha⟩
    · split
      · rename_i hs
        exact ⟨⟨ht, ha.of_splitTail? hs⟩, hb⟩
      · rename_i hs
        exact ⟨⟨ht, ha.of_splitTail? hs⟩, hb⟩
      · exact ⟨⟨ht, ha⟩, ht, hb⟩

theorem over_joinValues {test taken fallthrough : Symbolic} (ht : test.Over subject) (ha : taken.Over subject)
    (hb : fallthrough.Over subject) : (joinValues test taken fallthrough).Over subject := by
  unfold joinValues
  split
  · exact ha
  · split
    · exact over_joinBooleans ht ha.toBool hb.toBool
    · split
      · exact ⟨ht, ha.toBool, hb.toBool⟩
      · exact ⟨ht, ha, hb⟩

/-! ## Frames -/

/-- Every variable that occurs in an operand or a local variable is the subject. -/
structure Frame.Over (subject : Slot) (frame : Frame) : Prop where
  stack : ∀ s ∈ frame.stack, s.Over subject
  locals : ∀ slot s, frame.locals.get? slot = some s → s.Over subject

namespace Frame.Over

variable {frame : Frame} {s : Symbolic}

theorem push (h : frame.Over subject) (hs : s.Over subject) : (frame.push s).Over subject :=
  ⟨List.forall_mem_cons.mpr ⟨hs, h.stack⟩, h.locals⟩

theorem pop (h : frame.Over subject) : WhenOk frame.pop fun p => p.1.Over subject ∧ p.2.Over subject := by
  rintro ⟨s, rest⟩ hpop
  rw [Frame.eq_push_of_pop hpop] at h
  obtain ⟨hs, hrest⟩ := List.forall_mem_cons.mp h.stack
  exact ⟨hs, hrest, h.locals⟩

theorem popMany (h : frame.Over subject) (n : Nat) :
    WhenOk (frame.popMany n) fun p => OverAll subject p.1 ∧ p.2.Over subject := by
  rintro ⟨args, rest⟩ hpop
  obtain ⟨rfl, _⟩ := Frame.stack_of_popMany hpop
  refine ⟨overAll_iff.mpr fun s hs => h.stack s ?_, fun s hs => h.stack s (List.mem_append_right _ hs), h.locals⟩
  exact List.mem_append_left _ (List.mem_reverse.mpr hs)

theorem set (h : frame.Over subject) (slot : Slot) (hs : s.Over subject) :
    Frame.Over subject { frame with locals := frame.locals.set slot s } := by
  refine ⟨h.stack, fun slot' t ht => ?_⟩
  simp only [Locals.get?_set] at ht
  split at ht
  · cases ht
    exact hs
  · exact h.locals slot' t ht

theorem join {test : Symbolic} {taken fallthrough : Frame} (ht : test.Over subject) (ha : taken.Over subject)
    (hb : fallthrough.Over subject) : WhenOk (Frame.join test taken fallthrough) (Frame.Over subject) := by
  unfold Frame.join
  split
  · refine .ok ⟨fun s hs => ?_, fun slot s hs => ?_⟩
    · rw [← List.map_uncurry_zip_eq_zipWith] at hs
      obtain ⟨⟨a, b⟩, hab, rfl⟩ := List.mem_map.mp hs
      obtain ⟨hmema, hmemb⟩ := List.of_mem_zip hab
      exact over_joinValues ht (ha.stack a hmema) (hb.stack b hmemb)
    · obtain ⟨a, b, hgeta, hgetb, rfl⟩ := Locals.get?_join_eq_some hs
      exact over_joinValues ht (ha.locals slot a hgeta) (hb.locals slot b hgetb)
  · exact .error

end Frame.Over

/-! ## Operations -/

theorem over_callResult {method : Member} {receiver : Symbolic} {args : List Symbolic} {kind : Kind}
    (hr : receiver.Over subject) (hargs : OverAll subject args) :
    WhenOk (callResult registry method receiver args kind) (Symbolic.Over subject) := by
  unfold callResult
  split
  · exact .ok ⟨hr, hargs.1⟩
  · exact .error
  · split
    · exact .ok trivial
    · exact .ok ⟨hr, trivial⟩
  · exact .ok ⟨hr, hargs⟩

theorem over_staticCallResult {method : Member} {args : List Symbolic} {kind : Kind} (hargs : OverAll subject args) :
    WhenOk (staticCallResult registry method args kind) (Symbolic.Over subject) := by
  unfold staticCallResult
  split
  · exact .ok ⟨hargs.1, hargs.2.1⟩
  · exact .error
  · exact .ok hargs

/-- Every variable that occurs in what an effect leaves, tests or returns is the subject. -/
def Effect.Over (subject : Slot) : Effect → Prop
  | .next frame => frame.Over subject
  | .jump _ frame => frame.Over subject
  | .branch test _ frame => test.Over subject ∧ frame.Over subject
  | .done value => value.Over subject

namespace Frame.Over

variable {frame : Frame}

theorem bind_pop {α : Type} {f : Symbolic × Frame → Except Cause α} {Q : α → Prop} (h : frame.Over subject)
    (hf : ∀ s rest, s.Over subject → rest.Over subject → WhenOk (f (s, rest)) Q) : WhenOk (frame.pop >>= f) Q :=
  .bind h.pop fun p hp => hf p.1 p.2 hp.1 hp.2

theorem runCall (h : frame.Over subject) (dispatch : Dispatch) (method : Member) :
    WhenOk (PredicateLift.runCall registry dispatch method frame) fun p =>
      p.1.Over subject ∧ p.2.Over subject := by
  unfold PredicateLift.runCall
  split
  · exact .error
  · split
    · exact .error
    · refine .bind (h.popMany _) ?_
      rintro ⟨args, rest⟩ ⟨hargs, hrest⟩
      simp only
      split
      · exact .bind (over_staticCallResult hargs) fun _ hs => .ok ⟨hs, hrest⟩
      · exact hrest.bind_pop fun _ _ hr h₂ => .bind (over_callResult hr hargs) fun _ hs => .ok ⟨hs, h₂⟩

theorem test (h : frame.Over subject) (condition : Condition) :
    WhenOk (condition.test frame) fun p => p.1.Over subject ∧ p.2.Over subject := by
  cases condition with
  | zero op => exact h.bind_pop fun _ _ hs hr => .ok ⟨hs.zeroTest op, hr⟩
  | ints op | refs op => exact h.bind_pop fun _ _ hb h₁ => h₁.bind_pop fun _ _ ha h₂ => .ok ⟨⟨ha, hb⟩, h₂⟩
  | null | nonNull => exact h.bind_pop fun _ _ hs hr => .ok ⟨⟨hs, trivial⟩, hr⟩

/-- No operation brings in another variable than the subject. -/
theorem run (h : frame.Over subject) (op : Operation) : WhenOk (op.run registry frame) (Effect.Over subject) := by
  cases op with
  | nop | box _ | checkCast _ | jump _ => exact .ok h
  | push _ | getStatic _ => exact .ok (h.push trivial)
  | load slot kind =>
      simp only [Operation.run]
      cases hs : frame.locals.get? slot with
      | none => exact .error
      | some s => exact .ok (h.push (h.locals slot s hs))
  | ret kind =>
      cases kind with
      | none => exact .error
      | some kind => exact h.bind_pop fun _ _ hs _ => .ok hs
  | branch condition target => exact .bind (h.test condition) fun _ ht => .ok ht
  | invoke dispatch method => exact .bind (h.runCall dispatch method) fun _ hp => .ok (hp.2.push hp.1)
  | unbox kind => exact h.bind_pop fun _ _ hs hr => .ok (hr.push (hs.unbox kind))
  | negate kind => exact h.bind_pop fun _ _ hs hr => .ok (hr.push hs)
  | store slot kind => exact h.bind_pop fun _ _ hs hr => .ok (hr.set slot hs)
  | dup => exact h.bind_pop fun _ _ hs hr => .ok ((hr.push hs).push hs)
  | pop => exact h.bind_pop fun _ _ _ hr => .ok hr
  | getField member => exact h.bind_pop fun _ _ hs hr => .bind (hs.readField member) fun _ hs => .ok (hr.push hs)
  | convert source target =>
      exact h.bind_pop fun _ _ hs hr => .bind (hs.convert source target) fun _ hs => .ok (hr.push hs)
  | arrayLength => exact h.bind_pop fun _ _ hs hr => .bind hs.readLength fun _ hs => .ok (hr.push hs)
  | arith _ _ | compareThreeWay _ _ =>
      exact h.bind_pop fun _ _ hb h₁ => h₁.bind_pop fun _ _ ha h₂ => .ok (h₂.push ⟨ha, hb⟩)
  | arrayLoad kind =>
      exact h.bind_pop fun _ _ hi h₁ => h₁.bind_pop fun _ _ ha h₂ =>
        .bind (ha.readElement hi kind) fun _ hs => .ok (h₂.push hs)

end Frame.Over

/-! ## Lowering -/

namespace Symbolic

mutual

/-- A value over the subject has no query form only because of an operation that has none. -/
theorem lower_over : (s : Symbolic) → s.Over subject →
    WhenError (s.lower subject) fun fault => fault.reason = .unsupportedOpcode
  | .literal _, _ => .ok
  | .var slot, h => by
      rw [Symbolic.lower, if_pos (show slot = subject from h)]
      exact .ok
  | .field receiver _, h => by
      refine .bind (lower_over receiver h) fun e => ?_
      split
      · exact .ok
      · exact .error rfl
  | .call receiver _ args _, h => .bind (lower_over receiver h.1) fun _ => .bind (lowerAll_over args h.2) fun _ => .ok
  | .staticCall _ args _, h => .bind (lowerAll_over args h) fun _ => .ok
  | .negative operand _, h => .bind (lower_over operand h) fun _ => .ok
  | .arith _ _ left right, h => .bind (lower_over left h.1) fun _ => .bind (lower_over right h.2) fun _ => .ok
  | .compare _ left right, h => .bind (lower_over left h.1) fun _ => .bind (lower_over right h.2) fun _ => .ok
  | .not operand, h => .bind (lower_over operand h) fun _ => .ok
  | .logical _ left right, h => .bind (lower_over left h.1) fun _ => .bind (lower_over right h.2) fun _ => .ok
  | .unboxed value _, h => lower_over value h
  | .threeWay _ _ _, _ => .error rfl
  | .conditional test thenValue elseValue, h =>
      .bind (lower_over test h.1) fun _ => .bind (lower_over thenValue h.2.1) fun _ =>
        .bind (lower_over elseValue h.2.2) fun _ => .ok
  | .element array _ _, h => by
      refine .bind (lower_over array h.1) fun e => ?_
      split
      · exact .ok
      · exact .error rfl
  | .length array, h => by
      refine .bind (lower_over array h) fun e => ?_
      split
      · exact .ok
      · exact .error rfl

theorem lowerAll_over : (args : List Symbolic) → OverAll subject args →
    WhenError (lowerAll subject args) fun fault => fault.reason = .unsupportedOpcode
  | [], _ => .ok
  | s :: rest, h => .bind (lower_over s h.1) fun _ => .bind (lowerAll_over rest h.2) fun _ => .ok

end

end Symbolic

end PredicateLift
