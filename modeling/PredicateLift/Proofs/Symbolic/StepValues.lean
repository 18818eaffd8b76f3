import PredicateLift.Proofs.Fallible
import PredicateLift.Proofs.Flow.Joining
import PredicateLift.Proofs.Symbolic.Frames

/-!
# Instructions on values

Carried out on two frames of which one stands for the other, an instruction has effects that stand for one another:
what it does depends on the values of its operands alone. This does not hold of conversions, which change literals and
leave other values as they are. An instruction also keeps every boolean of a frame zero or one, as long as those that
it reads are.
-/

namespace PredicateLift

namespace Valuation

variable {V : Type} [LinearOrder V] {ρ : Valuation V} {registry : Registry}

theorem Represents.push {f g : Frame} {s s' : Symbolic} (h : ρ.Represents f g) (hs : ρ.value s = ρ.value s') :
    ρ.Represents (f.push s) (g.push s') := by
  refine ⟨?_, h.locals⟩
  simp only [Frame.push, List.map_cons, hs, h.stack]

theorem Represents.of_push {f g : Frame} {s s' : Symbolic} (h : ρ.Represents (f.push s) (g.push s')) :
    ρ.value s = ρ.value s' ∧ ρ.Represents f g := by
  have hstack := h.stack
  simp only [Frame.push, List.map_cons, List.cons.injEq] at hstack
  exact ⟨hstack.1, hstack.2, h.locals⟩

/-- Two results with the same value, and frames of which the first stands for the second. -/
def SameResult (ρ : Valuation V) (p q : Symbolic × Frame) : Prop :=
  ρ.value p.1 = ρ.value q.1 ∧ ρ.Represents p.2 q.2

theorem Represents.pop {f g : Frame} (h : ρ.Represents f g) : WhenBoth f.pop g.pop ρ.SameResult := by
  rintro ⟨s, f'⟩ ⟨s', g'⟩ hf hg
  rw [Frame.eq_push_of_pop hf, Frame.eq_push_of_pop hg] at h
  exact h.of_push

theorem Represents.popMany {f g : Frame} (h : ρ.Represents f g) (n : Nat) :
    WhenBoth (f.popMany n) (g.popMany n) fun p q => ρ.values p.1 = ρ.values q.1 ∧ ρ.Represents p.2 q.2 := by
  rintro ⟨args, f'⟩ ⟨args', g'⟩ hf hg
  obtain ⟨rfl, hlen⟩ := Frame.stack_of_popMany hf
  obtain ⟨rfl, hlen'⟩ := Frame.stack_of_popMany hg
  have hstack := h.stack
  simp only [List.map_append] at hstack
  obtain ⟨hargs, hrest⟩ := List.append_inj hstack (by simp [hlen, hlen'])
  refine ⟨?_, hrest, h.locals⟩
  rw [values_eq_map, values_eq_map]
  simpa using hargs

theorem Represents.set {f g : Frame} {slot : Slot} {s s' : Symbolic} (h : ρ.Represents f g)
    (hs : ρ.value s = ρ.value s') :
    ρ.Represents { f with locals := f.locals.set slot s } { g with locals := g.locals.set slot s' } := by
  refine ⟨h.stack, fun slot' t ht => ?_⟩
  simp only [Locals.get?_set] at ht ⊢
  split at ht
  · rename_i heq
    cases ht
    exact ⟨s', if_pos heq, hs⟩
  · rename_i hne
    obtain ⟨t', ht', hv⟩ := h.locals slot' t ht
    exact ⟨t', by rw [if_neg hne, ht'], hv⟩

/-! ## Effects -/

/-- The first effect stands for the second. -/
inductive Agrees (ρ : Valuation V) : Effect → Effect → Prop where
  | next {f g} : ρ.Represents f g → Agrees ρ (.next f) (.next g)
  | jump {target f g} : ρ.Represents f g → Agrees ρ (.jump target f) (.jump target g)
  | branch {test test' target f g} : ρ.holds (ρ.value test) = ρ.holds (ρ.value test') → ρ.Represents f g →
      Agrees ρ (.branch test target f) (.branch test' target g)
  | done {s s'} : ρ.value s = ρ.value s' → Agrees ρ (.done s) (.done s')

theorem Represents.test {f g : Frame} (h : ρ.Represents f g) (condition : Condition) :
    WhenBoth (condition.test f) (condition.test g) fun p q =>
      ρ.holds (ρ.value p.1) = ρ.holds (ρ.value q.1) ∧ ρ.Represents p.2 q.2 := by
  cases condition with
  | zero op =>
      refine .bind h.pop fun p q ⟨hv, hr⟩ => .ok ⟨?_, hr⟩
      rw [holds_zeroTest, holds_zeroTest, hv]
  | ints op | refs op =>
      refine .bind h.pop fun _ _ ⟨hvr, h₁⟩ => .bind h₁.pop fun _ _ ⟨hvl, h₂⟩ => .ok ⟨?_, h₂⟩
      simp only [value, hvl, hvr]
  | null | nonNull =>
      refine .bind h.pop fun p q ⟨hv, hr⟩ => .ok ⟨?_, hr⟩
      simp only [value, hv]

theorem Represents.runCall {f g : Frame} (h : ρ.Represents f g) (dispatch : Dispatch) (method : Member) :
    WhenBoth (PredicateLift.runCall registry dispatch method f) (PredicateLift.runCall registry dispatch method g)
      ρ.SameResult := by
  unfold PredicateLift.runCall
  split
  · exact .error
  · split
    · exact .error
    · refine .bind (h.popMany _) ?_
      rintro ⟨args, f'⟩ ⟨args', g'⟩ ⟨hargs, h₁⟩
      simp only at hargs h₁ ⊢
      split
      · refine .bind (.of_whenOk ρ.value_staticCallResult ρ.value_staticCallResult ?_) fun _ _ hv => .ok ⟨hv, h₁⟩
        intro s s' hs hs'
        rw [hs, hs', hargs]
      · refine .bind h₁.pop fun p q ⟨hr, h₂⟩ =>
          .bind (.of_whenOk ρ.value_callResult ρ.value_callResult ?_) fun _ _ hv => .ok ⟨hv, h₂⟩
        intro s s' hs hs'
        rw [hs, hs', hr, hargs]

/-- What an operation does is determined by the values of what it works on. -/
theorem Represents.run {f g : Frame} (h : ρ.Represents f g) {op : Operation}
    (hop : ∀ source target, op ≠ .convert source target) :
    WhenBoth (op.run registry f) (op.run registry g) ρ.Agrees := by
  cases op with
  | convert source target => exact absurd rfl (hop source target)
  | nop | box _ | checkCast _ => exact .ok (.next h)
  | jump target => exact .ok (.jump h)
  | push _ | getStatic _ => exact .ok (.next (h.push rfl))
  | load slot kind =>
      simp only [Operation.run]
      cases hs : f.locals.get? slot with
      | none => exact .error
      | some s =>
          obtain ⟨s', hs', hv⟩ := h.locals slot s hs
          rw [hs']
          exact .ok (.next (h.push hv))
  | ret kind =>
      cases kind with
      | none => exact .error
      | some kind => exact .bind h.pop fun _ _ ⟨hv, _⟩ => .ok (.done hv)
  | branch condition target => exact .bind (h.test condition) fun _ _ ⟨hv, hr⟩ => .ok (.branch hv hr)
  | invoke dispatch method => exact .bind (h.runCall dispatch method) fun _ _ ⟨hv, hr⟩ => .ok (.next (hr.push hv))
  | unbox kind =>
      refine .bind h.pop fun _ _ ⟨hv, hr⟩ => .ok (.next (hr.push ?_))
      rw [value_unbox, value_unbox, hv]
  | negate kind =>
      refine .bind h.pop fun _ _ ⟨hv, hr⟩ => .ok (.next (hr.push ?_))
      simp only [value, hv]
  | store slot kind => exact .bind h.pop fun _ _ ⟨hv, hr⟩ => .ok (.next (hr.set hv))
  | dup => exact .bind h.pop fun _ _ ⟨hv, hr⟩ => .ok (.next ((hr.push hv).push hv))
  | pop => exact .bind h.pop fun _ _ ⟨_, hr⟩ => .ok (.next hr)
  | getField member =>
      refine .bind h.pop fun p q ⟨hv, hr⟩ =>
        .bind (.of_whenOk ρ.value_readField ρ.value_readField ?_) fun _ _ hs => .ok (.next (hr.push hs))
      intro s s' hs hs'
      rw [hs, hs', hv]
  | arrayLength =>
      refine .bind h.pop fun p q ⟨hv, hr⟩ =>
        .bind (.of_whenOk ρ.value_readLength ρ.value_readLength ?_) fun _ _ hs => .ok (.next (hr.push hs))
      intro s s' hs hs'
      rw [hs, hs', hv]
  | arith _ _ | compareThreeWay _ _ =>
      refine .bind h.pop fun _ _ ⟨hvr, h₁⟩ => .bind h₁.pop fun _ _ ⟨hvl, h₂⟩ => .ok (.next (h₂.push ?_))
      simp only [value, hvl, hvr]
  | arrayLoad kind =>
      refine .bind h.pop fun _ _ ⟨hvi, h₁⟩ => .bind h₁.pop fun _ _ ⟨hva, h₂⟩ =>
        .bind (.of_whenOk ρ.value_readElement ρ.value_readElement ?_) fun _ _ hs => .ok (.next (h₂.push hs))
      intro s s' hs hs'
      rw [hs, hs', hva, hvi]

/-! ## Booleans -/

theorem truthful_literal (l : Literal) : ρ.Truthful (.literal l) := by
  intro h
  obtain ⟨b, rfl⟩ := Literal.eq_bool_of_kind (beq_iff_eq.mp h)
  exact ⟨b, by rw [value, truth]⟩

theorem truthful_compare (op : Comparison) (left right : Symbolic) : ρ.Truthful (.compare op left right) :=
  fun _ => isTruth_compare op left right

theorem truthful_of_kind {s : Symbolic} (h : s.kind ≠ .bool) : ρ.Truthful s :=
  fun hbool => absurd (beq_iff_eq.mp hbool) h

theorem TruthfulFrame.push {f : Frame} {s : Symbolic} (h : ρ.TruthfulFrame f) (hs : ρ.Truthful s) :
    ρ.TruthfulFrame (f.push s) :=
  ⟨List.forall_mem_cons.mpr ⟨hs, h.stack⟩, h.locals⟩

theorem TruthfulFrame.of_push {f : Frame} {s : Symbolic} (h : ρ.TruthfulFrame (f.push s)) :
    ρ.Truthful s ∧ ρ.TruthfulFrame f := by
  obtain ⟨hs, hrest⟩ := List.forall_mem_cons.mp h.stack
  exact ⟨hs, hrest, h.locals⟩

theorem TruthfulFrame.pop {f : Frame} (h : ρ.TruthfulFrame f) :
    WhenOk f.pop fun p => ρ.Truthful p.1 ∧ ρ.TruthfulFrame p.2 := by
  rintro ⟨s, f'⟩ hf
  rw [Frame.eq_push_of_pop hf] at h
  exact h.of_push

theorem TruthfulFrame.popMany {f : Frame} (h : ρ.TruthfulFrame f) (n : Nat) :
    WhenOk (f.popMany n) fun p => ρ.TruthfulFrame p.2 := by
  rintro ⟨args, f'⟩ hf
  obtain ⟨rfl, _⟩ := Frame.stack_of_popMany hf
  exact ⟨fun s hs => h.stack s (List.mem_append_right _ hs), h.locals⟩

theorem TruthfulFrame.set {f : Frame} {slot : Slot} {s : Symbolic} (h : ρ.TruthfulFrame f) (hs : ρ.Truthful s) :
    ρ.TruthfulFrame { f with locals := f.locals.set slot s } := by
  refine ⟨h.stack, fun slot' t ht => ?_⟩
  simp only [Locals.get?_set] at ht
  split at ht
  · cases ht
    exact hs
  · exact h.locals slot' t ht

theorem Truthful.zeroTest {s : Symbolic} (h : ρ.Truthful s) (op : Comparison) :
    ρ.IsTruth (PredicateLift.zeroTest op s) := by
  unfold PredicateLift.zeroTest
  split
  · unfold threeWayTest
    split
    · exact isTruth_compare _ _ _
    · split
      · exact isTruth_not _
      · exact isTruth_compare _ _ _
  · split
    · exact isTruth_not _
    · split
      · rename_i hbool
        exact h (Bool.and_eq_true_iff.mp hbool).1
      · exact isTruth_compare _ _ _

/-- The value is an atom, of which nothing is known, or it is zero or one if it is known to be a boolean. -/
def AtomOrTruthful (ρ : Valuation V) (s : Symbolic) : Prop :=
  s.isAtom = true ∨ ρ.Truthful s

theorem Truthful.unbox {s : Symbolic} (h : ρ.Truthful s) (kind : Kind) : ρ.AtomOrTruthful (s.unbox kind) := by
  unfold Symbolic.unbox
  split
  · exact .inr h
  · split
    · exact .inr h
    · exact .inl rfl

theorem atomOrTruthful_readField (receiver : Symbolic) (member : Member) :
    WhenOk (receiver.readField member) ρ.AtomOrTruthful := by
  unfold Symbolic.readField
  split
  · split
    · exact .ok (.inr (truthful_literal _))
    · exact .error
  · exact .error
  · exact .ok (.inl rfl)

theorem atomOrTruthful_readElement (array index : Symbolic) (kind : Kind) :
    WhenOk (array.readElement index kind) ρ.AtomOrTruthful := by
  unfold Symbolic.readElement
  split
  · split
    · exact .ok (.inr (truthful_literal _))
    · exact .error
  · exact .error
  · exact .ok (.inl rfl)

theorem atomOrTruthful_readLength (array : Symbolic) : WhenOk array.readLength ρ.AtomOrTruthful := by
  unfold Symbolic.readLength
  split
  · exact .ok (.inr (truthful_literal _))
  · exact .error
  · exact .ok (.inr (truthful_of_kind nofun))

theorem atomOrTruthful_callResult (method : Member) (receiver : Symbolic) (args : List Symbolic) (kind : Kind) :
    WhenOk (callResult registry method receiver args kind) ρ.AtomOrTruthful := by
  unfold callResult
  split
  · exact .ok (.inr (truthful_compare _ _ _))
  · exact .error
  · split
    · exact .ok (.inr (truthful_literal _))
    · exact .ok (.inl rfl)
  · exact .ok (.inl rfl)

theorem atomOrTruthful_staticCallResult (method : Member) (args : List Symbolic) (kind : Kind) :
    WhenOk (staticCallResult registry method args kind) ρ.AtomOrTruthful := by
  unfold staticCallResult
  split
  · exact .ok (.inr (truthful_compare _ _ _))
  · exact .error
  · exact .ok (.inl rfl)

theorem TruthfulFrame.runCall {f : Frame} (h : ρ.TruthfulFrame f) (dispatch : Dispatch) (method : Member) :
    WhenOk (PredicateLift.runCall registry dispatch method f) fun p => ρ.AtomOrTruthful p.1 ∧ ρ.TruthfulFrame p.2 := by
  unfold PredicateLift.runCall
  split
  · exact .error
  · split
    · exact .error
    · refine .bind (h.popMany _) ?_
      rintro ⟨args, f'⟩ h₁
      simp only
      split
      · exact .bind (atomOrTruthful_staticCallResult _ _ _) fun _ hs => .ok ⟨hs, h₁⟩
      · exact .bind h₁.pop fun _ ⟨_, h₂⟩ => .bind (atomOrTruthful_callResult _ _ _ _) fun _ hs => .ok ⟨hs, h₂⟩

theorem TruthfulFrame.test {f : Frame} (h : ρ.TruthfulFrame f) (condition : Condition) :
    WhenOk (condition.test f) fun p => ρ.IsTruth p.1 ∧ ρ.TruthfulFrame p.2 := by
  cases condition with
  | zero op => exact .bind h.pop fun _ ⟨hs, hr⟩ => .ok ⟨hs.zeroTest op, hr⟩
  | ints op | refs op =>
      exact .bind h.pop fun _ ⟨_, h₁⟩ => .bind h₁.pop fun _ ⟨_, h₂⟩ => .ok ⟨isTruth_compare _ _ _, h₂⟩
  | null | nonNull => exact .bind h.pop fun _ ⟨_, hr⟩ => .ok ⟨isTruth_compare _ _ _, hr⟩

/-- The invariant of frames for what an effect leaves. It is left open for atoms on the stack, which may just have
been read. -/
def TruthfulEffect (ρ : Valuation V) : Effect → Prop
  | .next frame => (∀ s ∈ frame.stack, s.isAtom = true → ρ.Truthful s) → ρ.TruthfulFrame frame
  | .jump _ frame => ρ.TruthfulFrame frame
  | .branch test _ frame => ρ.IsTruth test ∧ ρ.TruthfulFrame frame
  | .done s => ρ.Truthful s

theorem TruthfulFrame.next {f : Frame} (h : ρ.TruthfulFrame f) : ρ.TruthfulEffect (.next f) :=
  fun _ => h

theorem TruthfulFrame.next_push {f : Frame} {s : Symbolic} (h : ρ.TruthfulFrame f) (hs : ρ.AtomOrTruthful s) :
    ρ.TruthfulEffect (.next (f.push s)) := by
  intro hatoms
  rcases hs with hs | hs
  · exact h.push (hatoms s List.mem_cons_self hs)
  · exact h.push hs

/-- An operation other than a conversion keeps the invariant. -/
theorem TruthfulFrame.run {f : Frame} (h : ρ.TruthfulFrame f) {op : Operation}
    (hop : ∀ source target, op ≠ .convert source target) : WhenOk (op.run registry f) ρ.TruthfulEffect := by
  cases op with
  | convert source target => exact absurd rfl (hop source target)
  | nop | box _ | checkCast _ => exact .ok h.next
  | jump target => exact .ok h
  | push _ | getStatic _ => exact .ok (h.next_push (.inr (truthful_literal _)))
  | load slot kind =>
      simp only [Operation.run]
      cases hs : f.locals.get? slot with
      | none => exact .error
      | some s => exact .ok (h.next_push (.inr (h.locals slot s hs)))
  | ret kind =>
      cases kind with
      | none => exact .error
      | some kind => exact .bind h.pop fun _ ⟨hs, _⟩ => .ok hs
  | branch condition target => exact .bind (h.test condition) fun _ ht => .ok ht
  | invoke dispatch method => exact .bind (h.runCall dispatch method) fun _ ⟨hs, hr⟩ => .ok (hr.next_push hs)
  | unbox kind => exact .bind h.pop fun _ ⟨hs, hr⟩ => .ok (hr.next_push (hs.unbox kind))
  | negate kind =>
      exact .bind h.pop fun _ ⟨_, hr⟩ => .ok (hr.next_push (.inr (truthful_of_kind kind.toKind_ne_bool)))
  | store slot kind => exact .bind h.pop fun _ ⟨hs, hr⟩ => .ok (hr.set hs).next
  | dup => exact .bind h.pop fun _ ⟨hs, hr⟩ => .ok ((hr.push hs).push hs).next
  | pop => exact .bind h.pop fun _ ⟨_, hr⟩ => .ok hr.next
  | getField member =>
      exact .bind h.pop fun _ ⟨_, hr⟩ => .bind (atomOrTruthful_readField _ _) fun _ hs => .ok (hr.next_push hs)
  | arrayLength =>
      exact .bind h.pop fun _ ⟨_, hr⟩ => .bind (atomOrTruthful_readLength _) fun _ hs => .ok (hr.next_push hs)
  | arith _ kind =>
      exact .bind h.pop fun _ ⟨_, h₁⟩ => .bind h₁.pop fun _ ⟨_, h₂⟩ =>
        .ok (h₂.next_push (.inr (truthful_of_kind kind.toKind_ne_bool)))
  | compareThreeWay _ _ =>
      exact .bind h.pop fun _ ⟨_, h₁⟩ => .bind h₁.pop fun _ ⟨_, h₂⟩ =>
        .ok (h₂.next_push (.inr (truthful_of_kind nofun)))
  | arrayLoad kind =>
      exact .bind h.pop fun _ ⟨_, h₁⟩ => .bind h₁.pop fun _ ⟨_, h₂⟩ =>
        .bind (atomOrTruthful_readElement _ _ kind) fun _ hs => .ok (h₂.next_push hs)

end Valuation

end PredicateLift
