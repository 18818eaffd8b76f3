import PredicateLift.Proofs.Flow.Choosing
import PredicateLift.Proofs.Symbolic.Valuation

/-!
# Values of joins

A join of two values has the value of the arm that the test selects. Between booleans this rests on their values
being zero or one, which an invariant of frames says of every value that is known to be a boolean. The invariant
is kept by a join, unless it puts a boolean together with another number.
-/

namespace PredicateLift

namespace Valuation

variable {V : Type} [LinearOrder V] {ρ : Valuation V}

/-- The value is zero or one, if it is known to be a boolean. -/
def Truthful (ρ : Valuation V) (s : Symbolic) : Prop :=
  s.isBool = true → ρ.IsTruth s

def choice (ρ : Valuation V) (test taken fallthrough : Symbolic) : V :=
  if ρ.holds (ρ.value test) then ρ.value taken else ρ.value fallthrough

theorem connects (ρ : Valuation V) : Connects ρ.truth ρ.holds ρ.value where
  holds_truth := ρ.holds_truth
  zero := by rw [value, truth, ρ.false_eq]
  one := by rw [value, truth, ρ.true_eq]
  bool _ := by rw [Symbolic.bool, value, truth]
  not _ := by rw [value]
  and _ _ := by rw [value]
  or _ _ := by rw [value]
  conditional _ _ _ := by rw [value]

theorem Truthful.isTruth_of_shaped {s : Symbolic} (h : ρ.Truthful s) (hs : s.isBooleanShaped = true) :
    ρ.IsTruth s :=
  ρ.connects.isTruth_of_shaped h hs

/-- A join has the value of the arm that its test selects. -/
theorem value_joinValues {test taken fallthrough : Symbolic} (ht : ρ.IsTruth test) (ha : ρ.Truthful taken)
    (hb : ρ.Truthful fallthrough) :
    ρ.value (joinValues test taken fallthrough) = ρ.choice test taken fallthrough := by
  obtain ⟨t, ht⟩ := ht
  rw [ρ.connects.value_joinValues ht, choice, ht, holds_truth]
  split
  · rename_i hshaped
    obtain ⟨a, ha⟩ := ha.isTruth_of_shaped hshaped.2.1
    obtain ⟨b, hb⟩ := hb.isTruth_of_shaped hshaped.2.2
    rw [ha, hb]
    cases t <;> simp
  · rfl

/-- Of two values that are joined, neither is a boolean while the other is neither zero nor one. -/
structure Alike (ρ : Valuation V) (a b : Symbolic) : Prop where
  right : a.isBool = true → b.isBooleanShaped = true ∨ ρ.IsTruth b
  left : b.isBool = true → a.isBooleanShaped = true ∨ ρ.IsTruth a

theorem Alike.isTruth {a b : Symbolic} (h : ρ.Alike a b) (ha : ρ.Truthful a) (hb : ρ.Truthful b)
    (hbool : a.isBool = true ∨ b.isBool = true) : ρ.IsTruth a ∧ ρ.IsTruth b := by
  rcases hbool with hbool | hbool
  · exact ⟨ha hbool, (h.right hbool).elim hb.isTruth_of_shaped id⟩
  · exact ⟨(h.left hbool).elim ha.isTruth_of_shaped id, hb hbool⟩

theorem Truthful.joinValues {test a b : Symbolic} (ha : ρ.Truthful a) (ht : ρ.IsTruth test) (hb : ρ.Truthful b)
    (h : ρ.Alike a b) : ρ.Truthful (PredicateLift.joinValues test a b) :=
  ρ.connects.isTruth_joinValues ht ha hb (h.isTruth ha hb)

/-! ## Frames -/

/-- Every value of a frame that is known to be a boolean is zero or one. -/
structure TruthfulFrame (ρ : Valuation V) (frame : Frame) : Prop where
  stack : ∀ s ∈ frame.stack, ρ.Truthful s
  locals : ∀ slot s, frame.locals.get? slot = some s → ρ.Truthful s

def TruthfulOutcome (ρ : Valuation V) : Outcome → Prop
  | .reached frame => ρ.TruthfulFrame frame
  | .returned s => ρ.Truthful s

/-- The first frame stands for the second: the operands have the same values, and so have the slots that the first
one binds. -/
structure Represents (ρ : Valuation V) (frame single : Frame) : Prop where
  stack : frame.stack.map ρ.value = single.stack.map ρ.value
  locals : ∀ slot s, frame.locals.get? slot = some s →
    ∃ s', single.locals.get? slot = some s' ∧ ρ.value s = ρ.value s'

theorem Represents.refl (frame : Frame) : ρ.Represents frame frame :=
  ⟨rfl, fun _ s hs => ⟨s, hs, rfl⟩⟩

theorem Represents.trans {f g h : Frame} (hfg : ρ.Represents f g) (hgh : ρ.Represents g h) : ρ.Represents f h := by
  refine ⟨hfg.stack.trans hgh.stack, fun slot s hs => ?_⟩
  obtain ⟨s', hs', hv⟩ := hfg.locals slot s hs
  obtain ⟨s'', hs'', hv'⟩ := hgh.locals slot s' hs'
  exact ⟨s'', hs'', hv.trans hv'⟩

end Valuation

/-- The values that a join of two outcomes puts together. -/
inductive Outcome.Pairs : Outcome → Outcome → Symbolic → Symbolic → Prop where
  | returned {a b} : Pairs (.returned a) (.returned b) a b
  | stack {f g : Frame} {a b} : (a, b) ∈ f.stack.zip g.stack → Pairs (.reached f) (.reached g) a b
  | locals {f g : Frame} {slot a b} : f.locals.get? slot = some a → g.locals.get? slot = some b →
      Pairs (.reached f) (.reached g) a b

namespace Valuation

variable {V : Type} [LinearOrder V] {ρ : Valuation V}

theorem map_zipWith_joinValues {test : Symbolic} (ht : ρ.IsTruth test) {as bs : List Symbolic}
    (hlen : as.length = bs.length) (ha : ∀ s ∈ as, ρ.Truthful s) (hb : ∀ s ∈ bs, ρ.Truthful s) :
    (List.zipWith (joinValues test) as bs).map ρ.value =
      (if ρ.holds (ρ.value test) then as else bs).map ρ.value := by
  induction as generalizing bs with
  | nil =>
      obtain rfl := List.length_eq_zero_iff.mp hlen.symm
      simp
  | cons a as ih =>
      cases bs with
      | nil => cases hlen
      | cons b bs =>
          have hrest := ih (by simpa using hlen) (fun s hs => ha s (List.mem_cons_of_mem _ hs))
            (fun s hs => hb s (List.mem_cons_of_mem _ hs))
          rw [List.zipWith_cons_cons, List.map_cons, hrest,
            value_joinValues ht (ha a List.mem_cons_self) (hb b List.mem_cons_self), choice]
          split <;> rfl

/-- A join of frames stands for the frame of the arm that the test selects. -/
theorem represents_join {test : Symbolic} {a b joined : Frame} (ht : ρ.IsTruth test) (ha : ρ.TruthfulFrame a)
    (hb : ρ.TruthfulFrame b) (h : Frame.join test a b = .ok joined) :
    ρ.Represents joined (if ρ.holds (ρ.value test) then a else b) := by
  unfold Frame.join at h
  split at h
  · rename_i hdepth
    cases h
    refine ⟨?_, ?_⟩
    · refine (map_zipWith_joinValues ht hdepth ha.stack hb.stack).trans ?_
      split <;> rfl
    · intro slot s hs
      obtain ⟨x, y, hx, hy, rfl⟩ := Locals.get?_join_eq_some hs
      rw [value_joinValues ht (ha.locals slot x hx) (hb.locals slot y hy), choice]
      split
      · exact ⟨x, hx, rfl⟩
      · exact ⟨y, hy, rfl⟩
  · cases h

theorem TruthfulFrame.join {test : Symbolic} {a b joined : Frame} (ht : ρ.IsTruth test) (ha : ρ.TruthfulFrame a)
    (hb : ρ.TruthfulFrame b) (hpairs : ∀ x y, Outcome.Pairs (.reached a) (.reached b) x y → ρ.Alike x y)
    (h : Frame.join test a b = .ok joined) : ρ.TruthfulFrame joined := by
  unfold Frame.join at h
  split at h
  · cases h
    refine ⟨?_, ?_⟩
    · intro s hs
      rw [← List.map_uncurry_zip_eq_zipWith] at hs
      obtain ⟨⟨x, y⟩, hxy, rfl⟩ := List.mem_map.mp hs
      have hx := ha.stack x (List.of_mem_zip hxy).1
      have hy := hb.stack y (List.of_mem_zip hxy).2
      exact hx.joinValues ht hy (hpairs x y (.stack hxy))
    · intro slot s hs
      obtain ⟨x, y, hx, hy, rfl⟩ := Locals.get?_join_eq_some hs
      exact (ha.locals slot x hx).joinValues ht (hb.locals slot y hy) (hpairs x y (.locals hx hy))
  · cases h

end Valuation

end PredicateLift
