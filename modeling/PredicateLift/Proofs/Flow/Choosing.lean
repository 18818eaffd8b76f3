import PredicateLift.Flow.Join

/-!
# Joins as choices

A join stands for the value of the arm that its test selects. This holds under every way to value symbolic values in
which connectives and conditionals mean what they usually do, with one exception: between arms that are both taken for
booleans a join has the truth value of the selected arm, which is its value only if that is zero or one.
-/

namespace PredicateLift

variable {V : Type}

/-- Under the function `value`, connectives and conditionals have their usual meaning: `holds` tells which values count
as true, and `truth` gives the two values that stand for booleans. -/
structure Connects (truth : Bool → V) (holds : V → Bool) (value : Symbolic → V) : Prop where
  holds_truth : ∀ b, holds (truth b) = b
  zero : value (.literal (.int 0)) = truth false
  one : value (.literal (.int 1)) = truth true
  bool : ∀ b, value (.bool b) = truth b
  not : ∀ s, value (.not s) = truth (!holds (value s))
  and : ∀ a b, value (.logical .and a b) = truth (holds (value a) && holds (value b))
  or : ∀ a b, value (.logical .or a b) = truth (holds (value a) || holds (value b))
  conditional : ∀ test a b,
    value (.conditional test a b) = if holds (value test) then value a else value b

namespace Symbolic

/-- What was read, called or unwrapped: the values whose kind does not follow from their parts. -/
def isAtom : Symbolic → Bool
  | field _ _ | call _ _ _ _ | staticCall _ _ _ | element _ _ _ | unboxed _ _ => true
  | _ => false

theorem isBool_conditional {test a b : Symbolic} (h : (Symbolic.conditional test a b).isBool = true) :
    a.isBool = true ∨ b.isBool = true := by
  simp only [Symbolic.isBool, Symbolic.kind, beq_iff_eq] at h ⊢
  split at h
  · assumption
  · split at h
    · exact Or.inl h
    · cases h

/-- A join of different values is known to be a boolean only if they are written or known as booleans. -/
theorem isBool_joinValues {test a b : Symbolic} (h : (joinValues test a b).isBool = true) (hne : a ≠ b) :
    (a.isBooleanShaped = true ∧ b.isBooleanShaped = true) ∨ a.isBool = true ∨ b.isBool = true := by
  unfold joinValues at h
  rw [if_neg hne] at h
  split at h
  · rename_i hshaped
    exact Or.inl (Bool.and_eq_true_iff.mp hshaped)
  · split at h
    · rename_i hmixed
      exact Or.inr (Bool.or_eq_true_iff.mp hmixed)
    · exact Or.inr (isBool_conditional h)

end Symbolic

namespace Connects

variable {truth : Bool → V} {holds : V → Bool} {value : Symbolic → V} (hc : Connects truth holds value)

include hc

theorem value_toBool (s : Symbolic) : value s.toBool = value s := by
  refine Symbolic.toBool_induction (P := fun s s' => value s' = value s) ?_ ?_ (fun _ => rfl) ?_ s
  · rw [hc.bool, hc.zero]
  · rw [hc.bool, hc.one]
  · intro test a a' b b' ha hb
    rw [hc.conditional, hc.conditional, ha, hb]

/-- The connectives that a join of booleans is written with have the truth value of the selected arm. -/
theorem value_joinBooleans {test : Symbolic} {t : Bool} (ht : value test = truth t) (taken fallthrough : Symbolic) :
    value (joinBooleans test taken fallthrough) = truth (holds (if t then value taken else value fallthrough)) := by
  have hlogic := hc.holds_truth
  unfold joinBooleans
  split
  · rename_i h₁ h₂
    rw [Symbolic.eq_of_bool? h₁, Symbolic.eq_of_bool? h₂, ht, hc.bool, hc.bool]
    cases t <;> simp [hlogic]
  · rename_i h₁ h₂
    rw [Symbolic.eq_of_bool? h₁, Symbolic.eq_of_bool? h₂, hc.not, ht, hc.bool, hc.bool]
    cases t <;> simp [hlogic]
  · rename_i h₁ _
    rw [Symbolic.eq_of_bool? h₁, hc.or, ht, hc.bool]
    cases t <;> simp [hlogic]
  · rename_i h₁ _
    rw [Symbolic.eq_of_bool? h₁, hc.and, hc.not, ht, hc.bool]
    cases t <;> simp [hlogic]
  · rename_i h₂
    rw [Symbolic.eq_of_bool? h₂, hc.or, hc.not, ht, hc.bool]
    cases t <;> simp [hlogic]
  · rename_i h₂
    rw [Symbolic.eq_of_bool? h₂, hc.and, ht, hc.bool]
    cases t <;> simp [hlogic]
  · split
    -- One arm is `left op x` and the other `x`; `left` is met only where the test does not decide.
    · rename_i hs
      rw [Symbolic.eq_of_splitTail? hs, hc.and, hc.or, hc.and, ht]
      cases t <;> simp [hlogic]
    · rename_i hs
      rw [Symbolic.eq_of_splitTail? hs, hc.or, hc.and, hc.not, hc.or, ht]
      cases t <;> simp [hlogic]
    · split
      · rename_i hs
        rw [Symbolic.eq_of_splitTail? hs, hc.and, hc.or, hc.not, hc.and, ht]
        cases t <;> simp [hlogic]
      · rename_i hs
        rw [Symbolic.eq_of_splitTail? hs, hc.or, hc.and, hc.or, ht]
        cases t <;> simp [hlogic]
      · rw [hc.or, hc.and, hc.and, hc.not, ht]
        cases t <;> simp [hlogic]

/-- A join has the value of the selected arm, or only its truth value if the arms differ and are both taken for
booleans. -/
theorem value_joinValues {test : Symbolic} {t : Bool} (ht : value test = truth t) (taken fallthrough : Symbolic) :
    value (joinValues test taken fallthrough) =
      if taken ≠ fallthrough ∧ taken.isBooleanShaped = true ∧ fallthrough.isBooleanShaped = true then
        truth (holds (if t then value taken else value fallthrough))
      else if t then value taken else value fallthrough := by
  unfold joinValues
  split
  · rename_i heq
    subst heq
    simp
  · rename_i hne
    split
    · rename_i hshaped
      rw [if_pos ⟨hne, Bool.and_eq_true_iff.mp hshaped⟩, hc.value_joinBooleans ht, hc.value_toBool, hc.value_toBool]
    · rename_i hshaped
      have hnot : ¬ (taken ≠ fallthrough ∧ taken.isBooleanShaped = true ∧ fallthrough.isBooleanShaped = true) :=
        fun h => hshaped (Bool.and_eq_true_iff.mpr h.2)
      rw [if_neg hnot]
      split
      · rw [hc.conditional, ht, hc.holds_truth, hc.value_toBool, hc.value_toBool]
      · rw [hc.conditional, ht, hc.holds_truth]

theorem isTruth_of_shaped {s : Symbolic} (h : s.isBool = true → ∃ b, value s = truth b)
    (hs : s.isBooleanShaped = true) : ∃ b, value s = truth b := by
  simp only [Symbolic.isBooleanShaped, Bool.or_eq_true, decide_eq_true_eq] at hs
  rcases hs with (rfl | rfl) | hs
  · exact ⟨false, hc.zero⟩
  · exact ⟨true, hc.one⟩
  · exact h hs

/-- A join that is known to be a boolean is zero or one, unless it puts a boolean together with another number. -/
theorem isTruth_joinValues {test a b : Symbolic} (ht : ∃ t, value test = truth t)
    (ha : a.isBool = true → ∃ x, value a = truth x) (hb : b.isBool = true → ∃ x, value b = truth x)
    (halike : a.isBool = true ∨ b.isBool = true → (∃ x, value a = truth x) ∧ ∃ x, value b = truth x)
    (hbool : (joinValues test a b).isBool = true) : ∃ x, value (joinValues test a b) = truth x := by
  obtain ⟨t, ht⟩ := ht
  by_cases heq : a = b
  · subst heq
    rw [joinValues, if_pos rfl] at hbool ⊢
    exact ha hbool
  have harms : (∃ x, value a = truth x) ∧ ∃ x, value b = truth x := by
    rcases Symbolic.isBool_joinValues hbool heq with ⟨hsa, hsb⟩ | hknown
    · exact ⟨hc.isTruth_of_shaped ha hsa, hc.isTruth_of_shaped hb hsb⟩
    · exact halike hknown
  obtain ⟨⟨x, hx⟩, y, hy⟩ := harms
  rw [hc.value_joinValues ht, hx, hy]
  cases t with
  | false => exact ⟨y, by simp [hc.holds_truth]⟩
  | true => exact ⟨x, by simp [hc.holds_truth]⟩

end Connects

end PredicateLift
