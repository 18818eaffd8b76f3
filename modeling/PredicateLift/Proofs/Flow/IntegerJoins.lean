import PredicateLift.Proofs.Flow.Choosing

/-!
# Joins of integers

Valued in 32-bit integers, a join has the value of the arm that its test selects, except where two different arms are
both taken for booleans and the selected one is neither zero nor one. That takes an earlier join of a boolean with
another number: it is known as a boolean, because one of its arms is. Where no such join went before, the value is
preserved.
-/

namespace PredicateLift

/-- Meanings in 32-bit integers for the parts of a symbolic value. Integers are themselves and booleans zero and one;
what other literals, variables, and the operations that are no connectives mean is any function of their operands. -/
structure WordValuation where
  literal : Literal → Int32
  var : Slot → Int32
  field : Member → Int32 → Int32
  call : Member → Kind → Int32 → List Int32 → Int32
  staticCall : Member → Kind → List Int32 → Int32
  negative : NumericKind → Int32 → Int32
  arith : Operator → NumericKind → Int32 → Int32 → Int32
  unboxed : Kind → Int32 → Int32
  threeWay : Bias → Int32 → Int32 → Int32
  element : Kind → Int32 → Int32 → Int32
  length : Int32 → Int32
  literal_int : ∀ n, literal (.int n) = n
  literal_bool : ∀ b, literal (.bool b) = if b then 1 else 0

/-- A value that no join has made: neither a connective nor a conditional. -/
def Symbolic.isSimple : Symbolic → Bool
  | not _ | logical _ _ _ | conditional _ _ _ => false
  | _ => true

namespace WordValuation

variable (ω : WordValuation)

def truth (b : Bool) : Int32 := if b then 1 else 0

def holds (v : Int32) : Bool := v ≠ 0

mutual

/-- The integer that a symbolic value stands for. -/
@[simp] def value : Symbolic → Int32
  | .literal v => ω.literal v
  | .var slot => ω.var slot
  | .field receiver member => ω.field member (value receiver)
  | .call receiver method args kind => ω.call method kind (value receiver) (values args)
  | .staticCall method args kind => ω.staticCall method kind (values args)
  | .negative operand kind => ω.negative kind (value operand)
  | .arith op kind left right => ω.arith op kind (value left) (value right)
  | .compare op left right => truth (op.holds (Ord.compare (value left).toInt (value right).toInt))
  | .not operand => truth (!holds (value operand))
  | .logical .and left right => truth (holds (value left) && holds (value right))
  | .logical .or left right => truth (holds (value left) || holds (value right))
  | .unboxed v kind => ω.unboxed kind (value v)
  | .threeWay left right bias => ω.threeWay bias (value left) (value right)
  | .conditional test thenValue elseValue => if holds (value test) then value thenValue else value elseValue
  | .element array index kind => ω.element kind (value array) (value index)
  | .length array => ω.length (value array)

@[simp] def values : List Symbolic → List Int32
  | [] => []
  | s :: rest => value s :: values rest

end

/-- The value of the arm that the test selects. -/
def selected (test taken fallthrough : Symbolic) : Int32 :=
  if ω.value test = 1 then ω.value taken else ω.value fallthrough

def IsTruth (s : Symbolic) : Prop := ω.value s = 0 ∨ ω.value s = 1

/-- Of two values that are joined, neither is a boolean while the other is neither zero nor one. -/
structure Alike (a b : Symbolic) : Prop where
  right : a.isBool = true → ω.IsTruth b
  left : b.isBool = true → ω.IsTruth a

/-- How the arms of a join come about: they are literals, comparisons, values that were read or computed, of which those
of kind boolean are zero or one, and earlier joins on tests that are zero or one, of arms in the given relation. -/
inductive Formed (Together : Symbolic → Symbolic → Prop) : Symbolic → Prop where
  | simple {s} : s.isSimple = true → (s.isAtom = true → s.isBool = true → ω.IsTruth s) → Formed Together s
  | joined {test a b} : ω.IsTruth test → Formed Together a → Formed Together b → Together a b →
      Formed Together (joinValues test a b)

/-! ## Joins -/

theorem connects : Connects truth holds ω.value where
  holds_truth b := by cases b <;> decide
  zero := by rw [value, ω.literal_int, truth]; rfl
  one := by rw [value, ω.literal_int, truth]; rfl
  bool b := by rw [Symbolic.bool, value, ω.literal_bool, truth]
  not _ := by rw [value]
  and _ _ := by rw [value]
  or _ _ := by rw [value]
  conditional _ _ _ := by rw [value]

theorem truth_eq_self_iff {v : Int32} : truth (holds v) = v ↔ v = 0 ∨ v = 1 := by
  by_cases h : v = 0
  · simp [h, holds, truth]
  · simp [h, holds, truth, eq_comm]

variable {ω}

theorem isTruth_iff {s : Symbolic} : ω.IsTruth s ↔ ∃ b, ω.value s = truth b := by
  simp [IsTruth, truth]

theorem IsTruth.selects {test : Symbolic} (h : ω.IsTruth test) :
    ∃ t, ω.value test = truth t ∧ ∀ a b, ω.selected test a b = if t then ω.value a else ω.value b := by
  rcases h with h | h
  · exact ⟨false, h, fun a b => by simp [selected, h]⟩
  · exact ⟨true, h, fun a b => by simp [selected, h]⟩

/-- A value that no join has made is zero or one if it is a boolean, as long as that holds of what was read. -/
theorem isTruth_of_simple {s : Symbolic} (hs : s.isSimple = true)
    (hatom : s.isAtom = true → s.isBool = true → ω.IsTruth s) (h : s.isBool = true) : ω.IsTruth s := by
  cases s with
  | literal l =>
      obtain ⟨b, rfl⟩ := Literal.eq_bool_of_kind (beq_iff_eq.mp h)
      exact isTruth_iff.mpr ⟨b, ω.connects.bool b⟩
  | compare op left right => exact isTruth_iff.mpr ⟨_, by rw [value]⟩
  | field _ _ | call _ _ _ _ | staticCall _ _ _ | element _ _ _ | unboxed _ _ => exact hatom rfl h
  | negative _ kind | arith _ kind _ _ => exact absurd (beq_iff_eq.mp h) kind.toKind_ne_bool
  | var _ | threeWay _ _ _ | length _ => cases h
  | not _ | logical _ _ _ | conditional _ _ _ => cases hs

/-- Where no join puts a boolean together with another number, every value that is known to be a boolean is zero or
one. -/
theorem Formed.isTruth {s : Symbolic} (hs : ω.Formed ω.Alike s) (h : s.isBool = true) : ω.IsTruth s := by
  induction hs with
  | simple hs hatom => exact isTruth_of_simple hs hatom h
  | @joined test a b ht _ _ halike iha ihb =>
      simp only [isTruth_iff] at iha ihb ht ⊢
      refine ω.connects.isTruth_joinValues ht iha ihb ?_ h
      rintro (hbool | hbool)
      · exact ⟨iha hbool, isTruth_iff.mp (halike.right hbool)⟩
      · exact ⟨isTruth_iff.mp (halike.left hbool), ihb hbool⟩

theorem Formed.isTruth_of_shaped {s : Symbolic} (hs : ω.Formed ω.Alike s) (h : s.isBooleanShaped = true) :
    ω.IsTruth s :=
  isTruth_iff.mpr (ω.connects.isTruth_of_shaped (fun hbool => isTruth_iff.mp (hs.isTruth hbool)) h)

theorem value_eq_selected_iff {test taken fallthrough : Symbolic} (ht : ω.IsTruth test) :
    ω.value (joinValues test taken fallthrough) = ω.selected test taken fallthrough ↔
      taken = fallthrough ∨ taken.isBooleanShaped = false ∨ fallthrough.isBooleanShaped = false ∨
        ω.selected test taken fallthrough = 0 ∨ ω.selected test taken fallthrough = 1 := by
  obtain ⟨t, hvalue, hselected⟩ := ht.selects
  rw [ω.connects.value_joinValues hvalue, ← hselected]
  split
  · rename_i h
    obtain ⟨hne, ha, hb⟩ := h
    simp [truth_eq_self_iff, hne, ha, hb]
  · rename_i h
    by_cases heq : taken = fallthrough
    · simp [heq]
    · cases ha : taken.isBooleanShaped with
      | false => simp
      | true =>
          have hb : fallthrough.isBooleanShaped = false := by simpa [heq, ha] using h
          simp [hb]

/-- A join of integers has the value of the arm that the test selects exactly if its arms are equal, one of them is not
taken for a boolean, or the selected one is zero or one. So it does whenever no earlier join put a boolean together
with another number. -/
theorem value_joinValues_iff (ω : WordValuation) {test taken fallthrough : Symbolic} (ht : ω.IsTruth test) :
    (ω.value (joinValues test taken fallthrough) = ω.selected test taken fallthrough ↔
      taken = fallthrough ∨ taken.isBooleanShaped = false ∨ fallthrough.isBooleanShaped = false ∨
        ω.selected test taken fallthrough = 0 ∨ ω.selected test taken fallthrough = 1) ∧
    (ω.Formed ω.Alike taken → ω.Formed ω.Alike fallthrough →
      ω.value (joinValues test taken fallthrough) = ω.selected test taken fallthrough) := by
  refine ⟨value_eq_selected_iff ht, fun htaken hfall => (value_eq_selected_iff ht).mpr ?_⟩
  cases ha : taken.isBooleanShaped with
  | false => simp
  | true =>
      cases hb : fallthrough.isBooleanShaped with
      | false => simp
      | true =>
          refine .inr (.inr (.inr ?_))
          rw [selected]
          split
          · exact htaken.isTruth_of_shaped ha
          · exact hfall.isTruth_of_shaped hb

/-! ## Instances -/

def amount (name : String) : Symbolic := .field (.var 0) ⟨"a/Item", name, "I"⟩

def notPositive (name : String) : Symbolic := .compare .le (amount name) (.literal (.int 0))

/-- An item that is listed, and for which every other field is zero. -/
def listedItem : WordValuation where
  literal
    | .int n => n
    | .bool b => if b then 1 else 0
    | _ => 0
  var _ := 0
  field member _ := if member.name = "listed" then 1 else 0
  call _ _ receiver _ := receiver
  staticCall _ _ _ := 0
  negative _ v := -v
  arith _ _ a _ := a
  unboxed _ v := v
  threeWay _ a _ := a
  element _ array _ := array
  length array := array
  literal_int _ := rfl
  literal_bool _ := rfl

/-- A choice between two numbers, of which neither is a boolean. -/
def gradedChoice : Symbolic := joinValues (notPositive "graded") (.literal (.int 5)) (.literal (.int 7))

/-- The choice between a number and a choice between zero and one. -/
def mixedChoice : Symbolic :=
  joinValues (notPositive "graded") (.literal (.int 5))
    (joinValues (notPositive "sealed") (.literal (.int 0)) (.literal (.int 1)))

theorem formed_literal (Together : Symbolic → Symbolic → Prop) (l : Literal) :
    listedItem.Formed Together (.literal l) :=
  .simple rfl fun h => by cases h

/-- For an item that is listed, the choice between one and `gradedChoice` is the latter, which is five. -/
theorem value_joinValues_gradedChoice :
    listedItem.IsTruth (notPositive "listed") ∧ listedItem.Formed listedItem.Alike gradedChoice ∧
      listedItem.selected (notPositive "listed") (.literal (.int 1)) gradedChoice = 5 ∧
      listedItem.value (joinValues (notPositive "listed") (.literal (.int 1)) gradedChoice) = 5 := by
  have htest : listedItem.IsTruth (notPositive "listed") := .inl (by decide)
  have halike : listedItem.Alike (.literal (.int 5)) (.literal (.int 7)) := by
    constructor <;> (intro h; cases h)
  have hgraded : listedItem.Formed listedItem.Alike gradedChoice :=
    .joined (.inr (by decide)) (formed_literal _ _) (formed_literal _ _) halike
  exact ⟨htest, hgraded, by decide,
    (value_joinValues_iff listedItem htest).2 (formed_literal _ _) hgraded⟩

/-- For an item that is listed, the choice between one and `mixedChoice` would be the latter, which is five. It is
written as a disjunction, because `mixedChoice` is taken for a boolean, and its value is one. -/
theorem value_joinValues_mixedChoice :
    listedItem.Formed (fun _ _ => True) (.literal (.int 1)) ∧ listedItem.Formed (fun _ _ => True) mixedChoice ∧
      listedItem.value (notPositive "listed") = 0 ∧ listedItem.value mixedChoice = 5 ∧
      joinValues (notPositive "listed") (.literal (.int 1)) mixedChoice =
        .logical .or (notPositive "listed") mixedChoice ∧
      listedItem.value (joinValues (notPositive "listed") (.literal (.int 1)) mixedChoice) = 1 := by
  have hmixed : listedItem.Formed (fun _ _ => True) mixedChoice :=
    .joined (.inr (by decide)) (formed_literal _ _)
      (.joined (.inr (by decide)) (formed_literal _ _) (formed_literal _ _) trivial) trivial
  exact ⟨formed_literal _ _, hmixed, by decide, by decide, by decide, by decide⟩

end WordValuation

end PredicateLift
