import PredicateLift.Code.Descriptor
import PredicateLift.Code.Instruction

/-!
# Symbolic values

What the operand stack and the local variables hold while a body is followed without knowing its subject: literals
where values are known, and terms over the variables where they are not.
-/

namespace PredicateLift

/-- A value that may depend on the subject. -/
inductive Symbolic where
  | literal (value : Literal)
  | var (slot : Slot)
  | field (receiver : Symbolic) (field : Member)
  | call (receiver : Symbolic) (method : Member) (args : List Symbolic) (kind : Kind)
  | staticCall (method : Member) (args : List Symbolic) (kind : Kind)
  | negative (operand : Symbolic) (kind : NumericKind)
  | arith (op : Operator) (kind : NumericKind) (left right : Symbolic)
  | compare (op : Comparison) (left right : Symbolic)
  | not (operand : Symbolic)
  | logical (op : Connective) (left right : Symbolic)
  /-- A wrapped value that was unwrapped; only its kind is new. -/
  | unboxed (value : Symbolic) (kind : Kind)
  /-- The outcome of a three-way comparison, for a branch to test. -/
  | threeWay (left right : Symbolic) (bias : Bias)
  | conditional (test thenValue elseValue : Symbolic)
  | element (array index : Symbolic) (kind : Kind)
  | length (array : Symbolic)

namespace Symbolic

/-- A boolean literal. -/
def bool (value : Bool) : Symbolic :=
  .literal (.bool value)

/-! ## Equality -/

mutual

/-- Structural equality. -/
def same : Symbolic → Symbolic → Bool
  | literal a, literal b => a == b
  | var a, var b => a == b
  | field a m, field b n => same a b && m == n
  | call a m as j, call b n bs k => same a b && m == n && sameAll as bs && j == k
  | staticCall m as j, staticCall n bs k => m == n && sameAll as bs && j == k
  | negative a j, negative b k => same a b && j == k
  | arith p j a b, arith q k c d => p == q && j == k && same a c && same b d
  | compare p a b, compare q c d => p == q && same a c && same b d
  | not a, not b => same a b
  | logical p a b, logical q c d => p == q && same a c && same b d
  | unboxed a j, unboxed b k => same a b && j == k
  | threeWay a b i, threeWay c d j => same a c && same b d && i == j
  | conditional a b c, conditional d e f => same a d && same b e && same c f
  | element a b j, element c d k => same a c && same b d && j == k
  | length a, length b => same a b
  | _, _ => false

/-- Structural equality of lists of values. -/
def sameAll : List Symbolic → List Symbolic → Bool
  | [], [] => true
  | a :: as, b :: bs => same a b && sameAll as bs
  | _, _ => false

end

mutual

theorem same_refl : (a : Symbolic) → same a a = true
  | literal _ => by simp [same]
  | var _ => by simp [same]
  | field a _ => by simp [same, same_refl a]
  | call a _ as _ => by simp [same, same_refl a, sameAll_refl as]
  | staticCall _ as _ => by simp [same, sameAll_refl as]
  | negative a _ => by simp [same, same_refl a]
  | arith _ _ a b => by simp [same, same_refl a, same_refl b]
  | compare _ a b => by simp [same, same_refl a, same_refl b]
  | not a => by simp [same, same_refl a]
  | logical _ a b => by simp [same, same_refl a, same_refl b]
  | unboxed a _ => by simp [same, same_refl a]
  | threeWay a b _ => by simp [same, same_refl a, same_refl b]
  | conditional a b c => by simp [same, same_refl a, same_refl b, same_refl c]
  | element a b _ => by simp [same, same_refl a, same_refl b]
  | length a => by simp [same, same_refl a]

theorem sameAll_refl : (as : List Symbolic) → sameAll as as = true
  | [] => rfl
  | a :: as => by simp [sameAll, same_refl a, sameAll_refl as]

end

mutual

theorem eq_of_same : {a b : Symbolic} → same a b = true → a = b
  | literal _, b, h => by cases b <;> simp_all [same]
  | var _, b, h => by cases b <;> simp_all [same]
  | field _ _, b, h => by
      cases b <;> simp only [same, Bool.false_eq_true, Bool.and_eq_true, beq_iff_eq] at h
      rw [eq_of_same h.1, h.2]
  | call _ _ _ _, b, h => by
      cases b <;> simp only [same, Bool.false_eq_true, Bool.and_eq_true, beq_iff_eq] at h
      rw [eq_of_same h.1.1.1, h.1.1.2, eq_of_sameAll h.1.2, h.2]
  | staticCall _ _ _, b, h => by
      cases b <;> simp only [same, Bool.false_eq_true, Bool.and_eq_true, beq_iff_eq] at h
      rw [h.1.1, eq_of_sameAll h.1.2, h.2]
  | negative _ _, b, h => by
      cases b <;> simp only [same, Bool.false_eq_true, Bool.and_eq_true, beq_iff_eq] at h
      rw [eq_of_same h.1, h.2]
  | arith _ _ _ _, b, h => by
      cases b <;> simp only [same, Bool.false_eq_true, Bool.and_eq_true, beq_iff_eq] at h
      rw [h.1.1.1, h.1.1.2, eq_of_same h.1.2, eq_of_same h.2]
  | compare _ _ _, b, h => by
      cases b <;> simp only [same, Bool.false_eq_true, Bool.and_eq_true, beq_iff_eq] at h
      rw [h.1.1, eq_of_same h.1.2, eq_of_same h.2]
  | not _, b, h => by
      cases b <;> simp only [same, Bool.false_eq_true] at h
      rw [eq_of_same h]
  | logical _ _ _, b, h => by
      cases b <;> simp only [same, Bool.false_eq_true, Bool.and_eq_true, beq_iff_eq] at h
      rw [h.1.1, eq_of_same h.1.2, eq_of_same h.2]
  | unboxed _ _, b, h => by
      cases b <;> simp only [same, Bool.false_eq_true, Bool.and_eq_true, beq_iff_eq] at h
      rw [eq_of_same h.1, h.2]
  | threeWay _ _ _, b, h => by
      cases b <;> simp only [same, Bool.false_eq_true, Bool.and_eq_true, beq_iff_eq] at h
      rw [eq_of_same h.1.1, eq_of_same h.1.2, h.2]
  | conditional _ _ _, b, h => by
      cases b <;> simp only [same, Bool.false_eq_true, Bool.and_eq_true] at h
      rw [eq_of_same h.1.1, eq_of_same h.1.2, eq_of_same h.2]
  | element _ _ _, b, h => by
      cases b <;> simp only [same, Bool.false_eq_true, Bool.and_eq_true, beq_iff_eq] at h
      rw [eq_of_same h.1.1, eq_of_same h.1.2, h.2]
  | length _, b, h => by
      cases b <;> simp only [same, Bool.false_eq_true] at h
      rw [eq_of_same h]

theorem eq_of_sameAll : {as bs : List Symbolic} → sameAll as bs = true → as = bs
  | [], [], _ => rfl
  | _ :: _, _ :: _, h => by
      simp only [sameAll, Bool.and_eq_true] at h
      rw [eq_of_same h.1, eq_of_sameAll h.2]

end

instance : DecidableEq Symbolic := fun a b =>
  decidable_of_iff (same a b = true) ⟨eq_of_same, fun h => h ▸ same_refl a⟩

/-! ## Kinds -/

/-- The kind of a value, as far as it is known. -/
def kind : Symbolic → Kind
  | literal value => value.kind
  | var _ => .unknown
  | field _ member => (Kind.ofFieldDescriptor? member.descriptor).getD .unknown
  | call _ _ _ kind => kind
  | staticCall _ _ kind => kind
  | negative _ kind => kind.toKind
  | arith _ kind _ _ => kind.toKind
  | compare _ _ _ => .bool
  | not _ => .bool
  | logical _ _ _ => .bool
  | unboxed _ kind => kind
  | threeWay _ _ _ => .int
  | conditional _ thenValue elseValue =>
    let a := thenValue.kind
    let b := elseValue.kind
    if a = .bool ∨ b = .bool then .bool else if a = b then a else .unknown
  | element _ _ kind => kind
  | length _ => .int

/-- Whether a value is known to be a boolean. -/
def isBool (value : Symbolic) : Bool :=
  value.kind == .bool

/-- Whether a value is a boolean or one of the integers that stand for booleans in code. -/
def isBooleanShaped (value : Symbolic) : Bool :=
  value = .literal (.int 0) || value = .literal (.int 1) || value.isBool

/-- The truth value of a boolean literal. -/
def bool? : Symbolic → Option Bool
  | literal (.bool value) => some value
  | _ => none

theorem eq_of_bool? {s : Symbolic} {b : Bool} (h : s.bool? = some b) : s = .bool b := by
  unfold bool? at h
  split at h
  · cases h
    rfl
  · cases h

/-- Splits a connective whose right operand is `tail` into the connective and its left operand. -/
def splitTail? (value tail : Symbolic) : Option (Connective × Symbolic) :=
  match value with
  | logical op left right => if right = tail then some (op, left) else none
  | _ => none

theorem eq_of_splitTail? {s tail left : Symbolic} {op : Connective} (h : s.splitTail? tail = some (op, left)) :
    s = .logical op left tail := by
  unfold splitTail? at h
  split at h
  · split at h
    · rename_i htail
      cases h
      rw [htail]
    · cases h
  · cases h

/-- The integers zero and one as booleans, also as branches of conditionals; any other value is left as it is. -/
def toBool : Symbolic → Symbolic
  | literal (.int value) =>
    if value = 0 then bool false else if value = 1 then bool true else .literal (.int value)
  | conditional test thenValue elseValue => .conditional test thenValue.toBool elseValue.toBool
  | value => value

/-- What relates zero and one to their booleans, every value to itself, and conditionals of which the branches are
related, relates a value to its boolean form. -/
theorem toBool_induction {P : Symbolic → Symbolic → Prop} (hzero : P (.literal (.int 0)) (bool false))
    (hone : P (.literal (.int 1)) (bool true)) (hsame : ∀ s, P s s)
    (hconditional : ∀ {test a a' b b'}, P a a' → P b b' → P (.conditional test a b) (.conditional test a' b'))
    (s : Symbolic) : P s s.toBool := by
  fun_induction toBool s with
  | case1 => exact hzero
  | case2 => exact hone
  | case3 value => exact hsame (.literal (.int value))
  | case4 test a b iha ihb => exact hconditional iha ihb
  | case5 s => exact hsame s

end Symbolic

end PredicateLift
