import PredicateLift.Flow.Join
import PredicateLift.Proofs.Fallible
import PredicateLift.Proofs.Value.Integers
import PredicateLift.Symbolic.Step
import Mathlib.Order.Compare
import Mathlib.Order.Lattice

/-!
# Values of symbolic values

A valuation gives every symbolic value a value in a linear order, composed from the values of its parts. Booleans are
the integers zero and one. What a field, a call or an element of an array gives is any function of the values of its
operands, as long as it agrees with what is read of literals. The main statements are the value of a test, and the
value of a join: that of the arm which the test selects.
-/

namespace PredicateLift

/-- Whether two values pass a comparison in their order. -/
def Comparison.passes {V : Type} [LinearOrder V] (op : Comparison) (a b : V) : Bool :=
  op.holds (cmp a b)

theorem Comparison.passes_negate {V : Type} [LinearOrder V] (op : Comparison) (a b : V) :
    op.negate.passes a b = !op.passes a b :=
  op.holds_negate (cmp a b)

theorem Comparison.eq_passes_iff {V : Type} [LinearOrder V] {a b : V} : Comparison.eq.passes a b = true ↔ a = b := by
  rw [Comparison.passes, Comparison.holds, beq_iff_eq, cmp_eq_eq_iff]

/-- Meanings for the literals, the variables and the operations that a symbolic value is built from. -/
structure Valuation (V : Type) [LinearOrder V] where
  literal : Literal → V
  var : Slot → V
  field : Member → V → V
  call : Member → Kind → V → List V → V
  staticCall : Member → Kind → List V → V
  negative : NumericKind → V → V
  arith : Operator → NumericKind → V → V → V
  element : Kind → V → V → V
  length : V → V
  false_eq : literal (.bool false) = literal (.int 0)
  true_eq : literal (.bool true) = literal (.int 1)
  negative_lt_zero : literal (.int (-1)) < literal (.int 0)
  zero_lt_one : literal (.int 0) < literal (.int 1)
  field_object : ∀ {typeName fields member value}, fields.lookup member.name = some value →
    field member (literal (.object typeName fields)) = literal value
  call_object : ∀ {object method kind value}, accessedProperty? (.literal object) method = some value →
    call method kind (literal object) [] = literal value
  element_array : ∀ {items index kind item}, Symbolic.itemAt? items index = some item →
    element kind (literal (.array items)) (literal (.int index)) = literal item
  length_array : ∀ {items}, length (literal (.array items)) = literal (.int (Int32.ofNat items.length))

namespace Valuation

variable {V : Type} [LinearOrder V] (ρ : Valuation V)

def truth (b : Bool) : V := ρ.literal (.bool b)

/-- Whether a value counts as true: every value but zero does. -/
def holds (v : V) : Bool := v ≠ ρ.literal (.int 0)

/-- The order of two values as a value: minus one, zero or one. -/
def sign (a b : V) : V :=
  match cmp a b with
  | .lt => ρ.literal (.int (-1))
  | .eq => ρ.literal (.int 0)
  | .gt => ρ.literal (.int 1)

mutual

/-- The value of a symbolic value. -/
@[simp] def value : Symbolic → V
  | .literal v => ρ.literal v
  | .var slot => ρ.var slot
  | .field receiver member => ρ.field member (value receiver)
  | .call receiver method args kind => ρ.call method kind (value receiver) (values args)
  | .staticCall method args kind => ρ.staticCall method kind (values args)
  | .negative operand kind => ρ.negative kind (value operand)
  | .arith op kind left right => ρ.arith op kind (value left) (value right)
  | .compare op left right => ρ.truth (op.passes (value left) (value right))
  | .not operand => ρ.truth (!ρ.holds (value operand))
  | .logical .and left right => ρ.truth (ρ.holds (value left) && ρ.holds (value right))
  | .logical .or left right => ρ.truth (ρ.holds (value left) || ρ.holds (value right))
  | .unboxed v _ => value v
  | .threeWay left right _ => ρ.sign (value left) (value right)
  | .conditional test thenValue elseValue => if ρ.holds (value test) then value thenValue else value elseValue
  | .element array index kind => ρ.element kind (value array) (value index)
  | .length array => ρ.length (value array)

@[simp] def values : List Symbolic → List V
  | [] => []
  | s :: rest => value s :: values rest

end

theorem values_eq_map (args : List Symbolic) : ρ.values args = args.map ρ.value := by
  induction args with
  | nil => rfl
  | cons s rest ih => simp [values, ih]

/-! ## Truth values -/

@[simp] theorem holds_truth (b : Bool) : ρ.holds (ρ.truth b) = b := by
  cases b with
  | false => simp [holds, truth, ρ.false_eq]
  | true => simpa [holds, truth, ρ.true_eq] using ne_of_gt ρ.zero_lt_one

def IsTruth (s : Symbolic) : Prop := ∃ b, ρ.value s = ρ.truth b

variable {ρ}

theorem isTruth_compare (op : Comparison) (left right : Symbolic) : ρ.IsTruth (.compare op left right) :=
  ⟨_, by rw [value]⟩

theorem isTruth_not (operand : Symbolic) : ρ.IsTruth (.not operand) :=
  ⟨_, by rw [value]⟩

variable (ρ)

/-- The order of two values compares with zero as the values do with one another. -/
theorem passes_sign_zero (op : Comparison) (a b : V) :
    op.passes (ρ.sign a b) (ρ.literal (.int 0)) = op.passes a b := by
  unfold Comparison.passes sign
  cases cmp a b with
  | lt => rw [(cmp_eq_lt_iff _ _).mpr ρ.negative_lt_zero]
  | eq => rw [cmp_self_eq_eq]
  | gt => rw [(cmp_eq_gt_iff _ _).mpr ρ.zero_lt_one]

/-! ## What is read, called and unboxed -/

theorem value_unbox (s : Symbolic) (kind : Kind) : ρ.value (s.unbox kind) = ρ.value s := by
  unfold Symbolic.unbox
  split
  · rfl
  · split
    · rfl
    · rw [value]

theorem value_readField {receiver : Symbolic} {member : Member} :
    WhenOk (receiver.readField member) fun s => ρ.value s = ρ.field member (ρ.value receiver) := by
  unfold Symbolic.readField
  split
  · split
    · rename_i hlookup
      exact .ok (by rw [value, value, ρ.field_object hlookup])
    · exact .error
  · exact .error
  · exact .ok (by rw [value])

theorem value_readElement {array index : Symbolic} {kind : Kind} :
    WhenOk (array.readElement index kind) fun s =>
      ρ.value s = ρ.element kind (ρ.value array) (ρ.value index) := by
  unfold Symbolic.readElement
  split
  · split
    · rename_i hitem
      exact .ok (by rw [value, value, value, ρ.element_array hitem])
    · exact .error
  · exact .error
  · exact .ok (by rw [value])

theorem value_readLength {array : Symbolic} :
    WhenOk array.readLength fun s => ρ.value s = ρ.length (ρ.value array) := by
  unfold Symbolic.readLength
  split
  · exact .ok (by rw [value, value, ρ.length_array])
  · exact .error
  · exact .ok (by rw [value])

/-- The value of a call of a method with a receiver, from the values of its operands. -/
def callValue (registry : Registry) (method : Member) (kind : Kind) (receiver : V) : List V → V
  | [arg] => if registry.get? method = some .equals then ρ.truth (Comparison.eq.passes receiver arg)
    else ρ.call method kind receiver [arg]
  | args => ρ.call method kind receiver args

theorem value_callResult {registry : Registry} {method : Member} {receiver : Symbolic} {args : List Symbolic}
    {kind : Kind} : WhenOk (callResult registry method receiver args kind) fun s =>
      ρ.value s = ρ.callValue registry method kind (ρ.value receiver) (ρ.values args) := by
  intro s h
  unfold callResult at h
  split at h
  · rename_i hget
    cases h
    simp [values, value, callValue, hget]
  · cases h
  · split at h
    · rename_i object hread
      cases h
      cases receiver with
      | literal l => simp only [values, callValue, value, ρ.call_object hread]
      | _ => simp [accessedProperty?] at hread
    · cases h
      simp [values, callValue, value]
  · rename_i args _ _ hnil hequals _
    cases h
    cases args with
    | nil => exact absurd rfl hnil
    | cons arg rest =>
        cases rest with
        | nil => simp only [values, callValue, value, if_neg hequals]
        | cons _ _ => simp [values, callValue, value]

def staticCallValue (registry : Registry) (method : Member) (kind : Kind) : List V → V
  | [left, right] => if registry.get? method = some .equals then ρ.truth (Comparison.eq.passes left right)
    else ρ.staticCall method kind [left, right]
  | args => ρ.staticCall method kind args

theorem value_staticCallResult {registry : Registry} {method : Member} {args : List Symbolic} {kind : Kind} :
    WhenOk (staticCallResult registry method args kind) fun s =>
      ρ.value s = ρ.staticCallValue registry method kind (ρ.values args) := by
  intro s h
  unfold staticCallResult at h
  split at h
  · rename_i hget
    cases h
    simp [values, value, staticCallValue, hget]
  · cases h
  · rename_i args _ _ hequals _
    cases h
    match args with
    | [] => simp [values, staticCallValue, value]
    | [_] => simp [values, staticCallValue, value]
    | [_, _] => simp only [values, staticCallValue, value, if_neg hequals]
    | _ :: _ :: _ :: _ => simp [values, staticCallValue, value]

/-! ## Tests -/

theorem eq_passes_zero (v : V) : Comparison.eq.passes v (ρ.literal (.int 0)) = !ρ.holds v := by
  rw [Bool.eq_iff_iff, Comparison.eq_passes_iff]
  simp [holds]

theorem ne_passes_zero (v : V) : Comparison.ne.passes v (ρ.literal (.int 0)) = ρ.holds v := by
  rw [show Comparison.ne = Comparison.negate .eq from rfl, Comparison.passes_negate, eq_passes_zero, Bool.not_not]

/-- A test against zero holds exactly if the value passes the comparison with zero. -/
theorem holds_zeroTest (op : Comparison) (s : Symbolic) :
    ρ.holds (ρ.value (zeroTest op s)) = op.passes (ρ.value s) (ρ.literal (.int 0)) := by
  unfold zeroTest
  split
  · rename_i left right bias
    rw [value, passes_sign_zero]
    unfold threeWayTest
    split
    · simp [value]
    · split
      · simp [value, Comparison.passes_negate]
      · simp [value]
  · split
    · rename_i hbool
      obtain ⟨_, rfl⟩ : s.isBool = true ∧ op = .eq := by simpa using hbool
      rw [value, holds_truth, eq_passes_zero]
    · split
      · rename_i hbool
        obtain ⟨_, rfl⟩ : s.isBool = true ∧ op = .ne := by simpa using hbool
        rw [ne_passes_zero]
      · simp [value]

end Valuation

end PredicateLift
