import PredicateLift.Binary.Decimal
import PredicateLift.Bindings
import PredicateLift.Value.Kind

/-!
# Literal values

A literal is a value known before a predicate runs: a constant of its code or a value that it captured. Equality of
literals is equality of their parts, and floating-point parts are equal when their bit patterns are.
-/

namespace PredicateLift

/-- A known value. The fields of an object are listed by name in increasing order. -/
inductive Literal where
  | null
  | bool (value : Bool)
  | int (value : Int32)
  | long (value : Int64)
  | float (value : Single)
  | double (value : Double)
  | str (value : String)
  | array (items : List Literal)
  | object (typeName : String) (fields : List (String × Literal))
  | constant (owner name : String)

namespace Literal

/-! ## Equality -/

mutual

/-- Structural equality. -/
def same : Literal → Literal → Bool
  | null, null => true
  | bool a, bool b => a == b
  | int a, int b => a == b
  | long a, long b => a == b
  | float a, float b => a == b
  | double a, double b => a == b
  | str a, str b => a == b
  | array a, array b => sameItems a b
  | object t a, object u b => t == u && sameFields a b
  | constant o n, constant p m => o == p && n == m
  | _, _ => false

/-- Structural equality of lists of literals. -/
def sameItems : List Literal → List Literal → Bool
  | [], [] => true
  | a :: as, b :: bs => same a b && sameItems as bs
  | _, _ => false

/-- Structural equality of lists of fields. -/
def sameFields : List (String × Literal) → List (String × Literal) → Bool
  | [], [] => true
  | (m, a) :: as, (n, b) :: bs => m == n && same a b && sameFields as bs
  | _, _ => false

end

mutual

theorem same_refl : (a : Literal) → same a a = true
  | null => rfl
  | bool _ => by simp [same]
  | int _ => by simp [same]
  | long _ => by simp [same]
  | float _ => by simp [same]
  | double _ => by simp [same]
  | str _ => by simp [same]
  | array items => by simp [same, sameItems_refl items]
  | object _ fields => by simp [same, sameFields_refl fields]
  | constant _ _ => by simp [same]

theorem sameItems_refl : (as : List Literal) → sameItems as as = true
  | [] => rfl
  | a :: as => by simp [sameItems, same_refl a, sameItems_refl as]

theorem sameFields_refl : (as : List (String × Literal)) → sameFields as as = true
  | [] => rfl
  | (_, a) :: as => by simp [sameFields, same_refl a, sameFields_refl as]

end

mutual

theorem eq_of_same : {a b : Literal} → same a b = true → a = b
  | null, b, h => by cases b <;> simp_all [same]
  | bool _, b, h => by cases b <;> simp_all [same]
  | int _, b, h => by cases b <;> simp_all [same]
  | long _, b, h => by cases b <;> simp_all [same]
  | float _, b, h => by cases b <;> simp_all [same]
  | double _, b, h => by cases b <;> simp_all [same]
  | str _, b, h => by cases b <;> simp_all [same]
  | array items, b, h => by
      cases b <;> simp only [same, Bool.false_eq_true] at h
      rw [eq_of_sameItems h]
  | object _ fields, b, h => by
      cases b <;> simp only [same, Bool.false_eq_true, Bool.and_eq_true, beq_iff_eq] at h
      rw [h.1, eq_of_sameFields h.2]
  | constant _ _, b, h => by cases b <;> simp_all [same]

theorem eq_of_sameItems : {as bs : List Literal} → sameItems as bs = true → as = bs
  | [], [], _ => rfl
  | a :: as, b :: bs, h => by
      simp only [sameItems, Bool.and_eq_true] at h
      rw [eq_of_same h.1, eq_of_sameItems h.2]

theorem eq_of_sameFields : {as bs : List (String × Literal)} → sameFields as bs = true → as = bs
  | [], [], _ => rfl
  | (_, a) :: as, (_, b) :: bs, h => by
      simp only [sameFields, Bool.and_eq_true, beq_iff_eq] at h
      rw [h.1.1, eq_of_same h.1.2, eq_of_sameFields h.2]

end

instance : DecidableEq Literal := fun a b =>
  decidable_of_iff (same a b = true) ⟨eq_of_same, fun h => h ▸ same_refl a⟩

/-! ## Reading a literal -/

mutual

/-- The kind of a literal. The element kind of an array is known when its items agree on it. -/
def kind : Literal → Kind
  | null => .null
  | bool _ => .bool
  | int _ => .int
  | long _ => .long
  | float _ => .float
  | double _ => .double
  | str _ => .str
  | array items => match itemKinds items with
    | first :: rest => .array (if rest.all (· == first) then first else .unknown)
    | [] => .array .unknown
  | object typeName _ => .object typeName
  | constant owner _ => .object owner

/-- The kinds of the items of an array. -/
def itemKinds : List Literal → List Kind
  | [] => []
  | item :: items => item.kind :: itemKinds items

end

theorem eq_bool_of_kind {l : Literal} (h : l.kind = .bool) : ∃ b, l = .bool b := by
  cases l with
  | bool b => exact ⟨b, rfl⟩
  | array items =>
      simp only [kind] at h
      split at h
      · cases h
      · cases h
  | _ => cases h

/-- The kind of number a literal is. -/
def numeric? : Literal → Option NumericKind
  | int _ => some .int
  | long _ => some .long
  | float _ => some .float
  | double _ => some .double
  | _ => none

/-- The truth value of a boolean literal. -/
def bool? : Literal → Option Bool
  | bool value => some value
  | _ => none

/-- Whether a literal is a number equal to zero. -/
def isZero : Literal → Bool
  | int value => value == 0
  | long value => value == 0
  | float value => value.isZero
  | double value => value.isZero
  | _ => false

/-- Whether a literal is a reference to something. -/
def isReference : Literal → Bool
  | str _ | array _ | object _ _ | constant _ _ => true
  | _ => false

/-- An object with the given fields, of which the last binding of each name counts. -/
def ofFields (typeName : String) (fields : List (String × Literal)) : Literal :=
  .object typeName (Bindings.ofList fields)

end Literal

/-! ## Text -/

/-- The part of a qualified name after its last separator. -/
def simpleName (qualified : String) : String :=
  String.ofList (qualified.toList.reverse.takeWhile fun c => c != '/' && c != '.').reverse

namespace Literal

mutual

/-- How a literal is shown. -/
def text : Literal → String
  | null => "null"
  | bool value => if value then "true" else "false"
  | int value => toString value.toInt
  | long value => toString value.toInt ++ "L"
  | float value => value.text ++ "f"
  | double value => value.text
  | str value => Text.quote value
  | array items => "\x7b" ++ ", ".intercalate (itemTexts items) ++ "\x7d"
  | object typeName _ => "<" ++ typeName ++ ">"
  | constant owner name => simpleName owner ++ "." ++ name

/-- How the items of an array are shown. -/
def itemTexts : List Literal → List String
  | [] => []
  | item :: items => item.text :: itemTexts items

end

end Literal

end PredicateLift
