import PredicateLift.Proofs.Fallible
import PredicateLift.Symbolic.Lowering
import Mathlib.Logic.Relation

/-!
# Values that have a query form

A value that is read off the subject by fields, calls without arguments, elements and lengths becomes a path, and no
other value does. Since a field, an element and a length are read of paths only, whether a value has a query form can be
told from its parts. The main statement says exactly when it does, and when the form is a path.
-/

namespace PredicateLift.Symbolic

/-! ## Parts -/

/-- The direct parts of a value. -/
def children : Symbolic → List Symbolic
  | literal _ => []
  | var _ => []
  | field receiver _ => [receiver]
  | call receiver _ args _ => receiver :: args
  | staticCall _ args _ => args
  | negative operand _ => [operand]
  | arith _ _ left right => [left, right]
  | compare _ left right => [left, right]
  | not operand => [operand]
  | logical _ left right => [left, right]
  | unboxed value _ => [value]
  | threeWay left right _ => [left, right]
  | conditional test thenValue elseValue => [test, thenValue, elseValue]
  | element array index _ => [array, index]
  | length array => [array]

mutual

@[elab_as_elim]
theorem induction_on_parts {P : Symbolic → Prop} (s : Symbolic) (h : ∀ s, (∀ c ∈ s.children, P c) → P s) : P s :=
  match s with
  | literal _ | var _ => h _ (by simp [children])
  | field a _ | negative a _ | not a | unboxed a _ | length a => h _ (by simp [children, induction_on_parts a h])
  | arith _ _ a b | compare _ a b | logical _ a b | threeWay a b _ | element a b _ =>
      h _ (by simp [children, induction_on_parts a h, induction_on_parts b h])
  | conditional a b c =>
      h _ (by simp [children, induction_on_parts a h, induction_on_parts b h, induction_on_parts c h])
  | call receiver _ args _ =>
      h _ (List.forall_mem_cons.mpr ⟨induction_on_parts receiver h, forall_of_parts args h⟩)
  | staticCall _ args _ => h _ (forall_of_parts args h)

theorem forall_of_parts {P : Symbolic → Prop} (args : List Symbolic) (h : ∀ s, (∀ c ∈ s.children, P c) → P s) :
    ∀ s ∈ args, P s :=
  match args with
  | [] => List.forall_mem_nil _
  | s :: rest => List.forall_mem_cons.mpr ⟨induction_on_parts s h, forall_of_parts rest h⟩

end

/-- The first value is the second one or occurs in it. -/
def Within : Symbolic → Symbolic → Prop :=
  Relation.ReflTransGen fun c s => c ∈ s.children

theorem forall_within_iff {P : Symbolic → Prop} {s : Symbolic} :
    (∀ t, t.Within s → P t) ↔ P s ∧ ∀ c ∈ s.children, ∀ t, t.Within c → P t := by
  constructor
  · intro h
    exact ⟨h s .refl, fun c hc t ht => h t (ht.tail hc)⟩
  · rintro ⟨hs, hc⟩ t ht
    rcases ht.cases_tail with rfl | ⟨c, htc, hmem⟩
    · exact hs
    · exact hc c hmem t htc

/-! ## Query forms -/

/-- The subject itself, or what is read off it step by step. -/
inductive PathShaped (subject : Slot) : Symbolic → Prop
  | var : PathShaped subject (.var subject)
  | field {receiver member} : PathShaped subject receiver → PathShaped subject (.field receiver member)
  | call {receiver method kind} : PathShaped subject receiver → PathShaped subject (.call receiver method [] kind)
  | element {array index kind} : PathShaped subject array → PathShaped subject (.element array index kind)
  | length {array} : PathShaped subject array → PathShaped subject (.length array)
  | unboxed {value kind} : PathShaped subject value → PathShaped subject (.unboxed value kind)

/-- What a query form asks of a node: the variable is the subject, no three-way comparison is left, and what is read by
field, element or length is read of a path, an element at a known index that is not negative. -/
def Queryable (subject : Slot) : Symbolic → Prop
  | var slot => slot = subject
  | threeWay _ _ _ => False
  | field receiver _ => receiver.PathShaped subject
  | length array => array.PathShaped subject
  | element array index _ => array.PathShaped subject ∧ ∃ i : Int32, index = .literal (.int i) ∧ 0 ≤ i
  | _ => True

variable {subject : Slot}

theorem path?_eq_some_iff {e : Expr} {p : Path} : path? e = some p ↔ e = .path p := by
  cases e <;> simp [path?]

theorem indexSegment?_eq_some_iff {index : Symbolic} {segment : Segment} :
    indexSegment? index = some segment ↔
      ∃ i : Int32, index = .literal (.int i) ∧ 0 ≤ i ∧ segment = .index i.toUInt32 := by
  unfold indexSegment?
  split
  · simp [eq_comm]
  · rename_i hindex
    simp only [reduceCtorEq, false_iff]
    rintro ⟨i, rfl, -⟩
    exact hindex i rfl

theorem lower_var_eq_ok_iff {slot : Slot} {e : Expr} :
    (var slot).lower subject = .ok e ↔ slot = subject ∧ e = .path .root := by
  rw [lower]
  split <;> simp_all [eq_comm]

/-- A step of a path is taken from paths only. -/
theorem bind_path_eq_ok_iff {x : Except Fault Expr} {f : Expr → Except Fault Expr} {e : Expr} (segment : Segment)
    (hpath : ∀ p, f (.path p) = .ok (.path (p.child segment)))
    (hother : ∀ target, path? target = none → ∃ fault, f target = .error fault) :
    (x >>= f) = .ok e ↔ ∃ p, x = .ok (.path p) ∧ e = .path (p.child segment) := by
  rw [bind_eq_ok_iff]
  constructor
  · rintro ⟨target, htarget, h⟩
    cases hp : path? target with
    | some p =>
        cases path?_eq_some_iff.mp hp
        cases (hpath p).symm.trans h
        exact ⟨p, htarget, rfl⟩
    | none =>
        obtain ⟨fault, hfault⟩ := hother target hp
        cases hfault.symm.trans h
  · rintro ⟨p, hp, rfl⟩
    exact ⟨.path p, hp, hpath p⟩

theorem lower_field_eq_ok_iff {receiver : Symbolic} {member : Member} {e : Expr} :
    (field receiver member).lower subject = .ok e ↔
      ∃ p, receiver.lower subject = .ok (.path p) ∧ e = .path (p.child (.field member.name)) := by
  rw [lower]
  apply bind_path_eq_ok_iff (.field member.name)
  · intro p
    rfl
  · intro target htarget
    simp [htarget]

theorem lower_length_eq_ok_iff {array : Symbolic} {e : Expr} :
    (length array).lower subject = .ok e ↔
      ∃ p, array.lower subject = .ok (.path p) ∧ e = .path (p.child .length) := by
  rw [lower]
  apply bind_path_eq_ok_iff .length
  · intro p
    rfl
  · intro target htarget
    simp [htarget]

theorem lower_element_eq_ok_iff {array index : Symbolic} {kind : Kind} {e : Expr} :
    (element array index kind).lower subject = .ok e ↔
      ∃ p, array.lower subject = .ok (.path p) ∧
        ∃ i : Int32, index = .literal (.int i) ∧ 0 ≤ i ∧ e = .path (p.child (.index i.toUInt32)) := by
  rw [lower]
  constructor
  · intro h
    cases hindex : indexSegment? index with
    | none =>
        obtain ⟨target, -, h⟩ := bind_eq_ok_iff.mp h
        simp [hindex] at h
    | some segment =>
        rw [hindex, bind_path_eq_ok_iff segment (fun p => rfl) (fun target h => by simp [h])] at h
        obtain ⟨p, hp, rfl⟩ := h
        obtain ⟨i, rfl, hi, rfl⟩ := indexSegment?_eq_some_iff.mp hindex
        exact ⟨p, hp, i, rfl, hi, rfl⟩
  · rintro ⟨p, hp, i, rfl, hi, rfl⟩
    rw [hp, indexSegment?_eq_some_iff.mpr ⟨i, rfl, hi, rfl⟩]
    rfl

theorem lower_call_eq_ok_iff {receiver : Symbolic} {method : Member} {args : List Symbolic} {kind : Kind} {e : Expr} :
    (call receiver method args kind).lower subject = .ok e ↔
      ∃ target, receiver.lower subject = .ok target ∧
        ∃ es, lowerAll subject args = .ok es ∧ lowerCall target method es = e := by
  simp only [lower, bind_eq_ok_iff, pure_eq_ok_iff]

/-- A call becomes a step of a path, or else stays a call. -/
theorem lowerCall_cases (target : Expr) (method : Member) (args : List Expr) :
    (∃ p, target = .path p ∧ args = [] ∧ lowerCall target method args = .path (p.child (.method method.name))) ∨
      lowerCall target method args = .call target method args ∧ ∀ p, target = .path p → args ≠ [] := by
  cases hp : path? target with
  | none =>
      refine .inr ⟨by simp [lowerCall, hp], ?_⟩
      rintro p rfl
      cases hp
  | some p =>
      cases path?_eq_some_iff.mp hp
      cases args with
      | nil => exact .inl ⟨p, rfl, rfl, rfl⟩
      | cons arg rest => exact .inr ⟨rfl, by simp⟩

theorem eq_nil_of_lowerAll {args : List Symbolic} (h : lowerAll subject args = .ok []) : args = [] := by
  cases args with
  | nil => rfl
  | cons s rest =>
      simp only [lowerAll, bind_eq_ok_iff, pure_eq_ok_iff] at h
      obtain ⟨_, _, _, _, h⟩ := h
      cases h

/-- The query form of a value is a path exactly if the value is read off the subject. -/
theorem lower_path_iff {s : Symbolic} {e : Expr} (h : s.lower subject = .ok e) :
    (∃ p, e = .path p) ↔ s.PathShaped subject := by
  induction s using induction_on_parts generalizing e with
  | h s ih =>
      cases s with
      | var slot =>
          obtain ⟨rfl, rfl⟩ := lower_var_eq_ok_iff.mp h
          exact iff_of_true ⟨_, rfl⟩ .var
      | field receiver member =>
          obtain ⟨p, hp, rfl⟩ := lower_field_eq_ok_iff.mp h
          exact iff_of_true ⟨_, rfl⟩ (.field ((ih receiver (by simp [children]) hp).mp ⟨p, rfl⟩))
      | length array =>
          obtain ⟨p, hp, rfl⟩ := lower_length_eq_ok_iff.mp h
          exact iff_of_true ⟨_, rfl⟩ (.length ((ih array (by simp [children]) hp).mp ⟨p, rfl⟩))
      | element array index kind =>
          obtain ⟨p, hp, _, _, _, rfl⟩ := lower_element_eq_ok_iff.mp h
          exact iff_of_true ⟨_, rfl⟩ (.element ((ih array (by simp [children]) hp).mp ⟨p, rfl⟩))
      | unboxed value kind =>
          rw [lower] at h
          rw [ih value (by simp [children]) h]
          constructor
          · exact .unboxed
          · intro hshape
            cases hshape with
            | unboxed hvalue => exact hvalue
      | call receiver method args kind =>
          obtain ⟨target, htarget, es, hes, rfl⟩ := lower_call_eq_ok_iff.mp h
          have hreceiver := ih receiver (by simp [children]) htarget
          rcases lowerCall_cases target method es with ⟨p, rfl, rfl, hcall⟩ | ⟨hcall, hother⟩
          · cases eq_nil_of_lowerAll hes
            exact iff_of_true ⟨_, hcall⟩ (.call (hreceiver.mp ⟨p, rfl⟩))
          · refine iff_of_false (by simp [hcall]) fun hshape => ?_
            cases hshape with
            | call hshaped =>
                obtain ⟨p, hp⟩ := hreceiver.mpr hshaped
                cases hes
                exact hother p hp rfl
      | literal _ | staticCall _ _ _ | negative _ _ | arith _ _ _ _ | compare _ _ _ | not _ | logical _ _ _
      | threeWay _ _ _ | conditional _ _ _ =>
          refine iff_of_false ?_ nofun
          rintro ⟨p, rfl⟩
          simp only [lower, bind_eq_ok_iff, pure_eq_ok_iff, reduceCtorEq, Except.ok.injEq, and_false, exists_false] at h

theorem exists_lowerAll_iff {args : List Symbolic} :
    (∃ es, lowerAll subject args = .ok es) ↔ ∀ s ∈ args, ∃ e, s.lower subject = .ok e := by
  induction args with
  | nil => simp [lowerAll]
  | cons s rest ih =>
      rw [List.forall_mem_cons, ← ih]
      simp only [lowerAll, bind_eq_ok_iff, pure_eq_ok_iff]
      grind

theorem exists_lower_path_iff (s : Symbolic) :
    (∃ p, s.lower subject = .ok (.path p)) ↔ s.PathShaped subject ∧ ∃ e, s.lower subject = .ok e := by
  constructor
  · rintro ⟨p, hp⟩
    exact ⟨(lower_path_iff hp).mp ⟨p, rfl⟩, _, hp⟩
  · rintro ⟨hshape, e, he⟩
    obtain ⟨p, rfl⟩ := (lower_path_iff he).mpr hshape
    exact ⟨p, he⟩

/-- Whether a value has a query form is settled by its root and the forms of its direct parts. -/
theorem exists_lower_iff_children (s : Symbolic) :
    (∃ e, s.lower subject = .ok e) ↔ s.Queryable subject ∧ ∀ c ∈ s.children, ∃ e, c.lower subject = .ok e := by
  cases s with
  | literal v => simp [lower, Queryable, children]
  | var slot => simp [lower_var_eq_ok_iff, Queryable, children]
  | threeWay left right bias => simp [lower, Queryable]
  | field receiver member =>
      simp only [lower_field_eq_ok_iff, Queryable, children, List.forall_mem_singleton, ← exists_lower_path_iff]
      exact ⟨fun ⟨_, p, hp, _⟩ => ⟨p, hp⟩, fun ⟨p, hp⟩ => ⟨_, p, hp, rfl⟩⟩
  | length array =>
      simp only [lower_length_eq_ok_iff, Queryable, children, List.forall_mem_singleton, ← exists_lower_path_iff]
      exact ⟨fun ⟨_, p, hp, _⟩ => ⟨p, hp⟩, fun ⟨p, hp⟩ => ⟨_, p, hp, rfl⟩⟩
  | element array index kind =>
      simp only [lower_element_eq_ok_iff, Queryable, children, List.forall_mem_cons]
      constructor
      · rintro ⟨_, p, hp, i, rfl, hi, _⟩
        obtain ⟨hshape, harray⟩ := (exists_lower_path_iff array).mp ⟨p, hp⟩
        exact ⟨⟨hshape, i, rfl, hi⟩, harray, ⟨_, by rw [lower]⟩, List.forall_mem_nil _⟩
      · rintro ⟨⟨hshape, i, rfl, hi⟩, harray, -⟩
        obtain ⟨p, hp⟩ := (exists_lower_path_iff array).mpr ⟨hshape, harray⟩
        exact ⟨_, p, hp, i, rfl, hi, rfl⟩
  | call receiver method args kind =>
      simp only [lower_call_eq_ok_iff, Queryable, children, List.forall_mem_cons, ← exists_lowerAll_iff]
      grind
  | staticCall method args kind =>
      simp only [lower, bind_eq_ok_iff, pure_eq_ok_iff, Queryable, children, ← exists_lowerAll_iff]
      grind
  | negative _ _ | not _ | unboxed _ _ =>
      simp only [lower, bind_eq_ok_iff, pure_eq_ok_iff, Queryable, children, List.forall_mem_singleton]
      grind
  | arith _ _ _ _ | compare _ _ _ | logical _ _ _ | conditional _ _ _ =>
      simp only [lower, bind_eq_ok_iff, pure_eq_ok_iff, Queryable, children, List.forall_mem_cons]
      grind

/-- A value has a query form exactly if every part of it allows one, and the form is a path exactly if the value is read
off the subject step by step. -/
theorem lower_succeeds_iff (subject : Slot) (s : Symbolic) :
    ((∃ e, s.lower subject = .ok e) ↔ ∀ t : Symbolic, t.Within s → t.Queryable subject) ∧
      ∀ e, s.lower subject = .ok e → ((∃ p, e = .path p) ↔ s.PathShaped subject) := by
  refine ⟨?_, fun e => lower_path_iff⟩
  induction s using induction_on_parts with
  | h s ih =>
      rw [exists_lower_iff_children, forall_within_iff]
      exact and_congr_right fun _ => forall₂_congr ih

end PredicateLift.Symbolic
