import PredicateLift.Symbolic.Frame

/-!
# Frames and captures

What is popped was pushed, and binding a slot leaves the others as they are. On entry to a body the captured slots hold
their values; the kinds that captures were declared with play no part there.
-/

namespace PredicateLift

/-! ## Operands -/

theorem Frame.eq_push_of_pop {frame rest : Frame} {s : Symbolic} (h : frame.pop = .ok (s, rest)) :
    frame = rest.push s := by
  obtain ⟨stack, locals⟩ := frame
  cases stack with
  | nil => cases h
  | cons top stack =>
      cases h
      rfl

theorem Frame.stack_of_popMany {frame rest : Frame} {n : Nat} {args : List Symbolic}
    (h : frame.popMany n = .ok (args, rest)) :
    frame = { rest with stack := args.reverse ++ rest.stack } ∧ args.length = n := by
  unfold Frame.popMany at h
  split at h
  · rename_i hn
    cases h
    exact ⟨by simp, by rw [List.length_reverse, List.length_take]; omega⟩
  · cases h

/-! ## Local variables -/

theorem Locals.get?_set {locals : Locals} {slot slot' : Slot} {s : Symbolic} :
    (locals.set slot s).get? slot' = if slot' = slot then some s else locals.get? slot' :=
  Bindings.lookup_insert

/-! ## Captures -/

namespace Captures

variable {captures others : Captures}

/-- The captured slots, in the order of the captured values. -/
def slots (captures : Captures) : List Slot :=
  captures.args.map (·.slot)

theorem isSome_get? (captures : Captures) (slot : Slot) : (captures.get? slot).isSome = captures.slots.elem slot := by
  rw [Bool.eq_iff_iff, get?, slots, List.find?_isSome]
  simp

/-- The captured slots with their values. -/
def bindings (captures : Captures) : List (Slot × Literal) :=
  captures.args.map fun arg => (arg.slot, arg.value)

theorem bindings_eq_zip (captures : Captures) : captures.bindings = captures.slots.zip captures.values :=
  (List.zip_map' ..).symm

/-- The value in a slot. -/
def value? (captures : Captures) (slot : Slot) : Option Literal :=
  (captures.get? slot).map (·.value)

theorem value?_eq_lookup (captures : Captures) (slot : Slot) :
    captures.value? slot = captures.bindings.lookup slot := by
  obtain ⟨args⟩ := captures
  unfold value? get? bindings
  induction args with
  | nil => rfl
  | cons arg args ih =>
      rw [List.find?_cons, List.map_cons, List.lookup_cons, BEq.comm]
      cases slot == arg.slot with
      | true => rfl
      | false => exact ih

theorem values_ne_of_value?_ne (hslots : captures.slots = others.slots) {slot : Slot}
    (h : captures.value? slot ≠ others.value? slot) : captures.values ≠ others.values := by
  intro hvalues
  apply h
  rw [value?_eq_lookup, value?_eq_lookup, bindings_eq_zip, bindings_eq_zip, hslots, hvalues]

end Captures

/-! ## Entry to a body -/

namespace Locals

theorem ofCaptures_eq (captures : Captures) :
    ofCaptures captures =
      captures.bindings.foldl (fun (locals : Locals) b => locals.set b.1 (.literal b.2)) {} := by
  rw [ofCaptures, Captures.bindings, List.foldl_map]

/-- What holds without bindings, and still holds when a slot is bound to a literal, holds of the captured slots. -/
theorem ofCaptures_induction {P : Locals → Prop} (hempty : P {})
    (hset : ∀ {locals} slot value, P locals → P (locals.set slot (.literal value))) (captures : Captures) :
    P (ofCaptures captures) := by
  rw [ofCaptures_eq]
  refine List.foldlRecOn captures.bindings _ hempty ?_
  intro locals hlocals binding _
  exact hset binding.1 binding.2 hlocals

end Locals

namespace Frame

variable {captures others : Captures} {subject : Slot} {frame : Frame}

theorem initial_eq_ok_iff :
    initial subject captures = .ok frame ↔
      subject ∉ captures.slots ∧ { locals := (Locals.ofCaptures captures).set subject (.var subject) } = frame := by
  rw [← List.elem_iff, ← Captures.isSome_get?]
  unfold initial
  split <;> simp_all

theorem initial_congr (hslots : captures.slots = others.slots) (hvalues : captures.values = others.values)
    (subject : Slot) : initial subject captures = initial subject others := by
  have hbindings : captures.bindings = others.bindings := by
    rw [Captures.bindings_eq_zip, Captures.bindings_eq_zip, hslots, hvalues]
  rw [initial, initial, Captures.isSome_get?, Captures.isSome_get?, Locals.ofCaptures_eq, Locals.ofCaptures_eq, hslots,
    hbindings]

end Frame

end PredicateLift
