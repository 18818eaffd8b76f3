import PredicateLift.Proofs.Fallible
import PredicateLift.Proofs.Symbolic.Frames

/-!
# Tables of captures

A table is valid if it binds no slot twice and holds only values that fit their declarations. Whatever captures are
added one after the other to an empty table, it stays valid: one that cannot be added is refused before the table is
changed. So a list makes a table exactly if it is a valid one itself. On entry to a body, a valid table binds its slots to
what it lists for them, and nothing else.
-/

namespace PredicateLift

/-- The value may be bound where the declared kind is expected. -/
def Capture.Fits (arg : Capture) : Prop :=
  arg.declared.accepts arg.value.kind = true

theorem Capture.fits_inferred (slot : Slot) (value : Literal) : (Capture.inferred slot value).Fits :=
  value.kind.accepts_refl

namespace Captures

structure Valid (captures : Captures) : Prop where
  distinct : captures.slots.Nodup
  fits : ∀ arg ∈ captures.args, arg.Fits

variable {captures captures' : Captures} {arg : Capture} {args : List Capture}

theorem valid_empty : Valid {} :=
  ⟨List.nodup_nil, List.forall_mem_nil _⟩

theorem Valid.of_sublist {others : List Capture} (h : Valid ⟨others⟩) (hargs : args.Sublist others) : Valid ⟨args⟩ :=
  ⟨h.distinct.sublist (hargs.map _), fun arg harg => h.fits arg (hargs.subset harg)⟩

/-- The slot of the capture is free in the table, and its value fits. -/
def Admits (captures : Captures) (arg : Capture) : Prop :=
  arg.slot ∉ captures.slots ∧ arg.Fits

theorem valid_append_iff : Valid ⟨captures.args ++ [arg]⟩ ↔ captures.Valid ∧ captures.Admits arg := by
  have hslots : Captures.slots ⟨captures.args ++ [arg]⟩ = captures.slots ++ [arg.slot] := List.map_append
  constructor
  · intro h
    have hdistinct := h.distinct
    rw [hslots, List.nodup_append] at hdistinct
    exact ⟨h.of_sublist (List.sublist_append_left _ _),
      fun hmem => hdistinct.2.2 _ hmem _ (List.mem_singleton_self _) rfl, h.fits arg (by simp)⟩
  · rintro ⟨h, hfree, hfits⟩
    refine ⟨?_, ?_⟩
    · rw [hslots, List.nodup_append]
      refine ⟨h.distinct, by simp, fun a ha b hb hab => hfree ?_⟩
      rwa [← List.mem_singleton.mp hb, ← hab]
    · intro a ha
      rcases List.mem_append.mp ha with ha | ha
      · exact h.fits a ha
      · exact List.mem_singleton.mp ha ▸ hfits

/-! ## One capture -/

theorem push_of_admits (h : captures.Admits arg) : captures.push arg = .ok ⟨captures.args ++ [arg]⟩ := by
  obtain ⟨hfree, hfits⟩ := h
  rw [← List.elem_iff, ← isSome_get?] at hfree
  unfold Capture.Fits at hfits
  rw [Captures.push, if_neg hfree, if_pos hfits]

theorem push_of_not_admits (h : ¬ captures.Admits arg) : ∃ fault, captures.push arg = .error fault := by
  unfold Captures.push
  split
  · exact ⟨_, rfl⟩
  · rename_i hfree
    split
    · rename_i hfits
      rw [isSome_get?, List.elem_iff] at hfree
      exact absurd ⟨hfree, hfits⟩ h
    · exact ⟨_, rfl⟩

/-- Adds a capture to a table in place. -/
def add (arg : Capture) : EStateM Fault Captures Unit := do
  if ((← get).get? arg.slot).isSome then
    throw (.structural (.capturedTwice arg.slot))
  if arg.declared.accepts arg.value.kind then
    modify fun captures => ⟨captures.args ++ [arg]⟩
  else
    throw (.structural (.captureKind arg.slot arg.declared arg.value.kind))

theorem run_add (captures : Captures) (arg : Capture) :
    (add arg).run captures = match captures.push arg with
      | .ok captures' => .ok () captures'
      | .error fault => .error fault captures := by
  unfold add Captures.push
  by_cases htaken : (captures.get? arg.slot).isSome
  · simp [htaken]
  · by_cases hfits : arg.declared.accepts arg.value.kind
    · simp [htaken, hfits]
    · simp [htaken, hfits]

/-! ## Captures one after the other -/

/-- The table that is left by an attempt to add a capture. -/
def attempt (captures : Captures) (arg : Capture) : Captures :=
  match (add arg).run captures with
  | .ok _ captures' => captures'
  | .error _ captures' => captures'

/-- An empty table after attempts to add the given captures. -/
def after (args : List Capture) : Captures :=
  args.foldl attempt {}

theorem attempt_of_admits (h : captures.Admits arg) : captures.attempt arg = ⟨captures.args ++ [arg]⟩ := by
  rw [attempt, run_add, push_of_admits h]

theorem attempt_of_not_admits (h : ¬ captures.Admits arg) : captures.attempt arg = captures := by
  obtain ⟨fault, hfault⟩ := push_of_not_admits h
  rw [attempt, run_add, hfault]

/-- An attempt to add a capture keeps a table valid, and puts the capture at the end or nowhere. -/
theorem Valid.attempt (h : captures.Valid) (arg : Capture) :
    (captures.attempt arg).Valid ∧ (captures.attempt arg).args.Sublist (captures.args ++ [arg]) := by
  by_cases hadmits : captures.Admits arg
  · rw [attempt_of_admits hadmits]
    exact ⟨valid_append_iff.mpr ⟨h, hadmits⟩, List.Sublist.refl _⟩
  · rw [attempt_of_not_admits hadmits]
    exact ⟨h, List.sublist_append_left _ _⟩

theorem Valid.foldl_attempt (h : captures.Valid) (args : List Capture) :
    (args.foldl Captures.attempt captures).Valid ∧
      (args.foldl Captures.attempt captures).args.Sublist (captures.args ++ args) := by
  induction args generalizing captures with
  | nil => exact ⟨h, List.sublist_append_left _ _⟩
  | cons arg args ih =>
      obtain ⟨hvalid, hsublist⟩ := h.attempt arg
      obtain ⟨hvalid', hsublist'⟩ := ih hvalid
      refine ⟨hvalid', hsublist'.trans ?_⟩
      simpa using hsublist.append_right args

/-! ## Lists of captures -/

theorem foldlM_push_eq_ok_iff (h : captures.Valid) :
    args.foldlM push captures = .ok captures' ↔
      Valid ⟨captures.args ++ args⟩ ∧ captures' = ⟨captures.args ++ args⟩ := by
  induction args generalizing captures with
  | nil =>
      rw [List.foldlM_nil, pure_eq_ok_iff, List.append_nil]
      exact ⟨fun heq => ⟨h, heq.symm⟩, fun heq => heq.2.symm⟩
  | cons arg args ih =>
      rw [List.foldlM_cons]
      by_cases hadmits : captures.Admits arg
      · rw [push_of_admits hadmits, ok_bind, ih (valid_append_iff.mpr ⟨h, hadmits⟩)]
        simp
      · obtain ⟨fault, hfault⟩ := push_of_not_admits hadmits
        rw [hfault]
        refine iff_of_false (fun h => by cases h) fun hall => hadmits ?_
        have hfirst : (captures.args ++ [arg]).Sublist (captures.args ++ arg :: args) := by simp
        exact (valid_append_iff.mp (hall.1.of_sublist hfirst)).2

theorem ofList_eq_ok_iff : ofList args = .ok captures ↔ Valid ⟨args⟩ ∧ captures = ⟨args⟩ :=
  foldlM_push_eq_ok_iff valid_empty

theorem foldl_attempt_of_valid (h : Valid ⟨captures.args ++ args⟩) :
    args.foldl attempt captures = ⟨captures.args ++ args⟩ := by
  induction args generalizing captures with
  | nil => simp
  | cons arg args ih =>
      rw [List.append_cons] at h ⊢
      have hfirst := valid_append_iff.mp (h.of_sublist (List.sublist_append_left _ _))
      rw [List.foldl_cons, attempt_of_admits hfirst.2]
      exact ih h

theorem after_of_valid (h : Valid ⟨args⟩) : after args = ⟨args⟩ :=
  @foldl_attempt_of_valid {} args h

/-! ## Entry to a body -/

theorem get?_foldl_set (hdistinct : (args.map (·.slot)).Nodup) {locals : Locals} {slot : Slot} {value : Symbolic} :
    (args.foldl (fun (locals : Locals) arg => locals.set arg.slot (.literal arg.value)) locals).get? slot =
        some value ↔
      (∃ arg ∈ args, arg.slot = slot ∧ value = .literal arg.value) ∨
        slot ∉ args.map (·.slot) ∧ locals.get? slot = some value := by
  induction args generalizing locals with
  | nil => simp
  | cons arg args ih =>
      obtain ⟨hfree, hdistinct⟩ := List.nodup_cons.mp hdistinct
      rw [List.foldl_cons, ih hdistinct, Locals.get?_set]
      by_cases hslot : slot = arg.slot
      · subst hslot
        rw [if_pos rfl]
        constructor
        · rintro (⟨other, hother, heq, _⟩ | ⟨_, hvalue⟩)
          · exact absurd (List.mem_map.mpr ⟨other, hother, heq⟩) hfree
          · exact .inl ⟨arg, List.mem_cons_self, rfl, (Option.some.inj hvalue).symm⟩
        · rintro (⟨other, hother, heq, rfl⟩ | ⟨hother, _⟩)
          · rcases List.mem_cons.mp hother with rfl | hother
            · exact .inr ⟨hfree, rfl⟩
            · exact absurd (List.mem_map.mpr ⟨other, hother, heq⟩) hfree
          · exact absurd List.mem_cons_self hother
      · simp [hslot, Ne.symm hslot]

/-- On entry, the subject stands for itself, and the captured slots hold their values. -/
theorem Valid.get?_initial (h : captures.Valid) {subject : Slot} {frame : Frame}
    (hframe : Frame.initial subject captures = .ok frame) {slot : Slot} {value : Symbolic} :
    frame.locals.get? slot = some value ↔
      slot = subject ∧ value = .var subject ∨ ∃ arg ∈ captures.args, arg.slot = slot ∧ value = .literal arg.value := by
  obtain ⟨hfree, rfl⟩ := Frame.initial_eq_ok_iff.mp hframe
  rw [Locals.get?_set]
  split
  · rename_i hslot
    subst hslot
    constructor
    · intro hvalue
      exact .inl ⟨rfl, (Option.some.inj hvalue).symm⟩
    · rintro (⟨_, rfl⟩ | ⟨arg, harg, hslot, _⟩)
      · rfl
      · exact absurd (List.mem_map.mpr ⟨arg, harg, hslot⟩) hfree
  · rename_i hslot
    rw [Locals.ofCaptures, get?_foldl_set h.distinct]
    simp [hslot, Locals.get?]

/-- Whatever captures are added one after the other to an empty table, no slot is bound twice, every value fits its
declaration, and the captures stand in the order in which they were added. A capture whose slot is taken or whose value
does not fit is refused, and the table is left as it is; any other goes to its end. A list makes a table, and then makes
just this one, if and only if its slots differ and its values fit, as they do for inferred captures. A frame can be
entered with the table for a subject that is not a captured slot, and binds that to itself, the captured slots to their
values, and nothing else. -/
theorem tables_exact (args : List Capture) :
    ((after args).Valid ∧ (after args).args.Sublist args) ∧
    (∀ arg table, (after args).push arg = .ok table →
      (add arg).run (after args) = .ok () table ∧ (after args).Admits arg ∧ table = ⟨(after args).args ++ [arg]⟩) ∧
    (∀ arg fault, (after args).push arg = .error fault →
      (add arg).run (after args) = .error fault (after args) ∧ ¬ (after args).Admits arg) ∧
    ((∃ table, ofList args = .ok table) ↔ (args.map (·.slot)).Nodup ∧ ∀ arg ∈ args, arg.Fits) ∧
    (∀ table, ofList args = .ok table → table.args = args ∧ table = after args) ∧
    (∀ slot value, (Capture.inferred slot value).Fits) ∧
    ∀ subject,
      ((∃ frame, Frame.initial subject (after args) = .ok frame) ↔ ∀ arg ∈ (after args).args, arg.slot ≠ subject) ∧
      ∀ frame, Frame.initial subject (after args) = .ok frame →
        frame.stack = [] ∧
        ∀ slot value, frame.locals.get? slot = some value ↔
          slot = subject ∧ value = .var subject ∨
            ∃ arg ∈ (after args).args, arg.slot = slot ∧ value = .literal arg.value := by
  have hvalid := valid_empty.foldl_attempt args
  refine ⟨hvalid, fun arg table hpush => ?_, fun arg fault hpush => ?_, ?_, fun table htable => ?_,
    Capture.fits_inferred, fun subject => ⟨?_, fun frame hframe => ?_⟩⟩
  · by_cases hadmits : (after args).Admits arg
    · have htable := push_of_admits hadmits
      cases hpush.symm.trans htable
      exact ⟨by rw [run_add, hpush], hadmits, rfl⟩
    · obtain ⟨fault, hfault⟩ := push_of_not_admits hadmits
      cases hpush.symm.trans hfault
  · refine ⟨by rw [run_add, hpush], fun hadmits => ?_⟩
    cases hpush.symm.trans (push_of_admits hadmits)
  · constructor
    · rintro ⟨table, htable⟩
      obtain ⟨h, _⟩ := ofList_eq_ok_iff.mp htable
      exact ⟨h.distinct, h.fits⟩
    · rintro ⟨hdistinct, hfits⟩
      exact ⟨_, ofList_eq_ok_iff.mpr ⟨⟨hdistinct, hfits⟩, rfl⟩⟩
  · obtain ⟨h, rfl⟩ := ofList_eq_ok_iff.mp htable
    exact ⟨rfl, (after_of_valid h).symm⟩
  · simp [Frame.initial_eq_ok_iff, slots]
  · refine ⟨?_, fun slot value => hvalid.1.get?_initial hframe⟩
    obtain ⟨_, rfl⟩ := Frame.initial_eq_ok_iff.mp hframe
    rfl

/-- A list with items of several kinds, another value for its slot, a text that is declared as a number, and a text
that is null. -/
def mixedArgs : List Capture := [
  .inferred 1 (.array [.int 1, .array [.str "a", .null]]),
  ⟨1, .int 5, .int⟩,
  ⟨2, .str "gold", .int⟩,
  ⟨2, .null, .str⟩]

/-- The second and the third capture are refused, and the last one finds its slot free. -/
theorem tables_exact_mixedArgs :
    after mixedArgs = ⟨[.inferred 1 (.array [.int 1, .array [.str "a", .null]]), ⟨2, .null, .str⟩]⟩ ∧
    (after mixedArgs).Valid ∧ ¬ (∃ table, ofList mixedArgs = .ok table) ∧
    (add ⟨2, .str "gold", .str⟩).run (after mixedArgs) = .error (.structural (.capturedTwice 2)) (after mixedArgs) ∧
    ∃ frame, Frame.initial 0 (after mixedArgs) = .ok frame ∧ frame.locals.get? 2 = some (.literal .null) ∧
      frame.locals.get? 0 = some (.var 0) := by
  have hafter : after mixedArgs =
      ⟨[.inferred 1 (.array [.int 1, .array [.str "a", .null]]), ⟨2, .null, .str⟩]⟩ := rfl
  obtain ⟨⟨hvalid, _⟩, _, hrefused, hlist, _, _, hentry⟩ := tables_exact mixedArgs
  refine ⟨hafter, hvalid, fun h => ?_, (hrefused _ _ rfl).1, ?_⟩
  · exact absurd (hlist.mp h).1 (by decide)
  · obtain ⟨frame, hframe⟩ := (hentry 0).1.mpr (by rw [hafter]; simp [Capture.inferred])
    obtain ⟨_, hbound⟩ := (hentry 0).2 frame hframe
    refine ⟨frame, hframe, (hbound _ _).mpr (.inr ⟨⟨2, .null, .str⟩, ?_, rfl, rfl⟩), (hbound _ _).mpr (.inl ⟨rfl, rfl⟩)⟩
    rw [hafter]
    simp

end Captures

end PredicateLift
