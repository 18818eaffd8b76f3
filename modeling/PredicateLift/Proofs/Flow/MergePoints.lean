import PredicateLift.Proofs.Flow.Routes

/-!
# Merge points are immediate post-dominators

The merge points of later places form chains: from a place, through its merge point and the merge point of that, to
the end. The places on the chain are those that post-dominate the place it starts from. So the chains from two places
meet at the first place that post-dominates both, and one backward sweep finds all merge points.
-/

namespace PredicateLift.Stream

variable {code : List Instruction}

/-- `m` is the first place after `i` that every route from `i` passes. -/
structure Immediate (code : List Instruction) (i m : Nat) : Prop where
  after : i < m
  inside : m ≤ code.length
  passed : PostDominates code m i
  nearest : ∀ n, i < n → PostDominates code n i → m ≤ n

/-- One step along a chain leaves out the place itself and no other post-dominator of it. -/
theorem Immediate.postDominates_iff (hf : Forward code) {i m n : Nat} (h : Immediate code i m) :
    PostDominates code n m ↔ PostDominates code n i ∧ n ≠ i := by
  have him : i < m := h.after
  have hm : m ≤ code.length := h.inside
  constructor
  · intro hn
    have := hn.bounds hf hm
    exact ⟨hn.trans h.passed, by omega⟩
  · rintro ⟨hn, hne⟩ rest hrest
    have := hn.bounds hf (by omega)
    have hmn : m ≤ n := h.nearest n (by omega) hn
    obtain ⟨places, hp⟩ := exists_route hf (show i ≤ code.length by omega)
    -- Up to `m` a route from `i` is before `n`, so it has to pass `n` after `m`.
    obtain ⟨front, hfront, hsplice⟩ := hp.splice hf (h.passed places hp)
    rcases List.mem_append.mp (hn _ (hsplice rest hrest)) with hmem | hmem
    · have := hfront n hmem
      omega
    · exact hmem

/-! ## Where chains meet -/

section

variable (hf : Forward code) {merge : Nat → Nat} {start : Nat}
  (hmerge : ∀ j, start ≤ j → j < code.length → Immediate code j (merge j))

include hf hmerge

/-- The meeting place of two chains is post-dominated by what post-dominates both places. -/
theorem meet_spec (steps : Nat) {a b : Nat} (ha : start ≤ a) (hb : start ≤ b) (ha' : a ≤ code.length)
    (hb' : b ≤ code.length) (hsteps : (code.length - a) + (code.length - b) ≤ steps) :
    start ≤ meet merge steps a b ∧ meet merge steps a b ≤ code.length ∧
      ∀ n, PostDominates code n (meet merge steps a b) ↔ PostDominates code n a ∧ PostDominates code n b := by
  induction steps generalizing a b with
  | zero =>
      obtain rfl : a = b := by omega
      exact ⟨ha, ha', fun n => by simp [meet]⟩
  | succ steps ih =>
      rw [meet]
      split
      · rename_i hab
        subst hab
        exact ⟨ha, ha', fun n => by simp⟩
      · rename_i hne
        split
        · rename_i hlt
          have him := hmerge a ha (by omega)
          have := him.after
          have := him.inside
          obtain ⟨h₁, h₂, h₃⟩ := ih (a := merge a) (b := b) (by omega) hb (by omega) hb' (by omega)
          refine ⟨h₁, h₂, fun n => ?_⟩
          rw [h₃, him.postDominates_iff hf]
          constructor
          · rintro ⟨⟨hna, _⟩, hnb⟩
            exact ⟨hna, hnb⟩
          · rintro ⟨hna, hnb⟩
            -- What post-dominates `b` is not before `b`, so it is not `a`.
            have := hnb.bounds hf hb'
            exact ⟨⟨hna, by omega⟩, hnb⟩
        · rename_i hlt
          have him := hmerge b hb (by omega)
          have := him.after
          have := him.inside
          obtain ⟨h₁, h₂, h₃⟩ := ih (a := a) (b := merge b) ha (by omega) ha' (by omega) (by omega)
          refine ⟨h₁, h₂, fun n => ?_⟩
          rw [h₃, him.postDominates_iff hf]
          constructor
          · rintro ⟨hna, hnb, _⟩
            exact ⟨hna, hnb⟩
          · rintro ⟨hna, hnb⟩
            have := hna.bounds hf ha'
            exact ⟨hna, hnb, by omega⟩

theorem foldl_meet_spec (steps : Nat) (hsteps : 2 * (code.length - start) ≤ steps) {others : List Nat}
    (hothers : ∀ j ∈ others, start ≤ j ∧ j ≤ code.length) {next : Nat} (hnext : start ≤ next)
    (hnext' : next ≤ code.length) :
    others.foldl (meet merge steps) next ≤ code.length ∧
      ∀ n, PostDominates code n (others.foldl (meet merge steps) next) ↔
        ∀ j ∈ next :: others, PostDominates code n j := by
  induction others generalizing next with
  | nil => exact ⟨hnext', fun n => by simp⟩
  | cons other others ih =>
      have hother := hothers other List.mem_cons_self
      obtain ⟨h₁, h₂, h₃⟩ := meet_spec hf hmerge steps hnext hother.1 hnext' hother.2 (by omega)
      obtain ⟨h₄, h₅⟩ := ih (fun j hj => hothers j (List.mem_cons_of_mem _ hj)) h₁ h₂
      refine ⟨h₄, fun n => ?_⟩
      rw [List.foldl_cons, h₅]
      simp only [List.forall_mem_cons, h₃, and_assoc]

end

/-! ## The sweep -/

/-- What post-dominates all successors of a place first is the first to post-dominate the place. -/
theorem immediate_of_successors (hf : Forward code) {i m : Nat} {places : List Nat}
    (hs : successors code i = .ok places) (hne : places ≠ []) (hm : m ≤ code.length)
    (h : ∀ n, PostDominates code n m ↔ ∀ j ∈ places, PostDominates code n j) : Immediate code i m := by
  have hpass := (h m).mp (postDominates_refl m)
  obtain ⟨j, hj⟩ := List.exists_mem_of_ne_nil places hne
  have hij := hf.forward i j ⟨places, hs, hj⟩
  have hjm := (hpass j hj).bounds hf hij.2
  refine ⟨by omega, hm, ?_, ?_⟩
  · apply postDominates_of_edges (by omega)
    rintro k ⟨places', hs', hk⟩
    cases hs.symm.trans hs'
    exact hpass k hk
  · intro n hn hpd
    have hnm := (h n).mpr fun k hk => hpd.next (by omega) ⟨places, hs, hk⟩
    exact (hnm.bounds hf hm).1

/-- The invariant of the sweep: the list holds the immediate post-dominator of every place covered so far. -/
structure Covers (code : List Instruction) (start : Nat) (merges : List Nat) : Prop where
  length : merges.length + start = code.length + 1
  exit : merges.getD (code.length - start) code.length = code.length
  immediate : ∀ j, start ≤ j → j < code.length → Immediate code j (merges.getD (j - start) code.length)

theorem covers_exit : Covers code code.length [code.length] := by
  refine ⟨?_, ?_, ?_⟩
  · simp only [List.length_singleton]
    omega
  · simp
  · intro j h₁ h₂
    omega

theorem Covers.cons {i m : Nat} {merges : List Nat} (h : Covers code (i + 1) merges) (hi : i < code.length)
    (him : Immediate code i m) : Covers code i (m :: merges) := by
  refine ⟨?_, ?_, ?_⟩
  · have := h.length
    simp only [List.length_cons]
    omega
  · rw [show code.length - i = code.length - (i + 1) + 1 by omega, List.getD_cons_succ]
    exact h.exit
  · intro j hij hj
    rcases Nat.lt_or_eq_of_le hij with hlt | rfl
    · rw [show j - i = j - (i + 1) + 1 by omega, List.getD_cons_succ]
      exact h.immediate j hlt hj
    · simpa using him

theorem mergesOfLast_covers (hf : Forward code) {count : Nat} (hcount : count ≤ code.length) {merges : List Nat}
    (h : mergesOfLast code count = .ok merges) : Covers code (code.length - count) merges := by
  induction count generalizing merges with
  | zero =>
      cases h
      exact covers_exit
  | succ count ih =>
      obtain ⟨later, hlater, h⟩ := bind_eq_ok_iff.mp h
      obtain ⟨places, hs, h⟩ := bind_eq_ok_iff.mp h
      have hi : code.length - (count + 1) < code.length := by omega
      have hcov := ih (by omega) hlater
      rw [show code.length - count = code.length - (count + 1) + 1 by omega] at hcov
      obtain ⟨next, others, hs'⟩ := hf.proceeds _ hi
      cases hs.symm.trans hs'
      cases pure_eq_ok_iff.mp h
      have hbound : ∀ j ∈ next :: others, code.length - (count + 1) + 1 ≤ j ∧ j ≤ code.length :=
        fun j hj => hf.forward _ j ⟨_, hs, hj⟩
      obtain ⟨hm, hiff⟩ := foldl_meet_spec hf hcov.immediate (2 * (count + 1)) (by omega)
        (fun j hj => hbound j (List.mem_cons_of_mem _ hj)) (hbound next List.mem_cons_self).1
        (hbound next List.mem_cons_self).2
      exact hcov.cons hi (immediate_of_successors hf hs (by simp) hm hiff)

theorem covers_of_ofList {stream : Stream} (h : ofList code = .ok stream) : Covers code 0 stream.merges := by
  obtain ⟨_, _, hm⟩ := ofList_eq_ok h
  simpa using mergesOfLast_covers (forward_of_ofList h) (Nat.le_refl _) hm

theorem mergePoint?_eq_getD {stream : Stream} (h : ofList code = .ok stream) {i : Nat} (hi : i ≤ code.length) :
    stream.mergePoint? i = some (stream.merges.getD i code.length) := by
  have := (covers_of_ofList h).length
  rw [mergePoint?, List.getD_eq_getElem?_getD, List.getElem?_eq_getElem (by omega), Option.getD_some]

theorem mergePoint?_immediate {stream : Stream} (h : ofList code = .ok stream) {i : Nat} (hi : i < code.length) :
    ∃ m, stream.mergePoint? i = some m ∧ Immediate code i m :=
  ⟨_, mergePoint?_eq_getD h (by omega), (covers_of_ofList h).immediate i (Nat.zero_le i) hi⟩

/-- In an accepted list, the merge point of an instruction is its immediate post-dominator: a later place, or the
end, that every route from the instruction passes, and the first such place. The end is its own merge point. -/
theorem mergePoint?_first_passed {stream : Stream} (h : ofList code = .ok stream) :
    (∀ i, i < code.length → ∃ m, stream.mergePoint? i = some m ∧ i < m ∧ m ≤ code.length ∧
      (∀ places, Route code i places → m ∈ places) ∧
      ∀ n, i < n → (∀ places, Route code i places → n ∈ places) → m ≤ n) ∧
    stream.mergePoint? code.length = some code.length := by
  constructor
  · intro i hi
    obtain ⟨m, hm, him⟩ := mergePoint?_immediate h hi
    exact ⟨m, hm, him.after, him.inside, him.passed, him.nearest⟩
  · rw [mergePoint?_eq_getD h (Nat.le_refl _)]
    exact congrArg some (covers_of_ofList h).exit

/-- The code of a disjunction of two fields of the subject, with one block for either outcome. -/
def disjunction : List Instruction := [
  ⟨0, .load 0 .unknown⟩,
  ⟨1, .getField ⟨"a/Item", "sold", "Z"⟩⟩,
  ⟨4, .branch (.zero .ne) 14⟩,
  ⟨7, .load 0 .unknown⟩,
  ⟨8, .getField ⟨"a/Item", "lost", "Z"⟩⟩,
  ⟨11, .branch (.zero .eq) 18⟩,
  ⟨14, .push (.int 1)⟩,
  ⟨15, .jump 19⟩,
  ⟨18, .push (.int 0)⟩,
  ⟨19, .ret (some .int)⟩]

/-- Both branches of a disjunction meet at the return. -/
theorem mergePoint?_first_passed_disjunction :
    ∃ stream, ofList disjunction = .ok stream ∧ stream.mergePoint? 2 = some 9 ∧
      (∀ places, Route disjunction 2 places → 9 ∈ places) ∧
      ∀ n, 2 < n → (∀ places, Route disjunction 2 places → n ∈ places) → 9 ≤ n := by
  have h : ofList disjunction = .ok ⟨disjunction, [1, 2, 9, 4, 5, 9, 7, 9, 9, 10, 10]⟩ := rfl
  obtain ⟨m, hm, _, _, hpass, hfirst⟩ := (mergePoint?_first_passed h).1 2 (by decide)
  obtain rfl : 9 = m := by simpa [mergePoint?] using hm
  exact ⟨_, h, rfl, hpass, hfirst⟩

end PredicateLift.Stream
