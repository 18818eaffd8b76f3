import PredicateLift.Proofs.Flow.Safety

/-!
# Operations laid out at offsets

A list of operations becomes code when each of them is placed at an offset. If the offsets increase and every operation
goes on, jumps or branches to later places, the code is accepted as a stream. If it has only one return, every route
passes that.
-/

namespace PredicateLift.Stream

variable {code : List Instruction}

/-! ## Acceptance -/

theorem disorder?_of_pairwise (h : code.Pairwise Precedes) : disorder? code = none := by
  induction code with
  | nil => rfl
  | cons a rest ih =>
      obtain ⟨ha, hrest⟩ := List.pairwise_cons.mp h
      cases rest with
      | nil => rfl
      | cons b rest =>
          rw [disorder?, if_neg (UInt32.not_le.mpr (ha b List.mem_cons_self))]
          exact ih hrest

theorem exists_mergesOfLast (h : ∀ i, i < code.length → ∃ places, successors code i = .ok places) {count : Nat}
    (hcount : count ≤ code.length) : ∃ merges, mergesOfLast code count = .ok merges := by
  induction count with
  | zero => exact ⟨_, rfl⟩
  | succ count ih =>
      obtain ⟨later, hlater⟩ := ih (by omega)
      obtain ⟨places, hplaces⟩ := h (code.length - (count + 1)) (by omega)
      simp only [mergesOfLast, hlater, hplaces, ok_bind]
      cases places with
      | nil => exact ⟨_, rfl⟩
      | cons next others => exact ⟨_, rfl⟩

/-- Code is accepted if its offsets increase and every instruction has places to go to. -/
theorem exists_ofList (hord : code.Pairwise Precedes)
    (h : ∀ i, i < code.length → ∃ places, successors code i = .ok places) : ∃ stream, ofList code = .ok stream := by
  obtain ⟨merges, hmerges⟩ := exists_mergesOfLast h (Nat.le_refl _)
  refine ⟨⟨code, merges⟩, ?_⟩
  rw [ofList, disorder?_of_pairwise hord, hmerges]
  rfl

/-! ## Placed operations -/

/-- The operations as instructions, the one at place `k` at the offset `offset k`. -/
def placed (offset : Nat → Offset) (ops : List Operation) : List Instruction :=
  ops.mapIdx fun k op => ⟨offset k, op⟩

/-- The offsets of the first `size` places increase. -/
def Increasing (offset : Nat → Offset) (size : Nat) : Prop :=
  ∀ i j, i < j → j < size → offset i < offset j

/-- The operation goes from place `k` to the given places, all of them later. -/
inductive Proceeds (offset : Nat → Offset) (size k : Nat) : Operation → List Nat → Prop where
  | plain {op} : op.Plain → k + 1 < size → Proceeds offset size k op [k + 1]
  | jump {j} : k < j → j < size → Proceeds offset size k (.jump (offset j)) [j]
  | branch {condition j} : k + 1 < size → k < j → j < size →
      Proceeds offset size k (.branch condition (offset j)) [k + 1, j]
  | ret {kind} : Proceeds offset size k (.ret kind) [size]

/-- Only a return goes to the end. -/
theorem Proceeds.lt_or_ret {offset : Nat → Offset} {size k j : Nat} {op : Operation} {places : List Nat}
    (h : Proceeds offset size k op places) (hj : j ∈ places) : j < size ∨ ∃ kind, op = .ret kind := by
  cases h with
  | plain _ hk =>
      cases List.mem_singleton.mp hj
      exact .inl hk
  | jump _ hk =>
      cases List.mem_singleton.mp hj
      exact .inl hk
  | branch hk _ hk' =>
      rcases List.mem_cons.mp hj with rfl | hj
      · exact .inl hk
      · cases List.mem_singleton.mp hj
        exact .inl hk'
  | ret => exact .inr ⟨_, rfl⟩

section

variable {offset : Nat → Offset} {ops : List Operation}

@[simp] theorem length_placed : (placed offset ops).length = ops.length := by
  simp [placed]

theorem getElem?_placed {k : Nat} {op : Operation} (h : ops[k]? = some op) :
    (placed offset ops)[k]? = some ⟨offset k, op⟩ := by
  simp [placed, h]

theorem performs_placed {stream : Stream} {registry : Registry} {frame : Frame} {effect : Effect} {k : Nat}
    {op : Operation} (hcode : stream.code = placed offset ops) (hop : ops[k]? = some op)
    (hrun : op.run registry frame = .ok effect) : Performs stream registry k frame effect := by
  refine ⟨⟨offset k, op⟩, ?_, step_eq_ok_iff.mpr hrun⟩
  rw [hcode]
  exact getElem?_placed hop

variable (hinc : Increasing offset ops.length)

include hinc

theorem pairwise_placed : (placed offset ops).Pairwise Precedes := by
  rw [List.pairwise_iff_getElem]
  intro i j hi hj hij
  simpa [placed, Precedes] using hinc i j hij (by simpa using hj)

theorem indexOf?_placed {j : Nat} (hj : j < ops.length) : indexOf? (placed offset ops) (offset j) = some j := by
  refine List.findIdx?_eq_some_iff_getElem.mpr ⟨by simpa using hj, by simp [placed], fun i hi => ?_⟩
  have hlt := hinc i j hi hj
  simpa [placed] using UInt32.ne_of_lt hlt

theorem branchIndex_placed {k j : Nat} {op : Operation} (hkj : k < j) (hj : j < ops.length) :
    branchIndex (placed offset ops) ⟨offset k, op⟩ (offset j) = .ok j := by
  rw [branchIndex, if_neg (UInt32.not_le.mpr (hinc k j hkj hj)), indexOf, indexOf?_placed hinc hj]

theorem successors_placed {k : Nat} {op : Operation} {places : List Nat} (hop : ops[k]? = some op)
    (h : Proceeds offset ops.length k op places) : successors (placed offset ops) k = .ok places := by
  have hlength : (placed offset ops).length = ops.length := length_placed
  rw [successors, getElem?_placed hop]
  cases h with
  | plain hplain hk =>
      simp only
      rw [successorsOf_of_plain hplain, following, hlength, if_pos hk]
      rfl
  | jump hkj hj =>
      simp only [successorsOf, branchIndex_placed hinc hkj hj]
      rfl
  | branch hk hkj hj =>
      simp only [successorsOf, following, hlength, if_pos hk, branchIndex_placed hinc hkj hj]
      rfl
  | ret => simp only [successorsOf, hlength]

theorem edge_placed {k j : Nat} {op : Operation} {places : List Nat} (hop : ops[k]? = some op)
    (h : Proceeds offset ops.length k op places) (hj : j ∈ places) : Edge (placed offset ops) k j :=
  ⟨places, successors_placed hinc hop h, hj⟩

/-- Placed operations that all go to later places are accepted. -/
theorem exists_ofList_placed
    (hall : ∀ k op, ops[k]? = some op → ∃ places, Proceeds offset ops.length k op places) :
    ∃ stream, ofList (placed offset ops) = .ok stream := by
  refine exists_ofList (pairwise_placed hinc) fun k hk => ?_
  rw [length_placed] at hk
  have hop := List.getElem?_eq_getElem hk
  obtain ⟨places, hp⟩ := hall k _ hop
  exact ⟨places, successors_placed hinc hop hp⟩

/-- If there is only one return, every route passes it. -/
theorem postDominates_placed
    (hall : ∀ k op, ops[k]? = some op → ∃ places, Proceeds offset ops.length k op places) {last : Nat}
    (hlast : ∀ k kind, ops[k]? = some (.ret kind) → k = last) {i : Nat} (hi : i < ops.length) :
    PostDominates (placed offset ops) last i := by
  intro places hroute
  induction hroute with
  | exit => simp at hi
  | @step i j places hedge _ ih =>
      have hop := List.getElem?_eq_getElem hi
      obtain ⟨next, hnext⟩ := hall i _ hop
      obtain ⟨next', hsucc, hmem⟩ := hedge
      cases (successors_placed hinc hop hnext).symm.trans hsucc
      rcases hnext.lt_or_ret hmem with hj | ⟨kind, hret⟩
      · exact List.mem_cons_of_mem i (ih hj)
      · rw [hret] at hop
        exact hlast i kind hop ▸ List.mem_cons_self

end

/-! ## Merge points -/

/-- The first place after a branch that every route from it passes is its merge point. -/
theorem Accepted.mergeOf_eq {stream : Stream} (hacc : stream.Accepted) {i m : Nat} (hi : i < stream.code.length)
    (him : i < m) (hpassed : PostDominates stream.code m i)
    (hfirst : ∀ k, i < k → PostDominates stream.code k i → m ≤ k) : stream.mergeOf i = m := by
  have h := hacc.mergeOf hi
  exact Nat.le_antisymm (h.nearest m him hpassed) (hfirst _ h.after h.passed)

end PredicateLift.Stream
