import PredicateLift.Proofs.Flow.Validation

/-!
# An instruction more

An instruction is inserted into accepted code. All others move along with the places to which they branch, so that the
new one is entered only from the instruction before it, or first of all. A route through the new code is one through the
old code that may pass the new place besides. A branch therefore has the merge point that it had, at its new place: the
new place cannot be one, since every way to it passes the place before.
-/

namespace PredicateLift

/-- The operation with its target renamed. -/
def Operation.retarget (rename : Offset → Offset) : Operation → Operation
  | .branch condition target => .branch condition (rename target)
  | .jump target => .jump (rename target)
  | op => op

theorem Operation.Plain.retarget_eq {op : Operation} (h : op.Plain) (rename : Offset → Offset) :
    op.retarget rename = op := by
  cases op with
  | branch _ _ | jump _ | ret _ => exact h.elim
  | _ => rfl

namespace Stream

/-! ## Places -/

/-- Where place `i` is after an instruction was inserted at place `p`. -/
def moved (p i : Nat) : Nat :=
  if i < p then i else i + 1

section

variable {p i j : Nat}

theorem moved_ne : moved p i ≠ p := by
  unfold moved
  split <;> omega

theorem moved_le : moved p i ≤ i + 1 := by
  unfold moved
  split <;> omega

theorem moved_lt_iff : moved p i < moved p j ↔ i < j := by
  unfold moved
  split <;> split <;> omega

theorem moved_le_iff : moved p i ≤ moved p j ↔ i ≤ j := by
  unfold moved
  split <;> split <;> omega

theorem moved_inj : moved p i = moved p j ↔ i = j := by
  unfold moved
  split <;> split <;> omega

theorem moved_of_lt (h : i < p) : moved p i = i :=
  if_pos h

theorem moved_of_le (h : p ≤ i) : moved p i = i + 1 :=
  if_neg (Nat.not_lt.mpr h)

theorem moved_succ (h : i + 1 ≠ p) : moved p (i + 1) = moved p i + 1 := by
  unfold moved
  split <;> split <;> omega

/-- Every place of the new code is the new place, or the one to which an old place moved. -/
theorem eq_or_exists_moved (k : Nat) : k = p ∨ ∃ i, k = moved p i := by
  rcases Nat.lt_trichotomy k p with h | h | h
  · exact .inr ⟨k, (moved_of_lt h).symm⟩
  · exact .inl h
  · exact .inr ⟨k - 1, by rw [moved_of_le (by omega)]; omega⟩

end

/-! ## The new code -/

/-- The new offset of the instruction that was at the given one. -/
def renumbered (code : List Instruction) (p : Nat) (offset : Nat → Offset) (old : Offset) : Offset :=
  match indexOf? code old with
  | some j => offset (moved p j)
  | none => old

/-- The operations with one more at place `p`. Each target names the instruction that it named before. -/
def insertedOps (code : List Instruction) (p : Nat) (op : Operation) (offset : Nat → Offset) : List Operation :=
  (code.map (·.op.retarget (renumbered code p offset))).insertIdx p op

/-- The code with one more operation at place `p`, and with the offset `offset k` for the instruction at each place
`k`. -/
def inserted (code : List Instruction) (p : Nat) (op : Operation) (offset : Nat → Offset) : List Instruction :=
  placed offset (insertedOps code p op offset)

variable {code : List Instruction} {p i j : Nat} {op : Operation} {offset : Nat → Offset}

theorem indexOf?_of_pairwise (hord : code.Pairwise Precedes) {instruction : Instruction}
    (hi : code[i]? = some instruction) : indexOf? code instruction.offset = some i := by
  obtain ⟨hlt, rfl⟩ := List.getElem?_eq_some_iff.mp hi
  refine List.findIdx?_eq_some_iff_getElem.mpr ⟨hlt, by simp, fun j hj => ?_⟩
  simpa using UInt32.ne_of_lt (List.pairwise_iff_getElem.mp hord j i (by omega) hlt hj)

theorem renumbered_eq {old : Offset} (h : indexOf? code old = some j) :
    renumbered code p offset old = offset (moved p j) := by
  rw [renumbered, h]

theorem getElem?_insertedOps_moved :
    (insertedOps code p op offset)[moved p i]? = code[i]?.map (·.op.retarget (renumbered code p offset)) := by
  rw [insertedOps, List.getElem?_insertIdx, ← List.getElem?_map]
  rcases Nat.lt_or_ge i p with h | h
  · rw [moved_of_lt h, if_pos h]
  · rw [moved_of_le h, if_neg (by omega), if_neg (by omega), Nat.add_sub_cancel]

/-- An operation that goes on is inserted into accepted code before one of its instructions, and the offsets of the new
code increase. -/
structure Insertion (code : List Instruction) (p : Nat) (op : Operation) (offset : Nat → Offset) : Prop where
  accepted : ∃ stream, ofList code = .ok stream
  place : p < code.length
  plain : op.Plain
  increasing : Increasing offset (code.length + 1)

/-- Place `k` of the new code leads to the instruction that was at place `j`: that has moved there, or `k` is the new
place before it. -/
def LeadsTo (p j k : Nat) : Prop :=
  k = moved p j ∨ j = p ∧ k = p

/-- From place `i` control went to place `j`, and now goes to place `k`. It enters the new place only from the one
before. -/
def Lands (p i j k : Nat) : Prop :=
  LeadsTo p j k ∧ (k = p → i + 1 = p)

theorem lands_moved : Lands p i j (moved p j) :=
  ⟨.inl rfl, fun h => absurd h moved_ne⟩

theorem lands_next : Lands p i (i + 1) (moved p i + 1) := by
  by_cases h : i + 1 = p
  · subst h
    rw [moved_of_lt (Nat.lt_succ_self i)]
    exact ⟨.inr ⟨rfl, rfl⟩, fun _ => rfl⟩
  · rw [← moved_succ h]
    exact lands_moved

/-- Control from place `i` lands among the second places where it went to the first ones. -/
structure LandsAmong (p i : Nat) (places places' : List Nat) : Prop where
  forth : ∀ j ∈ places, ∃ k ∈ places', Lands p i j k
  back : ∀ k ∈ places', ∃ j ∈ places, Lands p i j k

theorem Lands.one {k : Nat} (h : Lands p i j k) : LandsAmong p i [j] [k] :=
  ⟨by simpa using h, by simpa using h⟩

theorem Lands.two {k j' k' : Nat} (h : Lands p i j k) (h' : Lands p i j' k') : LandsAmong p i [j, j'] [k, k'] := by
  constructor <;> simp [h, h']

namespace Insertion

variable (h : Insertion code p op offset)

include h

theorem ordered : code.Pairwise Precedes := by
  obtain ⟨stream, hs⟩ := h.accepted
  exact pairwise_of_disorder? (ofList_eq_ok hs).1

theorem forward : Forward code := by
  obtain ⟨stream, hs⟩ := h.accepted
  exact forward_of_ofList hs

/-! ## The layout of the new code -/

theorem length_ops : (insertedOps code p op offset).length = code.length + 1 := by
  have := h.place
  rw [insertedOps, List.length_insertIdx, if_pos (by simp; omega), List.length_map]

/-- The end of the old code has moved to the end of the new code. -/
theorem moved_end : moved p code.length = (inserted code p op offset).length := by
  rw [inserted, length_placed, h.length_ops, moved_of_le (Nat.le_of_lt h.place)]

theorem moved_lt_length_iff : moved p i < (inserted code p op offset).length ↔ i < code.length := by
  rw [← h.moved_end, moved_lt_iff]

theorem getElem?_ops : (insertedOps code p op offset)[p]? = some op := by
  have := h.place
  rw [insertedOps, List.getElem?_insertIdx_self, if_pos (by simp; omega)]

theorem increasing_ops : Increasing offset (insertedOps code p op offset).length := by
  rw [h.length_ops]
  exact h.increasing

/-! ## Where control goes -/

/-- What an instruction of the old code does is done by the corresponding one of the new code. -/
theorem proceeds {instruction : Instruction} (hi : code[i]? = some instruction) {places : List Nat}
    (hs : successorsOf code i instruction = .ok places) :
    ∃ places', Proceeds offset (code.length + 1) (moved p i)
        (instruction.op.retarget (renumbered code p offset)) places' ∧
      LandsAmong p i places places' := by
  obtain ⟨old, op⟩ := instruction
  have hbound : moved p i ≤ i + 1 := moved_le
  rcases op.control_cases with ⟨kind, rfl⟩ | ⟨target, rfl⟩ | ⟨condition, target, rfl⟩ | hplain
  · cases hs
    rw [← moved_of_le (Nat.le_of_lt h.place)]
    exact ⟨_, .ret, lands_moved.one⟩
  · obtain ⟨j, hj, hs⟩ := bind_eq_ok_iff.mp hs
    cases pure_eq_ok_iff.mp hs
    obtain ⟨hij, hlt⟩ := branchIndex_forward h.ordered hi hj
    rw [Operation.retarget, renumbered_eq (indexOf?_of_branchIndex hj)]
    exact ⟨_, .jump (moved_lt_iff.mpr hij) (Nat.lt_of_le_of_lt moved_le (by omega)), lands_moved.one⟩
  · obtain ⟨next, hnext, hs⟩ := bind_eq_ok_iff.mp hs
    obtain ⟨j, hj, hs⟩ := bind_eq_ok_iff.mp hs
    cases pure_eq_ok_iff.mp hs
    obtain ⟨rfl, hnext⟩ := following_forward hnext
    obtain ⟨hij, hlt⟩ := branchIndex_forward h.ordered hi hj
    rw [Operation.retarget, renumbered_eq (indexOf?_of_branchIndex hj)]
    exact ⟨_, .branch (by omega) (moved_lt_iff.mpr hij) (Nat.lt_of_le_of_lt moved_le (by omega)),
      lands_next.two lands_moved⟩
  · rw [successorsOf_of_plain hplain] at hs
    obtain ⟨next, hnext, hs⟩ := bind_eq_ok_iff.mp hs
    cases pure_eq_ok_iff.mp hs
    obtain ⟨rfl, hnext⟩ := following_forward hnext
    rw [hplain.retarget_eq]
    exact ⟨_, .plain hplain (by omega), lands_next.one⟩

theorem successors_moved {places : List Nat} (hi : i < code.length) (hs : successors code i = .ok places) :
    ∃ places', successors (inserted code p op offset) (moved p i) = .ok places' ∧
      LandsAmong p i places places' := by
  have hi := List.getElem?_eq_getElem hi
  rw [successors, hi] at hs
  obtain ⟨places', hproceeds, hlands⟩ := h.proceeds hi hs
  rw [← h.length_ops] at hproceeds
  refine ⟨places', successors_placed h.increasing_ops ?_ hproceeds, hlands⟩
  rw [getElem?_insertedOps_moved, hi, Option.map_some]

theorem successors_new : successors (inserted code p op offset) p = .ok [p + 1] := by
  have := h.place
  exact successors_placed h.increasing_ops h.getElem?_ops (.plain h.plain (by rw [h.length_ops]; omega))

theorem exists_stream : ∃ stream, ofList (inserted code p op offset) = .ok stream := by
  refine exists_ofList (pairwise_placed h.increasing_ops) fun k hk => ?_
  obtain rfl | ⟨i, rfl⟩ : k = p ∨ ∃ i, k = moved p i := eq_or_exists_moved k
  · exact ⟨_, h.successors_new⟩
  · have hi := h.moved_lt_length_iff.mp hk
    obtain ⟨next, others, hs⟩ := h.forward.proceeds i hi
    obtain ⟨places, hplaces, _⟩ := h.successors_moved hi hs
    exact ⟨places, hplaces⟩

theorem forward_inserted : Forward (inserted code p op offset) := by
  obtain ⟨stream, hs⟩ := h.exists_stream
  exact forward_of_ofList hs

/-! ## Edges -/

theorem edge_new {k : Nat} : Edge (inserted code p op offset) p k ↔ k = p + 1 := by
  simp [Edge, h.successors_new]

theorem edge_forth (he : Edge code i j) : ∃ k, Edge (inserted code p op offset) (moved p i) k ∧ Lands p i j k := by
  obtain ⟨places, hs, hj⟩ := he
  obtain ⟨places', hs', hlands⟩ := h.successors_moved (lt_of_edge ⟨places, hs, hj⟩) hs
  obtain ⟨k, hk, hlands⟩ := hlands.forth j hj
  exact ⟨k, ⟨places', hs', hk⟩, hlands⟩

theorem edge_back {k : Nat} (he : Edge (inserted code p op offset) (moved p i) k) :
    ∃ j, Edge code i j ∧ Lands p i j k := by
  have hi := h.moved_lt_length_iff.mp (lt_of_edge he)
  obtain ⟨next, others, hs⟩ := h.forward.proceeds i hi
  obtain ⟨places', hs', hlands⟩ := h.successors_moved hi hs
  obtain ⟨places'', hs'', hk⟩ := he
  cases hs'.symm.trans hs''
  obtain ⟨j, hj, hlands⟩ := hlands.back k hk
  exact ⟨j, ⟨_, hs, hj⟩, hlands⟩

/-- The new instruction is entered from the one before it only. -/
theorem edge_to_new {k : Nat} (he : Edge (inserted code p op offset) k p) : k + 1 = p := by
  obtain rfl | ⟨i, rfl⟩ : k = p ∨ ∃ i, k = moved p i := eq_or_exists_moved k
  · have := h.edge_new.mp he
    omega
  · obtain ⟨j, _, _, hbefore⟩ := h.edge_back he
    have hi := hbefore rfl
    rw [moved_of_lt (by omega), hi]

/-! ## Routes -/

theorem route_forth {places : List Nat} (hr : Route code i places) :
    ∃ places', Route (inserted code p op offset) (moved p i) places' ∧ ∀ n, moved p n ∈ places' → n ∈ places := by
  induction hr with
  | exit =>
      rw [h.moved_end]
      refine ⟨_, .exit, fun n hn => ?_⟩
      rw [List.mem_singleton, ← h.moved_end, moved_inj] at hn
      exact List.mem_singleton.mpr hn
  | @step i j places he _ ih =>
      obtain ⟨rest, hrest, hsub⟩ := ih
      have hcons : ∀ n, moved p n ∈ moved p i :: rest → n ∈ i :: places := by
        intro n hn
        rcases List.mem_cons.mp hn with hn | hn
        · exact moved_inj.mp hn ▸ List.mem_cons_self
        · exact List.mem_cons_of_mem i (hsub n hn)
      obtain ⟨k, hedge, rfl | ⟨rfl, rfl⟩, _⟩ := h.edge_forth he
      · exact ⟨_, .step hedge hrest, hcons⟩
      · -- The new place is passed on the way, and it is none that an old one moved to.
        rw [moved_of_le (Nat.le_refl _)] at hrest
        refine ⟨_, .step hedge (.step (h.edge_new.mpr rfl) hrest), fun n hn => hcons n ?_⟩
        simpa [moved_ne] using hn

theorem route_back {k : Nat} {places' : List Nat} (hr : Route (inserted code p op offset) k places')
    (hk : LeadsTo p i k) : ∃ places, Route code i places ∧ ∀ n ∈ places, moved p n ∈ places' := by
  induction hr generalizing i with
  | exit =>
      have := h.place
      rw [← h.moved_end] at hk ⊢
      obtain rfl : i = code.length := by
        rcases hk with hk | ⟨rfl, hk⟩
        · exact (moved_inj.mp hk).symm
        · exact absurd hk moved_ne
      exact ⟨_, .exit, by simp⟩
  | @step k l places' he _ ih =>
      rcases hk with rfl | ⟨rfl, rfl⟩
      · obtain ⟨j, hedge, hl, _⟩ := h.edge_back he
        obtain ⟨places, hr, hsub⟩ := ih hl
        refine ⟨_, .step hedge hr, fun n hn => ?_⟩
        rcases List.mem_cons.mp hn with rfl | hn
        · exact List.mem_cons_self
        · exact List.mem_cons_of_mem _ (hsub n hn)
      · -- From the new place control goes to the instruction that was there.
        obtain rfl := h.edge_new.mp he
        obtain ⟨places, hr, hsub⟩ := ih (.inl (moved_of_le (Nat.le_refl _)).symm)
        exact ⟨places, hr, fun n hn => List.mem_cons_of_mem _ (hsub n hn)⟩

/-- A route to the new place passes the place before it. -/
theorem mem_before_new {k : Nat} {places : List Nat} (hr : Route (inserted code p op offset) k places) (hk : k ≠ p)
    (hmem : p ∈ places) : p - 1 ∈ places := by
  induction hr with
  | exit =>
      rw [List.mem_singleton, ← h.moved_end] at hmem
      exact absurd hmem.symm moved_ne
  | @step k l places he hr ih =>
      have hmem := List.mem_of_ne_of_mem hk.symm hmem
      by_cases hl : l = p
      · subst hl
        have := h.edge_to_new he
        rw [show l - 1 = k by omega]
        exact List.mem_cons_self
      · exact List.mem_cons_of_mem k (ih hl hmem)

/-! ## Merge points -/

theorem postDominates_moved_iff {n : Nat} :
    PostDominates (inserted code p op offset) (moved p n) (moved p i) ↔ PostDominates code n i := by
  constructor
  · intro hn places hr
    obtain ⟨places', hr', hsub⟩ := h.route_forth hr
    exact hsub n (hn places' hr')
  · intro hn places' hr'
    obtain ⟨places, hr, hsub⟩ := h.route_back hr' (.inl rfl)
    exact hsub n (hn places hr)

/-- The new place is no merge point of a branch: where every route from the branch passes it, the branch merges
before. -/
theorem mergeOf_lt_new {stream : Stream} (hs : ofList code = .ok stream) (hlt : moved p i < p)
    (he : Edge (inserted code p op offset) (moved p i) (moved p j))
    (hpassed : PostDominates (inserted code p op offset) p (moved p i)) : stream.mergeOf i < p := by
  obtain ⟨hacc, rfl⟩ := accepted_of_ofList hs
  have hi := h.moved_lt_length_iff.mp (lt_of_edge he)
  have hf := h.forward_inserted
  have hip : i < p := by
    by_contra hip
    rw [moved_of_le (by omega)] at hlt
    omega
  have hbefore : PostDominates (inserted stream.code p op offset) (p - 1) (moved p i) := by
    intro places hr
    exact h.mem_before_new hr (by omega) (hpassed places hr)
  by_cases hlast : i = p - 1
  · -- The branch would be the only way to the new place, but it also goes to a later one.
    have hforward := hf.forward _ _ he
    have hbounds := (hpassed.next (by omega) he).bounds hf hforward.2
    have hne : moved p j ≠ p := moved_ne
    have hmoved : moved p i = i := moved_of_lt hip
    omega
  · rw [← moved_of_lt (show p - 1 < p by omega), h.postDominates_moved_iff] at hbefore
    have := (hacc.mergeOf hi).nearest (p - 1) (by omega) hbefore
    omega

/-- A branch merges where it did. -/
theorem mergeOf_moved {stream stream' : Stream} (hs : ofList code = .ok stream)
    (hs' : ofList (inserted code p op offset) = .ok stream')
    (he : Edge (inserted code p op offset) (moved p i) (moved p j)) :
    stream'.mergeOf (moved p i) = moved p (stream.mergeOf i) := by
  have hi := h.moved_lt_length_iff.mp (lt_of_edge he)
  have hmerge := hs
  obtain ⟨hacc, rfl⟩ := accepted_of_ofList hs
  obtain ⟨hacc', hcode⟩ := accepted_of_ofList hs'
  have him := hacc.mergeOf hi
  refine hacc'.mergeOf_eq (by rw [hcode]; exact lt_of_edge he) (moved_lt_iff.mpr him.after) ?_ fun k hk hpassed => ?_
  · rw [hcode]
    exact h.postDominates_moved_iff.mpr him.passed
  · rw [hcode] at hpassed
    obtain rfl | ⟨n, rfl⟩ : k = p ∨ ∃ n, k = moved p n := eq_or_exists_moved k
    · have hlt := h.mergeOf_lt_new hmerge hk he hpassed
      rw [moved_of_lt hlt]
      exact Nat.le_of_lt hlt
    · have := him.nearest n (moved_lt_iff.mp hk) (h.postDominates_moved_iff.mp hpassed)
      exact moved_le_iff.mpr this

end Insertion

end Stream

end PredicateLift
