import PredicateLift.Flow.Stream
import PredicateLift.Proofs.Fallible
import Mathlib.Data.List.Chain

/-!
# Ways through a stream

A route is a way that control may take from a place to the end of a list of instructions. A place post-dominates
another if every route from there passes it. In a list that is accepted as a stream control only goes forward, so
routes are increasing, and every place has one.
-/

namespace PredicateLift.Stream

variable {code : List Instruction}

/-- Control may go from the first place to the second in one step. -/
def Edge (code : List Instruction) (i j : Nat) : Prop :=
  ∃ places, successors code i = .ok places ∧ j ∈ places

/-- The places on a way from a place to the end, both included. -/
inductive Route (code : List Instruction) : Nat → List Nat → Prop where
  | exit : Route code code.length [code.length]
  | step {i j places} : Edge code i j → Route code j places → Route code i (i :: places)

/-- Every route from `i` passes `n`. -/
def PostDominates (code : List Instruction) (n i : Nat) : Prop :=
  ∀ places, Route code i places → n ∈ places

/-- Control goes forward from every place but the end, and does not go beyond the end. -/
structure Forward (code : List Instruction) : Prop where
  proceeds : ∀ i, i < code.length → ∃ next others, successors code i = .ok (next :: others)
  forward : ∀ i j, Edge code i j → i < j ∧ j ≤ code.length

/-! ## Accepted lists go forward -/

def Precedes (a b : Instruction) : Prop := a.offset < b.offset

instance : Trans Precedes Precedes Precedes := ⟨UInt32.lt_trans⟩

theorem pairwise_of_disorder? (h : disorder? code = none) : code.Pairwise Precedes := by
  have hchain : code.IsChain Precedes := by
    induction code with
    | nil => exact .nil
    | cons a rest ih =>
        cases rest with
        | nil => exact .singleton a
        | cons b rest =>
            simp only [disorder?] at h
            split at h
            · cases h
            · rename_i hlt
              exact .cons_cons (UInt32.not_le.mp hlt) (ih h)
  exact List.isChain_iff_pairwise.mp hchain

theorem code_of_indexOf {source target : Offset} {j : Nat} (h : indexOf code source target = .ok j) :
    ∃ instruction, code[j]? = some instruction ∧ instruction.offset = target := by
  simp only [indexOf, indexOf?] at h
  split at h
  · rename_i i hi
    cases h
    obtain ⟨hlt, hp, _⟩ := List.findIdx?_eq_some_iff_getElem.mp hi
    exact ⟨code[j], List.getElem?_eq_getElem hlt, by simpa using hp⟩
  · cases h

/-- In an ordered list an instruction at a greater offset stands at a later place. -/
theorem index_lt_of_offset_lt (hord : code.Pairwise Precedes) {i j : Nat}
    {a b : Instruction} (ha : code[i]? = some a) (hb : code[j]? = some b) (hlt : Precedes a b) : i < j := by
  obtain ⟨hi, rfl⟩ := List.getElem?_eq_some_iff.mp ha
  obtain ⟨hj, rfl⟩ := List.getElem?_eq_some_iff.mp hb
  rcases Nat.lt_trichotomy i j with h | h | h
  · exact h
  · subst h
    exact absurd hlt (UInt32.lt_irrefl _)
  · exact absurd (UInt32.lt_trans hlt (List.pairwise_iff_getElem.mp hord j i hj hi h)) (UInt32.lt_irrefl _)

theorem branchIndex_forward (hord : code.Pairwise Precedes) {i j : Nat}
    {instruction : Instruction} {target : Offset} (hi : code[i]? = some instruction)
    (h : branchIndex code instruction target = .ok j) : i < j ∧ j < code.length := by
  simp only [branchIndex] at h
  split at h
  · cases h
  · rename_i hle
    obtain ⟨b, hb, rfl⟩ := code_of_indexOf h
    exact ⟨index_lt_of_offset_lt hord hi hb (UInt32.not_le.mp hle), (List.getElem?_eq_some_iff.mp hb).1⟩

theorem following_forward {i j : Nat} {instruction : Instruction} (h : following code i instruction = .ok j) :
    j = i + 1 ∧ j < code.length := by
  simp only [following] at h
  split at h
  · cases h
    exact ⟨rfl, by assumption⟩
  · cases h

theorem lt_of_edge {i j : Nat} (h : Edge code i j) : i < code.length := by
  obtain ⟨places, hs, hj⟩ := h
  by_contra hi
  simp only [successors, List.getElem?_eq_none (Nat.not_lt.mp hi), Except.ok.injEq] at hs
  subst hs
  cases hj

theorem successorsOf_forward (hord : code.Pairwise Precedes) {i : Nat} {instruction : Instruction}
    (hi : code[i]? = some instruction) {places : List Nat} (h : successorsOf code i instruction = .ok places) :
    places ≠ [] ∧ ∀ j ∈ places, i < j ∧ j ≤ code.length := by
  have hlt := (List.getElem?_eq_some_iff.mp hi).1
  unfold successorsOf at h
  split at h
  · cases h
    exact ⟨by simp, by simpa using hlt⟩
  · obtain ⟨j, hj, h⟩ := bind_eq_ok_iff.mp h
    cases pure_eq_ok_iff.mp h
    have := branchIndex_forward hord hi hj
    exact ⟨by simp, by simp; omega⟩
  · obtain ⟨next, hnext, h⟩ := bind_eq_ok_iff.mp h
    obtain ⟨taken, htaken, h⟩ := bind_eq_ok_iff.mp h
    cases pure_eq_ok_iff.mp h
    have := following_forward hnext
    have := branchIndex_forward hord hi htaken
    exact ⟨by simp, by simp; omega⟩
  · obtain ⟨j, hj, h⟩ := bind_eq_ok_iff.mp h
    cases pure_eq_ok_iff.mp h
    have := following_forward hj
    exact ⟨by simp, by simp; omega⟩

theorem successors_of_mergesOfLast {count : Nat} {merges : List Nat} (h : mergesOfLast code count = .ok merges) :
    ∀ i, i < code.length → code.length ≤ i + count → ∃ places, successors code i = .ok places := by
  induction count generalizing merges with
  | zero => intro i hi hc; omega
  | succ count ih =>
      intro i hi hc
      obtain ⟨later, hlater, h⟩ := bind_eq_ok_iff.mp h
      obtain ⟨places, hplaces, _⟩ := bind_eq_ok_iff.mp h
      by_cases hlast : code.length ≤ i + count
      · exact ih hlater i hi hlast
      · obtain rfl : i = code.length - (count + 1) := by omega
        exact ⟨places, hplaces⟩

theorem ofList_eq_ok {stream : Stream} (h : ofList code = .ok stream) :
    disorder? code = none ∧ stream.code = code ∧ mergesOfLast code code.length = .ok stream.merges := by
  unfold ofList at h
  split at h
  · cases h
  · rename_i hd
    obtain ⟨merges, hm, h⟩ := bind_eq_ok_iff.mp h
    cases pure_eq_ok_iff.mp h
    exact ⟨hd, rfl, hm⟩

theorem forward_of_ofList {stream : Stream} (h : ofList code = .ok stream) : Forward code := by
  obtain ⟨hd, _, hm⟩ := ofList_eq_ok h
  have hord := pairwise_of_disorder? hd
  have hsucc : ∀ i places, i < code.length → successors code i = .ok places →
      places ≠ [] ∧ ∀ j ∈ places, i < j ∧ j ≤ code.length := by
    intro i places hi hs
    rw [successors, List.getElem?_eq_getElem hi] at hs
    exact successorsOf_forward hord (List.getElem?_eq_getElem hi) hs
  constructor
  · intro i hi
    obtain ⟨places, hs⟩ := successors_of_mergesOfLast hm i hi (by omega)
    obtain ⟨next, others, rfl⟩ := List.exists_cons_of_ne_nil (hsucc i places hi hs).1
    exact ⟨next, others, hs⟩
  · intro i j hij
    obtain ⟨places, hs, hj⟩ := hij
    exact (hsucc i places (lt_of_edge ⟨places, hs, hj⟩) hs).2 j hj

/-! ## Routes -/

theorem Route.mem_self {i : Nat} {places : List Nat} (h : Route code i places) : i ∈ places := by
  cases h with
  | exit => exact List.mem_singleton_self _
  | step _ _ => exact List.mem_cons_self

theorem Route.bounds (hf : Forward code) {i : Nat} {places : List Nat} (h : Route code i places) :
    ∀ n ∈ places, i ≤ n ∧ n ≤ code.length := by
  induction h with
  | exit => simp
  | step he _ ih =>
      have := hf.forward _ _ he
      intro n hn
      rcases List.mem_cons.mp hn with rfl | hn
      · omega
      · have := ih n hn
        omega

theorem exists_route (hf : Forward code) {i : Nat} (hi : i ≤ code.length) : ∃ places, Route code i places := by
  -- The places from `i` to the end are finitely many, and each edge leaves fewer of them.
  induction hd : code.length - i using Nat.strongRecOn generalizing i with
  | ind d ih =>
      rcases Nat.lt_or_eq_of_le hi with hlt | rfl
      · obtain ⟨next, others, hs⟩ := hf.proceeds i hlt
        have he : Edge code i next := ⟨_, hs, List.mem_cons_self⟩
        have := hf.forward _ _ he
        obtain ⟨places, hp⟩ := ih (code.length - next) (by omega) this.2 rfl
        exact ⟨_, .step he hp⟩
      · exact ⟨_, .exit⟩

theorem Route.suffix {i m : Nat} {places : List Nat} (h : Route code i places) (hm : m ∈ places) :
    ∃ rest, Route code m rest ∧ ∀ n ∈ rest, n ∈ places := by
  induction h with
  | exit =>
      obtain rfl := List.mem_singleton.mp hm
      exact ⟨_, .exit, fun _ hn => hn⟩
  | step he hr ih =>
      rcases List.mem_cons.mp hm with rfl | hm
      · exact ⟨_, .step he hr, fun _ hn => hn⟩
      · obtain ⟨rest, hrest, hsub⟩ := ih hm
        exact ⟨rest, hrest, fun n hn => List.mem_cons_of_mem _ (hsub n hn)⟩

/-- A route that passes `m` can go on from `m` by any route from there. -/
theorem Route.splice (hf : Forward code) {i m : Nat} {places : List Nat} (h : Route code i places)
    (hm : m ∈ places) :
    ∃ front, (∀ n ∈ front, n < m) ∧ ∀ rest, Route code m rest → Route code i (front ++ rest) := by
  induction h with
  | exit =>
      obtain rfl := List.mem_singleton.mp hm
      exact ⟨[], by simp, fun rest hr => hr⟩
  | step he hr ih =>
      rcases List.mem_cons.mp hm with rfl | hm
      · exact ⟨[], by simp, fun rest hr => hr⟩
      · obtain ⟨front, hfront, hrest⟩ := ih hm
        have := hf.forward _ _ he
        have := hr.bounds hf m hm
        refine ⟨_ :: front, ?_, fun rest hr => .step he (hrest rest hr)⟩
        intro n hn
        rcases List.mem_cons.mp hn with rfl | hn
        · omega
        · exact hfront n hn

/-! ## Post-dominance -/

theorem postDominates_refl (i : Nat) : PostDominates code i i := fun _ h => h.mem_self

theorem postDominates_exit (i : Nat) : PostDominates code code.length i := by
  intro places h
  induction h with
  | exit => exact List.mem_singleton_self _
  | step _ _ ih => exact List.mem_cons_of_mem _ ih

theorem PostDominates.bounds (hf : Forward code) {n i : Nat} (hi : i ≤ code.length) (h : PostDominates code n i) :
    i ≤ n ∧ n ≤ code.length := by
  obtain ⟨places, hp⟩ := exists_route hf hi
  exact hp.bounds hf n (h places hp)

theorem PostDominates.trans {l m n : Nat} (hlm : PostDominates code l m) (hmn : PostDominates code m n) :
    PostDominates code l n := by
  intro places hp
  obtain ⟨rest, hr, hsub⟩ := hp.suffix (hmn places hp)
  exact hsub l (hlm rest hr)

/-- What post-dominates a place other than itself post-dominates each of its successors. -/
theorem PostDominates.next {n i j : Nat} (h : PostDominates code n i) (hne : n ≠ i) (he : Edge code i j) :
    PostDominates code n j := by
  intro places hp
  rcases List.mem_cons.mp (h _ (.step he hp)) with hn | hn
  · exact absurd hn hne
  · exact hn

theorem postDominates_of_edges {n i : Nat} (hi : i < code.length)
    (h : ∀ j, Edge code i j → PostDominates code n j) : PostDominates code n i := by
  intro places hp
  cases hp with
  | exit => omega
  | step he hr => exact List.mem_cons_of_mem _ (h _ he _ hr)

end PredicateLift.Stream
