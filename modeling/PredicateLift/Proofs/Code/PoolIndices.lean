import PredicateLift.Code.Pool

/-!
# The indices of a constant pool

A pool numbers its constants from one, and an index has sixteen bits. So the index that the push of a constant gives is
the number of the push, reduced to sixteen bits, and a later push moves no constant. The index keeps its constant as
long as the number itself fits: the first push beyond gets the index zero, at which there is no constant, and the ones
after it get the indices of the first constants again.
-/

namespace PredicateLift

namespace Pool

/-- Adds the constants one after the other, and gives the index of each. -/
def pushAll (pool : Pool) : List Constant → Pool × List UInt16
  | [] => (pool, [])
  | constant :: rest =>
    let pushed := pool.push constant
    let last := pushed.1.pushAll rest
    (last.1, pushed.2 :: last.2)

/-- The index of the constant at place `n` resolves to that constant, after its push and after every later one. -/
def Keeps (constants : List Constant) (n : Nat) : Prop :=
  ∀ m, n < m → m ≤ constants.length → ∃ index, (pushAll {} constants).2[n]? = some index ∧
    (pushAll {} (constants.take m)).1.get? index = constants[n]?

theorem toList_push (pool : Pool) (constant : Constant) :
    (pool.push constant).1.entries.toList = pool.entries.toList ++ [constant] :=
  Array.toList_push

theorem index_push (pool : Pool) (constant : Constant) : (pool.push constant).2 = .ofNat (pool.size + 1) := by
  simp [push, size]

theorem size_push (pool : Pool) (constant : Constant) : (pool.push constant).1.size = pool.size + 1 := by
  simp [push, size]

theorem get?_eq (pool : Pool) (index : UInt16) :
    pool.get? index = if index.toNat = 0 then none else pool.entries.toList[index.toNat - 1]? := by
  unfold get?
  split
  case h_1 h => rw [if_pos h]
  case h_2 i h => simp [h]

@[simp] theorem toList_pushAll (pool : Pool) (constants : List Constant) :
    (pool.pushAll constants).1.entries.toList = pool.entries.toList ++ constants := by
  induction constants generalizing pool with
  | nil => simp [pushAll]
  | cons constant rest ih => simp [pushAll, ih, toList_push]

theorem indices_pushAll (pool : Pool) (constants : List Constant) :
    (pool.pushAll constants).2 = (List.range' (pool.size + 1) constants.length).map UInt16.ofNat := by
  induction constants generalizing pool with
  | nil => rfl
  | cons constant rest ih =>
      simp only [pushAll, ih, index_push, size_push, List.length_cons, List.range'_succ, List.map_cons]

@[simp] theorem length_indices (constants : List Constant) :
    (pushAll {} constants).2.length = constants.length := by
  simp [indices_pushAll]

theorem getElem_indices {constants : List Constant} {n : Nat} (h : n < (pushAll {} constants).2.length) :
    (pushAll {} constants).2[n] = .ofNat (n + 1) := by
  simp [indices_pushAll, size, Nat.add_comm]

theorem getElem?_indices {constants : List Constant} {n : Nat} (h : n < constants.length) :
    (pushAll {} constants).2[n]? = some (.ofNat (n + 1)) := by
  rw [List.getElem?_eq_getElem (by simpa using h), getElem_indices]

theorem toNat_index (n : Nat) : (UInt16.ofNat n).toNat = n % UInt16.size :=
  UInt16.toNat_ofNat'

/-- What is found is the constant that the reduced number counts, however many pushes there have been since. -/
theorem get?_index_iff {constants : List Constant} {n m : Nat} (hn : n < m) (hm : m ≤ constants.length) :
    (pushAll {} (constants.take m)).1.get? (.ofNat (n + 1)) = constants[n]? ↔
      (n + 1) % UInt16.size ≠ 0 ∧ constants[(n + 1) % UInt16.size - 1]? = constants[n]? := by
  have hlt : n < constants.length := by omega
  have hle : (n + 1) % UInt16.size ≤ n + 1 := Nat.mod_le _ _
  simp only [get?_eq, toNat_index, toList_pushAll]
  split
  case isTrue hzero => simp [hzero, List.getElem?_eq_getElem hlt]
  case isFalse hzero => simp [hzero, List.getElem?_take_of_lt (show (n + 1) % UInt16.size - 1 < m by omega)]

theorem keeps_iff {constants : List Constant} {n : Nat} :
    Keeps constants n ↔ (n < constants.length →
      (n + 1) % UInt16.size ≠ 0 ∧ constants[(n + 1) % UInt16.size - 1]? = constants[n]?) := by
  constructor
  · intro h hn
    obtain ⟨index, hindex, hget⟩ := h (n + 1) (Nat.lt_succ_self n) hn
    obtain rfl := Option.some.inj ((getElem?_indices hn).symm.trans hindex)
    exact (get?_index_iff (Nat.lt_succ_self n) hn).mp hget
  · intro h m hn hm
    have hlt : n < constants.length := by omega
    exact ⟨_, getElem?_indices hlt, (get?_index_iff hn hm).mpr (h hlt)⟩

theorem keeps_of_lt (constants : List Constant) {n : Nat} (h : n + 1 < UInt16.size) : Keeps constants n := by
  rw [keeps_iff, Nat.mod_eq_of_lt h]
  simp

theorem not_keeps_last {constants : List Constant} (h : UInt16.size ≤ constants.length) :
    ¬Keeps constants (UInt16.size - 1) := by
  rw [keeps_iff]
  exact fun hkeeps => (hkeeps h).1 rfl

theorem nodup_indices_iff (constants : List Constant) :
    (pushAll {} constants).2.Nodup ↔ constants.length ≤ UInt16.size := by
  simp only [List.nodup_iff_pairwise_ne, List.pairwise_iff_getElem, getElem_indices, length_indices, ne_eq,
    ← UInt16.toNat_inj, toNat_index]
  constructor
  · intro h
    refine Nat.le_of_not_lt fun hlt => ?_
    -- With one push more, the last index is that of the first push again.
    exact h 0 UInt16.size (by omega) hlt (by decide) rfl
  · intro hle i j hi hj hij heq
    simp only [UInt16.size] at heq hle
    omega

/-- An index keeps its constant exactly if the number of the push, reduced to sixteen bits, still counts an equal
constant. All indices do so exactly for a pool that never has more constants than there are indices other than zero;
with one more, they are still distinct. -/
theorem indices_exact (constants : List Constant) :
    (∀ n, Keeps constants n ↔ (n < constants.length →
      (n + 1) % UInt16.size ≠ 0 ∧ constants[(n + 1) % UInt16.size - 1]? = constants[n]?)) ∧
    ((∀ n, Keeps constants n) ↔ constants.length < UInt16.size) ∧
    ((pushAll {} constants).2.Nodup ↔ constants.length ≤ UInt16.size) := by
  refine ⟨fun n => keeps_iff, ⟨fun h => ?_, fun h n => ?_⟩, nodup_indices_iff constants⟩
  · exact Nat.lt_of_not_le fun hle => not_keeps_last hle (h _)
  · obtain hn | hn := Nat.lt_or_ge (n + 1) UInt16.size
    · exact keeps_of_lt constants hn
    · exact keeps_iff.mpr fun hlt => by omega

/-- One constant more than there are indices other than zero. -/
def overfull : List Constant :=
  List.replicate 65535 (.integer 1) ++ [.classRef "Last"]

/-- The push of the last constant gives the index zero, at which nothing is found. -/
theorem not_keeps_overfull :
    (pushAll {} overfull).2[65535]? = some 0 ∧ (pushAll {} overfull).1.get? 0 = none ∧ ¬Keeps overfull 65535 := by
  have hlength : overfull.length = UInt16.size := by
    rw [overfull, List.length_append, List.length_replicate]
    rfl
  refine ⟨?_, ?_, not_keeps_last (Nat.le_of_eq hlength.symm)⟩
  · rw [getElem?_indices (by rw [hlength]; decide)]
    rfl
  · simp [get?_eq]

end Pool

end PredicateLift
