import PredicateLift.Proofs.Flow.Layout
import PredicateLift.Proofs.Flow.Recalling
import PredicateLift.Proofs.Symbolic.Frames

/-!
# Chains of disjunctions

The code of a conjunction of disjunctions, each of two fields of the subject being positive. A group goes on to the
next one as soon as its first field is positive, and leaves for a block that all groups share if its second one is not
either. All branches meet at the one return. Where the rest of the chain is reached from both fields of a group, the
joins keep it once, so the reconstructed value grows by one conjunction for each group.
-/

namespace PredicateLift

/-- A chain of groups of two fields, and the offsets of its instructions. -/
structure OrGroups where
  /-- The number of groups. -/
  count : Nat
  offset : Nat → Offset
  increasing : Stream.Increasing offset (6 * count + 4)
  subject : Slot
  first : Nat → Member
  second : Nat → Member

namespace OrGroups

/-- The chain with its instructions at successive offsets. -/
def dense (count : Nat) (hcount : 6 * count + 4 ≤ UInt32.size) (subject : Slot) (first second : Nat → Member) :
    OrGroups where
  count := count
  offset := UInt32.ofNat
  increasing := by
    intro i j hij hj
    rw [UInt32.lt_iff_toNat_lt, UInt32.toNat_ofNat_of_lt' (by omega), UInt32.toNat_ofNat_of_lt' (by omega)]
    exact hij
  subject := subject
  first := first
  second := second

variable (groups : OrGroups)

/-! ## The code -/

/-- The operations of one group: control leaves it for the next group or for the block of failure. -/
def group (i : Nat) : List Operation := [
  .load groups.subject .unknown,
  .getField (groups.first i),
  .branch (.zero .gt) (groups.offset (6 * i + 6)),
  .load groups.subject .unknown,
  .getField (groups.second i),
  .branch (.zero .le) (groups.offset (6 * groups.count + 2))]

/-- The blocks of success and of failure, and the return. -/
def ending : List Operation := [
  .push (.int 1),
  .jump (groups.offset (6 * groups.count + 3)),
  .push (.int 0),
  .ret (some .int)]

def ops : List Operation :=
  (List.range groups.count).flatMap groups.group ++ groups.ending

def code : List Instruction :=
  Stream.placed groups.offset groups.ops

theorem length_groups (n : Nat) : ((List.range n).flatMap groups.group).length = 6 * n := by
  induction n with
  | zero => rfl
  | succ n ih =>
      rw [List.range_succ, List.flatMap_append, List.length_append, ih]
      simp [group]
      omega

theorem getElem?_groups {n i k : Nat} (hi : i < n) (hk : k < 6) :
    ((List.range n).flatMap groups.group)[6 * i + k]? = (groups.group i)[k]? := by
  induction n with
  | zero => omega
  | succ n ih =>
      have hlength := groups.length_groups n
      rw [List.range_succ, List.flatMap_append]
      by_cases hn : i < n
      · rw [List.getElem?_append_left (by omega), ih hn]
      · obtain rfl : i = n := by omega
        rw [List.getElem?_append_right (by omega), hlength, Nat.add_sub_cancel_left]
        simp

theorem length_ops : groups.ops.length = 6 * groups.count + 4 := by
  rw [ops, List.length_append, length_groups]
  rfl

theorem length_code : groups.code.length = 6 * groups.count + 4 := by
  rw [code, Stream.length_placed, length_ops]

variable {groups}

theorem getElem?_group {i k : Nat} (hi : i < groups.count) (hk : k < 6) :
    groups.ops[6 * i + k]? = (groups.group i)[k]? := by
  rw [ops, List.getElem?_append_left (by rw [length_groups]; omega), getElem?_groups groups hi hk]

theorem getElem?_ending (k : Nat) : groups.ops[6 * groups.count + k]? = groups.ending[k]? := by
  rw [ops, List.getElem?_append_right (by rw [length_groups]; omega), length_groups, Nat.add_sub_cancel_left]

/-- An operation of the code stands in a group or in the ending. -/
theorem getElem?_cases {k : Nat} {op : Operation} (h : groups.ops[k]? = some op) :
    (∃ i j, i < groups.count ∧ k = 6 * i + j ∧ (groups.group i)[j]? = some op) ∨
    ∃ j, k = 6 * groups.count + j ∧ groups.ending[j]? = some op := by
  by_cases hk : k < 6 * groups.count
  · have heq : k = 6 * (k / 6) + k % 6 := by omega
    rw [heq, getElem?_group (by omega) (by omega)] at h
    exact .inl ⟨k / 6, k % 6, by omega, heq, h⟩
  · have heq : k = 6 * groups.count + (k - 6 * groups.count) := by omega
    rw [heq, getElem?_ending] at h
    exact .inr ⟨_, heq, h⟩

theorem proceeds {k : Nat} {op : Operation} (h : groups.ops[k]? = some op) :
    ∃ places, Stream.Proceeds groups.offset groups.ops.length k op places := by
  rw [length_ops]
  rcases getElem?_cases h with ⟨i, j, hi, rfl, hop⟩ | ⟨j, rfl, hop⟩
  · match j, hop with
    | 0, rfl | 1, rfl | 3, rfl | 4, rfl => exact ⟨_, .plain trivial (by omega)⟩
    | 2, rfl => exact ⟨_, .branch (by omega) (by omega) (by omega)⟩
    | 5, rfl => exact ⟨_, .branch (by omega) (by omega) (by omega)⟩
  · match j, hop with
    | 0, rfl | 2, rfl => exact ⟨_, .plain trivial (by omega)⟩
    | 1, rfl => exact ⟨_, .jump (by omega) (by omega)⟩
    | 3, rfl => exact ⟨_, .ret⟩

theorem eq_of_ret {k : Nat} {kind : Option Kind} (h : groups.ops[k]? = some (.ret kind)) :
    k = 6 * groups.count + 3 := by
  rcases getElem?_cases h with ⟨i, j, _, rfl, hop⟩ | ⟨j, rfl, hop⟩
  · match j, hop with
    | 0, hop | 1, hop | 2, hop | 3, hop | 4, hop | 5, hop => cases hop
  · match j, hop with
    | 0, hop | 1, hop | 2, hop => cases hop
    | 3, _ => rfl

theorem increasing_ops : Stream.Increasing groups.offset groups.ops.length := by
  rw [length_ops]
  exact groups.increasing

/-! ## Merge points -/

theorem edge_group {i k j : Nat} {op : Operation} {places : List Nat} (hi : i < groups.count) (hk : k < 6)
    (hop : (groups.group i)[k]? = some op)
    (hp : Stream.Proceeds groups.offset (6 * groups.count + 4) (6 * i + k) op places) (hj : j ∈ places) :
    Stream.Edge groups.code (6 * i + k) j := by
  rw [← length_ops] at hp
  exact Stream.edge_placed increasing_ops ((getElem?_group hi hk).trans hop) hp hj

theorem edge_ending {k j : Nat} {op : Operation} {places : List Nat} (hop : groups.ending[k]? = some op)
    (hp : Stream.Proceeds groups.offset (6 * groups.count + 4) (6 * groups.count + k) op places) (hj : j ∈ places) :
    Stream.Edge groups.code (6 * groups.count + k) j := by
  rw [← length_ops] at hp
  exact Stream.edge_placed increasing_ops ((getElem?_ending k).trans hop) hp hj

theorem postDominates_return {k : Nat} (hk : k < 6 * groups.count + 4) :
    Stream.PostDominates groups.code (6 * groups.count + 3) k :=
  Stream.postDominates_placed increasing_ops (fun _ _ => proceeds) (fun _ _ => eq_of_ret)
    (by rw [length_ops]; exact hk)

theorem postDominates_of_group {m : Nat} (hm : 6 * groups.count + 2 ≤ m) (rest : Nat) {i : Nat}
    (hi : i + rest = groups.count) (h : Stream.PostDominates groups.code m (6 * i)) :
    Stream.PostDominates groups.code m (6 * groups.count + 3) := by
  -- All routes pass `m`, so it is enough to take the one through the first tests and the block of success.
  induction rest generalizing i with
  | zero =>
      obtain rfl : i = groups.count := by omega
      have h : Stream.PostDominates groups.code m (6 * groups.count + 1) :=
        h.next (by omega) (edge_ending (k := 0) rfl (.plain trivial (by omega)) (List.mem_singleton_self _))
      exact h.next (by omega) (edge_ending rfl (.jump (by omega) (by omega)) (List.mem_singleton_self _))
  | succ rest ih =>
      have hi' : i < groups.count := by omega
      have h : Stream.PostDominates groups.code m (6 * i + 1) :=
        h.next (by omega) (edge_group (k := 0) hi' (by omega) rfl (.plain trivial (by omega)) (by simp))
      have h : Stream.PostDominates groups.code m (6 * i + 2) :=
        h.next (by omega) (edge_group hi' (by omega) rfl (.plain trivial (by omega)) (by simp))
      have h : Stream.PostDominates groups.code m (6 * (i + 1)) :=
        h.next (by omega)
          (edge_group hi' (by omega) rfl (.branch (by omega) (by omega) (by omega)) (by simp [Nat.mul_add]))
      exact ih (by omega) h

theorem return_le_of_second {i m : Nat} (hi : i < groups.count) (him : 6 * i + 5 < m)
    (hf : Stream.Forward groups.code) (h : Stream.PostDominates groups.code m (6 * i + 5)) :
    6 * groups.count + 3 ≤ m := by
  have hlength := groups.length_code
  have hfail : Stream.PostDominates groups.code m (6 * groups.count + 2) :=
    h.next (by omega) (edge_group hi (by omega) rfl (.branch (by omega) (by omega) (by omega)) (by simp))
  have hnext : Stream.PostDominates groups.code m (6 * (i + 1)) :=
    h.next (by omega)
      (edge_group hi (by omega) rfl (.branch (by omega) (by omega) (by omega)) (by simp [Nat.mul_add]))
  -- The failing route leaves only the block of failure before the return, and the other route does not pass that.
  have hm := (hfail.bounds hf (by omega)).1
  exact ((postDominates_of_group hm (groups.count - (i + 1)) (by omega) hnext).bounds hf (by omega)).1

theorem return_le_of_first {i m : Nat} (hi : i < groups.count) (him : 6 * i + 2 < m)
    (hf : Stream.Forward groups.code) (h : Stream.PostDominates groups.code m (6 * i + 2)) :
    6 * groups.count + 3 ≤ m := by
  have hlength := groups.length_code
  have hnext : Stream.PostDominates groups.code m (6 * (i + 1)) :=
    h.next (by omega)
      (edge_group hi (by omega) rfl (.branch (by omega) (by omega) (by omega)) (by simp [Nat.mul_add]))
  have hm := (hnext.bounds hf (by omega)).1
  have h : Stream.PostDominates groups.code m (6 * i + 3) :=
    h.next (by omega) (edge_group hi (by omega) rfl (.branch (by omega) (by omega) (by omega)) (by simp))
  have h : Stream.PostDominates groups.code m (6 * i + 4) :=
    h.next (by omega) (edge_group hi (by omega) rfl (.plain trivial (by omega)) (by simp))
  have h : Stream.PostDominates groups.code m (6 * i + 5) :=
    h.next (by omega) (edge_group hi (by omega) rfl (.plain trivial (by omega)) (by simp))
  exact return_le_of_second hi (by omega) hf h

section

variable {stream : Stream} (hacc : stream.Accepted) (hcode : stream.code = groups.code)

include hacc hcode

theorem mergeOf_eq_return {k : Nat} (hk : k < 6 * groups.count + 3)
    (hfirst : ∀ m, k < m → Stream.PostDominates groups.code m k → 6 * groups.count + 3 ≤ m) :
    stream.mergeOf k = 6 * groups.count + 3 := by
  have hlength := groups.length_code
  rw [← hcode] at hfirst hlength
  refine hacc.mergeOf_eq (by omega) hk ?_ hfirst
  rw [hcode]
  exact postDominates_return (by omega)

theorem mergeOf_first {i : Nat} (hi : i < groups.count) : stream.mergeOf (6 * i + 2) = 6 * groups.count + 3 :=
  mergeOf_eq_return hacc hcode (by omega) fun _ hm h => return_le_of_first hi hm (hcode ▸ hacc.forward) h

theorem mergeOf_second {i : Nat} (hi : i < groups.count) : stream.mergeOf (6 * i + 5) = 6 * groups.count + 3 :=
  mergeOf_eq_return hacc hcode (by omega) fun _ hm h => return_le_of_second hi hm (hcode ▸ hacc.forward) h

end

/-! ## The reconstructed value -/

variable (groups) in
/-- The test that a field of the subject compares so to zero. -/
def test (op : Comparison) (member : Member) : Symbolic :=
  .compare op (.field (.var groups.subject) member) (.literal (.int 0))

variable (groups) in
/-- The value of a group. -/
def disjunction (i : Nat) : Symbolic :=
  .logical .or (groups.test .gt (groups.first i)) (.not (groups.test .le (groups.second i)))

variable (groups) in
/-- The value of as many groups, from a given one on. -/
def conjunction : (rest i : Nat) → Symbolic
  | 0, _ => .literal (.int 1)
  | 1, i => groups.disjunction i
  | rest + 2, i => .logical .and (groups.disjunction i) (conjunction (rest + 1) (i + 1))

theorem joinValues_last (test test' : Symbolic) :
    joinValues test (.literal (.int 1)) (joinValues test' (.literal (.int 0)) (.literal (.int 1))) =
      .logical .or test (.not test') := by
  have hinner : joinValues test' (.literal (.int 0)) (.literal (.int 1)) = .not test' := rfl
  rw [hinner, joinValues, if_neg (by simp)]
  rfl

/-- A connective to which both tests of a group lead is kept once. -/
theorem joinValues_shared (test test' : Symbolic) (op : Connective) (a b : Symbolic) :
    joinValues test (.logical op a b) (joinValues test' (.literal (.int 0)) (.logical op a b)) =
      .logical .and (.logical .or test (.not test')) (.logical op a b) := by
  have hinner : joinValues test' (.literal (.int 0)) (.logical op a b) =
      .logical .and (.not test') (.logical op a b) := by
    rw [joinValues, if_neg (by simp)]
    rfl
  have hne : Symbolic.logical op a b ≠ .logical .and (.not test') (.logical op a b) := by
    intro h
    have hsize := congrArg sizeOf (Symbolic.logical.inj h).2.2
    simp only [Symbolic.logical.sizeOf_spec] at hsize
    omega
  rw [hinner, joinValues, if_neg hne]
  simp [Symbolic.isBooleanShaped, Symbolic.isBool, Symbolic.kind, Symbolic.toBool, joinBooleans, Symbolic.bool?,
    Symbolic.splitTail?]

theorem join_group (rest i : Nat) :
    joinValues (groups.test .gt (groups.first i)) (groups.conjunction rest (i + 1))
      (joinValues (groups.test .le (groups.second i)) (.literal (.int 0)) (groups.conjunction rest (i + 1))) =
      groups.conjunction (rest + 1) i := by
  match rest with
  | 0 => exact joinValues_last _ _
  | 1 => exact joinValues_shared _ _ _ _ _
  | _ + 2 => exact joinValues_shared _ _ _ _ _

/-- Only tests for equality treat booleans on their own. -/
theorem zeroTest_field {op : Comparison} {member : Member} (heq : op ≠ .eq) (hne : op ≠ .ne) :
    zeroTest op (.field (.var groups.subject) member) = groups.test op member := by
  simp [zeroTest, test, heq, hne]

/-! ## Following the chain -/

variable (groups) in
/-- From the place and an empty stack, control comes to the return with the value on the stack. -/
def Yields (stream : Stream) (registry : Registry) (locals : Locals) (k : Nat) (value : Symbolic) : Prop :=
  ∃ locals', ∀ stop outcome, 6 * groups.count + 3 ≤ stop →
    stream.Follows registry (6 * groups.count + 3) ⟨[value], locals'⟩ stop outcome →
    stream.Follows registry k ⟨[], locals⟩ stop outcome

section

variable {stream : Stream} {registry : Registry} {locals : Locals} (hcode : stream.code = groups.code)

include hcode

theorem indexOf?_code {j : Nat} (hj : j < 6 * groups.count + 4) :
    Stream.indexOf? stream.code (groups.offset j) = some j := by
  rw [hcode]
  exact Stream.indexOf?_placed increasing_ops (by rw [length_ops]; exact hj)

theorem yields_failure : groups.Yields stream registry locals (6 * groups.count + 2) (.literal (.int 0)) := by
  refine ⟨locals, fun stop outcome hstop h => ?_⟩
  exact .next (by omega) (Stream.performs_placed hcode (getElem?_ending 2) rfl) h

theorem yields_success : groups.Yields stream registry locals (6 * groups.count) (.literal (.int 1)) := by
  refine ⟨locals, fun stop outcome hstop h => ?_⟩
  refine .next (by omega) (Stream.performs_placed hcode (getElem?_ending 0) rfl) ?_
  exact .jump (by omega) (Stream.performs_placed hcode (getElem?_ending 1) rfl) (indexOf?_code hcode (by omega)) h

/-- A test whose arms both come to the return comes there with the choice between their values. -/
theorem yields_test (hlocals : locals.get? groups.subject = some (.var groups.subject)) {k j : Nat} {op : Comparison}
    {member : Member} {a b : Symbolic} (heq : op ≠ .eq) (hne : op ≠ .ne)
    (hload : groups.ops[k]? = some (.load groups.subject .unknown))
    (hfield : groups.ops[k + 1]? = some (.getField member))
    (hbranch : groups.ops[k + 2]? = some (.branch (.zero op) (groups.offset j))) (hj : j < 6 * groups.count + 4)
    (hmerge : stream.mergeOf (k + 2) = 6 * groups.count + 3) (hk : k + 2 < 6 * groups.count + 3)
    (ha : groups.Yields stream registry locals j a) (hb : groups.Yields stream registry locals (k + 3) b) :
    groups.Yields stream registry locals k (joinValues (groups.test op member) a b) := by
  obtain ⟨la, ha⟩ := ha
  obtain ⟨lb, hb⟩ := hb
  have ha := ha _ _ (Nat.le_refl _) .stopped
  have hb := hb _ _ (Nat.le_refl _) .stopped
  rw [← hmerge] at ha hb
  have hrun : (Operation.load groups.subject .unknown).run registry ⟨[], locals⟩ =
      .ok (.next ⟨[.var groups.subject], locals⟩) := by
    simp only [Operation.run, hlocals]
    rfl
  refine ⟨la.join (groups.test op member) lb, fun stop outcome hstop h => ?_⟩
  rw [← hmerge, ← zeroTest_field heq hne] at h
  refine .next (by omega) (Stream.performs_placed hcode hload hrun) ?_
  refine .next (by omega) (Stream.performs_placed hcode hfield rfl) ?_
  exact .joined (by omega) (Stream.performs_placed hcode hbranch rfl) (indexOf?_code hcode hj) ha hb rfl h

variable (hacc : stream.Accepted) (hlocals : locals.get? groups.subject = some (.var groups.subject))

include hacc hlocals

theorem yields_group {i : Nat} (hi : i < groups.count) {value : Symbolic}
    (h : groups.Yields stream registry locals (6 * (i + 1)) value) :
    groups.Yields stream registry locals (6 * i)
      (joinValues (groups.test .gt (groups.first i)) value
        (joinValues (groups.test .le (groups.second i)) (.literal (.int 0)) value)) := by
  have hsecond : groups.Yields stream registry locals (6 * i + 3)
      (joinValues (groups.test .le (groups.second i)) (.literal (.int 0)) value) :=
    yields_test hcode hlocals (by decide) (by decide) (getElem?_group (k := 3) hi (by omega))
      (getElem?_group (k := 4) hi (by omega)) (getElem?_group (k := 5) hi (by omega)) (by omega)
      (mergeOf_second hacc hcode hi) (by omega) (yields_failure hcode) h
  exact yields_test hcode hlocals (by decide) (by decide) (getElem?_group (k := 0) hi (by omega))
    (getElem?_group (k := 1) hi (by omega)) (getElem?_group (k := 2) hi (by omega)) (by omega)
    (mergeOf_first hacc hcode hi) (by omega) h hsecond

theorem yields_conjunction (rest : Nat) {i : Nat} (hi : i + rest = groups.count) :
    groups.Yields stream registry locals (6 * i) (groups.conjunction rest i) := by
  -- Each group turns what the rest of the chain yields into what the chain from there on yields.
  induction rest generalizing i with
  | zero =>
      obtain rfl : i = groups.count := by omega
      exact yields_success hcode
  | succ rest ih =>
      rw [← join_group]
      exact yields_group hcode hacc hlocals (by omega) (ih (by omega))

theorem follows_conjunction :
    stream.Follows registry 0 ⟨[], locals⟩ stream.size (.returned (groups.conjunction groups.count 0)) := by
  obtain ⟨locals', h⟩ := yields_conjunction hcode hacc hlocals groups.count (Nat.zero_add _)
  have hsize : stream.size = 6 * groups.count + 4 := by
    rw [Stream.size, hcode, length_code]
  refine h _ _ (by omega) ?_
  exact .done (by omega) (Stream.performs_placed hcode (getElem?_ending 3) rfl)

end

/-- The code is accepted, and the conjunction of all groups is reconstructed from it. -/
theorem exists_reconstruct (registry : Registry) {captures : Captures} {frame : Frame}
    (hframe : Frame.initial groups.subject captures = .ok frame) :
    ∃ stream, Stream.ofList groups.code = .ok stream ∧
      stream.reconstruct registry frame = .ok (groups.conjunction groups.count 0) := by
  obtain ⟨stream, hstream⟩ := Stream.exists_ofList_placed groups.increasing_ops fun _ _ => proceeds
  obtain ⟨hacc, hcode⟩ := Stream.accepted_of_ofList hstream
  refine ⟨stream, hstream, Stream.reconstruct_of_follows hacc ?_⟩
  obtain ⟨-, rfl⟩ := Frame.initial_eq_ok_iff.mp hframe
  exact follows_conjunction hcode hacc (by simp [Locals.get?_set])

end OrGroups

end PredicateLift
