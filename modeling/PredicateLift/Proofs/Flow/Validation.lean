import PredicateLift.Proofs.Flow.Layout

/-!
# Which lists are accepted

A list of instructions is accepted as a stream exactly if its offsets increase, every branch or jump goes to the offset
of a later instruction, and the last instruction returns. If offsets are out of order, the first of them is reported.
All else comes to light while the merge points are computed from the end of the list, so that the last instruction with
a flaw is the one that is reported.
-/

namespace PredicateLift

def Operation.GoesOn : Operation → Prop
  | .jump _ => False
  | .ret _ => False
  | _ => True

theorem Operation.control_cases (op : Operation) :
    (∃ kind, op = .ret kind) ∨ (∃ target, op = .jump target) ∨ (∃ condition target, op = .branch condition target) ∨
      op.Plain := by
  cases op <;> simp [Operation.Plain]

theorem Operation.Plain.goesOn {op : Operation} (h : op.Plain) : op.GoesOn := by
  cases op <;> simp_all [Operation.Plain, Operation.GoesOn]

theorem Instruction.target?_of_plain {instruction : Instruction} (h : instruction.op.Plain) :
    instruction.target? = none := by
  obtain ⟨offset, op⟩ := instruction
  cases op <;> simp_all [Operation.Plain, Instruction.target?]

namespace Stream

/-- What can be wrong with the place to which an instruction goes. -/
inductive BadTarget (code : List Instruction) (instruction : Instruction) (target : Offset) : Cause → Prop where
  | backward : target ≤ instruction.offset → BadTarget code instruction target (.backwardBranch target)
  | missing : instruction.offset < target → (∀ other ∈ code, other.offset ≠ target) →
      BadTarget code instruction target (.missingTarget target)

/-- What can be wrong with the instruction at place `i`. A bad target counts only if control does not fall past the
end there. -/
inductive Flaw (code : List Instruction) (i : Nat) (instruction : Instruction) : Cause → Prop where
  | pastTheEnd : instruction.op.GoesOn → i + 1 = code.length → Flaw code i instruction .pastTheEnd
  | target {target cause} : (instruction.op.GoesOn → i + 1 < code.length) → instruction.target? = some target →
      BadTarget code instruction target cause → Flaw code i instruction cause

variable {code : List Instruction} {i : Nat} {instruction : Instruction} {fault : Fault}

/-! ## One instruction -/

theorem following_eq_error_iff (hi : i < code.length) :
    following code i instruction = .error fault ↔
      i + 1 = code.length ∧ fault = .located instruction.offset .pastTheEnd := by
  unfold following
  split
  · simp only [reduceCtorEq, false_iff, not_and]
    omega
  · rw [Except.error.injEq, eq_comm]
    exact ⟨fun h => ⟨by omega, h⟩, fun h => h.2⟩

theorem indexOf?_eq_none_iff {target : Offset} :
    indexOf? code target = none ↔ ∀ other ∈ code, other.offset ≠ target := by
  simp [indexOf?, List.findIdx?_eq_none_iff]

theorem branchIndex_eq_error_iff {target : Offset} :
    branchIndex code instruction target = .error fault ↔
      ∃ cause, BadTarget code instruction target cause ∧ fault = .located instruction.offset cause := by
  unfold branchIndex
  split
  · rename_i hle
    rw [Except.error.injEq, eq_comm]
    constructor
    · rintro rfl
      exact ⟨_, .backward hle, rfl⟩
    · rintro ⟨cause, hbad, rfl⟩
      cases hbad with
      | backward _ => rfl
      | missing hlt _ => exact absurd hlt (UInt32.not_lt.mpr hle)
  · rename_i hle
    unfold indexOf
    cases hindex : indexOf? code target with
    | some j =>
        simp only [reduceCtorEq, false_iff, not_exists, not_and]
        intro cause hbad
        cases hbad with
        | backward hle' => exact absurd hle' hle
        | missing _ hnone =>
            rw [indexOf?_eq_none_iff.mpr hnone] at hindex
            cases hindex
    | none =>
        rw [Except.error.injEq, eq_comm]
        constructor
        · rintro rfl
          exact ⟨_, .missing (UInt32.not_le.mp hle) (indexOf?_eq_none_iff.mp hindex), rfl⟩
        · rintro ⟨cause, hbad, rfl⟩
          cases hbad with
          | backward hle' => exact absurd hle' hle
          | missing _ _ => rfl

/-- An instruction has no places to go to exactly if it has a flaw, and that is reported. -/
theorem successorsOf_eq_error_iff (hi : i < code.length) :
    successorsOf code i instruction = .error fault ↔
      ∃ cause, Flaw code i instruction cause ∧ fault = .located instruction.offset cause := by
  obtain ⟨offset, op⟩ := instruction
  rcases op.control_cases with ⟨kind, rfl⟩ | ⟨target, rfl⟩ | ⟨condition, target, rfl⟩ | hplain
  · constructor
    · intro h
      cases h
    · rintro ⟨cause, hflaw, _⟩
      cases hflaw with
      | pastTheEnd hgo _ => exact hgo.elim
      | target _ htarget _ => cases htarget
  · simp only [successorsOf, bind_return_eq_error_iff, branchIndex_eq_error_iff]
    refine exists_congr fun cause => and_congr_left fun _ => ⟨fun hbad => .target False.elim rfl hbad, fun hflaw => ?_⟩
    cases hflaw with
    | pastTheEnd hgo _ => exact hgo.elim
    | target _ htarget hbad =>
        cases htarget
        exact hbad
  · simp only [successorsOf]
    constructor
    · intro h
      rcases bind_eq_error_iff.mp h with h | ⟨next, hnext, h⟩
      · obtain ⟨hlast, rfl⟩ := (following_eq_error_iff hi).mp h
        exact ⟨_, .pastTheEnd trivial hlast, rfl⟩
      · obtain ⟨cause, hbad, rfl⟩ := branchIndex_eq_error_iff.mp (bind_return_eq_error_iff.mp h)
        obtain ⟨rfl, hlt⟩ := following_forward hnext
        exact ⟨cause, .target (fun _ => hlt) rfl hbad, rfl⟩
    · rintro ⟨cause, hflaw, rfl⟩
      cases hflaw with
      | pastTheEnd _ hlast => exact bind_eq_error_iff.mpr (.inl ((following_eq_error_iff hi).mpr ⟨hlast, rfl⟩))
      | target hgo htarget hbad =>
          cases htarget
          refine bind_eq_error_iff.mpr (.inr ⟨i + 1, if_pos (hgo trivial), ?_⟩)
          exact bind_return_eq_error_iff.mpr (branchIndex_eq_error_iff.mpr ⟨cause, hbad, rfl⟩)
  · rw [successorsOf_of_plain hplain, bind_return_eq_error_iff, following_eq_error_iff hi]
    constructor
    · rintro ⟨hlast, rfl⟩
      exact ⟨_, .pastTheEnd hplain.goesOn hlast, rfl⟩
    · rintro ⟨cause, hflaw, rfl⟩
      cases hflaw with
      | pastTheEnd _ hlast => exact ⟨hlast, rfl⟩
      | target _ htarget _ =>
          rw [Instruction.target?_of_plain hplain] at htarget
          cases htarget

/-! ## All instructions -/

/-- The instruction at place `i` is the last one with a flaw. -/
structure LastFlaw (code : List Instruction) (i : Nat) (instruction : Instruction) (cause : Cause) : Prop where
  placed : code[i]? = some instruction
  flaw : Flaw code i instruction cause
  last : ∀ j other, i < j → code[j]? = some other → ∀ cause, ¬ Flaw code j other cause

theorem successors_eq_error_iff :
    successors code i = .error fault ↔
      ∃ instruction cause, code[i]? = some instruction ∧ Flaw code i instruction cause ∧
        fault = .located instruction.offset cause := by
  unfold successors
  cases hi : code[i]? with
  | none => simp
  | some instruction =>
      simp [successorsOf_eq_error_iff (List.getElem?_eq_some_iff.mp hi).1]

theorem lt_of_successors_eq_error (h : successors code i = .error fault) : i < code.length := by
  obtain ⟨instruction, _, hi, _⟩ := successors_eq_error_iff.mp h
  exact (List.getElem?_eq_some_iff.mp hi).1

/-- The sweep over the last places fails at the first place that it comes to from which control cannot go on. -/
theorem mergesOfLast_eq_error_iff {count : Nat} (hcount : count ≤ code.length) :
    mergesOfLast code count = .error fault ↔
      ∃ i, code.length ≤ i + count ∧ successors code i = .error fault ∧
        ∀ j, i < j → ∀ fault, successors code j ≠ .error fault := by
  induction count generalizing fault with
  | zero =>
      refine iff_of_false nofun ?_
      rintro ⟨i, hi, h, _⟩
      have := lt_of_successors_eq_error h
      omega
  | succ count ih =>
      have ih := fun fault => @ih fault (by omega)
      constructor
      · intro h
        rcases bind_eq_error_iff.mp h with h | ⟨later, hlater, h⟩
        · obtain ⟨i, hi, hrest⟩ := (ih fault).mp h
          exact ⟨i, by omega, hrest⟩
        · refine ⟨code.length - (count + 1), by omega, ?_, fun j hj fault' hfault' => ?_⟩
          · rcases bind_eq_error_iff.mp h with h | ⟨places, _, h⟩
            · exact h
            · cases places <;> cases h
          · have hlt := lt_of_successors_eq_error hfault'
            obtain ⟨places, hplaces⟩ := successors_of_mergesOfLast hlater j hlt (by omega)
            cases hplaces.symm.trans hfault'
      · rintro ⟨i, hi, h, hlater⟩
        -- The place is among those that were swept before, or it is the one that is swept now.
        by_cases hlast : code.length ≤ i + count
        · exact bind_eq_error_iff.mpr (.inl ((ih fault).mpr ⟨i, hlast, h, hlater⟩))
        · obtain rfl : i = code.length - (count + 1) := by omega
          cases hmerges : mergesOfLast code count with
          | error fault' =>
              obtain ⟨j, hj, hfault, _⟩ := (ih fault').mp hmerges
              exact absurd hfault (hlater j (by omega) fault')
          | ok later =>
              simp only [mergesOfLast, hmerges, h]
              rfl

theorem lastFlaw_iff :
    (∃ instruction cause, LastFlaw code i instruction cause ∧ fault = .located instruction.offset cause) ↔
      successors code i = .error fault ∧ ∀ j, i < j → ∀ fault, successors code j ≠ .error fault := by
  rw [successors_eq_error_iff]
  constructor
  · rintro ⟨instruction, cause, h, rfl⟩
    refine ⟨⟨instruction, cause, h.placed, h.flaw, rfl⟩, fun j hj fault' hfault' => ?_⟩
    obtain ⟨other, cause', hother, hflaw, _⟩ := successors_eq_error_iff.mp hfault'
    exact h.last j other hj hother cause' hflaw
  · rintro ⟨⟨instruction, cause, hi, hflaw, rfl⟩, hlater⟩
    refine ⟨instruction, cause, ⟨hi, hflaw, fun j other hj hother cause' hflaw' => ?_⟩, rfl⟩
    exact hlater j hj _ (successors_eq_error_iff.mpr ⟨other, cause', hother, hflaw', rfl⟩)

/-! ## Offsets -/

/-- The offsets up to that of `a` increase, and that of the next instruction `b` does not follow it. -/
structure FirstDisorder (code : List Instruction) (a b : Instruction) : Prop where
  split : ∃ before after, code = before ++ a :: b :: after ∧ (before ++ [a]).Pairwise Precedes
  disorder : b.offset ≤ a.offset

theorem firstDisorder_cons_iff {first second a b : Instruction} {rest : List Instruction} :
    FirstDisorder (first :: second :: rest) a b ↔
      (a = first ∧ b = second ∧ second.offset ≤ first.offset) ∨
        Precedes first second ∧ FirstDisorder (second :: rest) a b := by
  constructor
  · rintro ⟨⟨before, after, hcode, hord⟩, hle⟩
    cases before with
    | nil =>
        cases hcode
        exact .inl ⟨rfl, rfl, hle⟩
    | cons _ before =>
        obtain ⟨rfl, hrest⟩ := List.cons.inj hcode
        obtain ⟨hfirst, hord⟩ := List.pairwise_cons.mp hord
        refine .inr ⟨hfirst second ?_, ⟨before, after, hrest, hord⟩, hle⟩
        cases before with
        | nil =>
            cases hrest
            exact List.mem_singleton_self _
        | cons _ _ =>
            cases hrest
            exact List.mem_cons_self
  · rintro (⟨rfl, rfl, hle⟩ | ⟨hfirst, ⟨before, after, hcode, hord⟩, hle⟩)
    · exact ⟨⟨[], rest, rfl, List.pairwise_singleton _ _⟩, hle⟩
    · refine ⟨⟨first :: before, after, by rw [hcode, List.cons_append], ?_⟩, hle⟩
      -- What precedes the first of an increasing list precedes all of it.
      rw [← List.isChain_iff_pairwise] at hord ⊢
      cases before with
      | nil =>
          cases hcode
          exact .cons_cons hfirst hord
      | cons _ _ =>
          cases hcode
          exact .cons_cons hfirst hord

theorem disorder?_eq_some_iff :
    disorder? code = some fault ↔
      ∃ a b, FirstDisorder code a b ∧ fault = .located b.offset (.offsetOrder b.offset a.offset) := by
  fun_induction disorder? code with
  | case1 first second rest hle =>
      simp only [firstDisorder_cons_iff, Option.some.injEq]
      constructor
      · rintro rfl
        exact ⟨first, second, .inl ⟨rfl, rfl, hle⟩, rfl⟩
      · rintro ⟨a, b, ⟨rfl, rfl, _⟩ | ⟨hlt, _⟩, rfl⟩
        · rfl
        · exact absurd hlt (UInt32.not_lt.mpr hle)
  | case2 first second rest hle ih =>
      simp only [ih, firstDisorder_cons_iff, hle, and_false, false_or, Precedes, UInt32.not_le.mp hle, true_and]
  | case3 code hshort =>
      refine iff_of_false (Option.some_ne_none fault).symm ?_
      rintro ⟨a, b, h, _⟩
      obtain ⟨before, after, rfl, _⟩ := h.split
      cases before with
      | nil => exact hshort _ _ _ rfl
      | cons x before => cases before <;> exact hshort _ _ _ rfl

/-! ## Acceptance -/

/-- The offsets increase, control goes forward to instructions of the list, and it does not leave the list but by a
return. -/
structure Closed (code : List Instruction) : Prop where
  increasing : code.Pairwise (·.offset < ·.offset)
  targets : ∀ instruction ∈ code, ∀ target, instruction.target? = some target →
    instruction.offset < target ∧ ∃ other ∈ code, other.offset = target
  returns : ∀ last, code.getLast? = some last → ∃ kind, last.op = .ret kind

/-- Why a list is not accepted, and which instruction is to blame. -/
inductive Rejects (code : List Instruction) : Fault → Prop where
  | disorder {a b} : FirstDisorder code a b →
      Rejects code (.located b.offset (.offsetOrder b.offset a.offset))
  | flaw {i instruction cause} : code.Pairwise (·.offset < ·.offset) → LastFlaw code i instruction cause →
      Rejects code (.located instruction.offset cause)

section

variable (hnone : ∀ i instruction, code[i]? = some instruction → ∀ cause, ¬ Flaw code i instruction cause)

include hnone

theorem target_of_no_flaw (hmem : instruction ∈ code) {target : Offset} (htarget : instruction.target? = some target) :
    instruction.offset < target ∧ ∃ other ∈ code, other.offset = target := by
  obtain ⟨i, hi, rfl⟩ := List.getElem_of_mem hmem
  have hi' := List.getElem?_eq_getElem hi
  have hgo : code[i].op.GoesOn → i + 1 < code.length := by
    intro hgo
    have hne : i + 1 ≠ code.length := fun hlast => hnone i _ hi' _ (.pastTheEnd hgo hlast)
    omega
  have hbad := fun cause h => hnone i _ hi' cause (.target hgo htarget h)
  have hlt : code[i].offset < target := UInt32.not_le.mp fun hle => hbad _ (.backward hle)
  refine ⟨hlt, ?_⟩
  by_contra hother
  exact hbad _ (.missing hlt fun other hmem h => hother ⟨other, hmem, h⟩)

theorem ret_of_no_flaw (hord : code.Pairwise Precedes) {last : Instruction} (hlast : code.getLast? = some last) :
    ∃ kind, last.op = .ret kind := by
  rw [List.getLast?_eq_getElem?] at hlast
  have hlt := (List.getElem?_eq_some_iff.mp hlast).1
  have hstays : ¬ last.op.GoesOn := fun hgo => hnone _ last hlast .pastTheEnd (.pastTheEnd hgo (by omega))
  rcases last.op.control_cases with hret | ⟨target, hjump⟩ | ⟨condition, target, hbranch⟩ | hplain
  · exact hret
  · -- A later instruction than the last one would be at the target.
    have htarget : last.target? = some target := by rw [Instruction.target?, hjump]
    obtain ⟨hforward, other, hmem, rfl⟩ := target_of_no_flaw hnone (List.mem_of_getElem? hlast) htarget
    obtain ⟨j, hj, rfl⟩ := List.getElem_of_mem hmem
    have := index_lt_of_offset_lt hord hlast (List.getElem?_eq_getElem hj) hforward
    omega
  · rw [hbranch] at hstays
    exact absurd trivial hstays
  · exact absurd hplain.goesOn hstays

end

theorem closed_iff :
    Closed code ↔ code.Pairwise Precedes ∧
      ∀ i instruction, code[i]? = some instruction → ∀ cause, ¬ Flaw code i instruction cause := by
  constructor
  · intro h
    refine ⟨h.increasing, fun i instruction hi cause hflaw => ?_⟩
    cases hflaw with
    | pastTheEnd hgo hlast =>
        obtain ⟨kind, hret⟩ := h.returns instruction (by rw [List.getLast?_eq_getElem?, ← hlast]; exact hi)
        rw [hret] at hgo
        exact hgo
    | target _ htarget hbad =>
        obtain ⟨hlt, other, hmem, hother⟩ := h.targets instruction (List.mem_of_getElem? hi) _ htarget
        cases hbad with
        | backward hle => exact absurd hlt (UInt32.not_lt.mpr hle)
        | missing _ hnone => exact hnone other hmem hother
  · rintro ⟨hord, hnone⟩
    exact ⟨hord, fun _ hmem _ => target_of_no_flaw hnone hmem, fun _ => ret_of_no_flaw hnone hord⟩

theorem exists_ofList_iff : (∃ stream, ofList code = .ok stream) ↔ Closed code := by
  rw [closed_iff]
  constructor
  · rintro ⟨stream, h⟩
    obtain ⟨hdisorder, _, hmerges⟩ := ofList_eq_ok h
    refine ⟨pairwise_of_disorder? hdisorder, fun i instruction hi cause hflaw => ?_⟩
    have hlt := (List.getElem?_eq_some_iff.mp hi).1
    obtain ⟨places, hplaces⟩ := successors_of_mergesOfLast hmerges i hlt (by omega)
    cases hplaces.symm.trans (successors_eq_error_iff.mpr ⟨instruction, cause, hi, hflaw, rfl⟩)
  · rintro ⟨hord, hnone⟩
    refine exists_ofList hord fun i _ => ?_
    cases hplaces : successors code i with
    | ok places => exact ⟨places, rfl⟩
    | error fault =>
        obtain ⟨instruction, cause, hi, hflaw, _⟩ := successors_eq_error_iff.mp hplaces
        exact absurd hflaw (hnone i instruction hi cause)

theorem ofList_eq_error_iff : ofList code = .error fault ↔ Rejects code fault := by
  unfold ofList
  cases hdisorder : disorder? code with
  | some first =>
      simp only [Except.error.injEq]
      constructor
      · rintro rfl
        obtain ⟨a, b, h, rfl⟩ := disorder?_eq_some_iff.mp hdisorder
        exact .disorder h
      · intro h
        cases h with
        | disorder h =>
            rw [disorder?_eq_some_iff.mpr ⟨_, _, h, rfl⟩] at hdisorder
            exact (Option.some.inj hdisorder).symm
        | flaw hord _ => cases (disorder?_of_pairwise hord).symm.trans hdisorder
  | none =>
      simp only [bind_return_eq_error_iff, mergesOfLast_eq_error_iff (Nat.le_refl _)]
      constructor
      · rintro ⟨i, _, h⟩
        obtain ⟨instruction, cause, hlast, rfl⟩ := lastFlaw_iff.mpr h
        exact .flaw (pairwise_of_disorder? hdisorder) hlast
      · intro h
        cases h with
        | disorder h => cases (disorder?_eq_some_iff.mpr ⟨_, _, h, rfl⟩).symm.trans hdisorder
        | flaw _ h => exact ⟨_, Nat.le_add_left _ _, lastFlaw_iff.mp ⟨_, _, h, rfl⟩⟩

theorem Rejects.reason (h : Rejects code fault) :
    (∃ target, fault.cause = .backwardBranch target) ∧ fault.reason = .unsupportedLoop ∨
      (∀ target, fault.cause ≠ .backwardBranch target) ∧ fault.reason = .invalidBranchTarget := by
  cases h with
  | disorder _ => exact .inr ⟨nofun, rfl⟩
  | flaw _ h =>
      cases h.flaw with
      | pastTheEnd _ _ => exact .inr ⟨nofun, rfl⟩
      | target _ _ hbad =>
          cases hbad with
          | backward _ => exact .inl ⟨⟨_, rfl⟩, rfl⟩
          | missing _ _ => exact .inr ⟨nofun, rfl⟩

/-- A list is accepted as a stream exactly if it is closed. If its offsets are out of order, the first instruction whose
offset does not follow is reported, and otherwise the last one with a flaw. A branch that does not go forward is a loop,
and everything else an invalid target. -/
theorem ofList_exact (code : List Instruction) :
    ((∃ stream, ofList code = .ok stream) ↔ Closed code) ∧
    ∀ fault, (ofList code = .error fault ↔ Rejects code fault) ∧
      (ofList code = .error fault →
        (∃ target, fault.cause = .backwardBranch target) ∧ fault.reason = .unsupportedLoop ∨
        (∀ target, fault.cause ≠ .backwardBranch target) ∧ fault.reason = .invalidBranchTarget) :=
  ⟨exists_ofList_iff, fun _ => ⟨ofList_eq_error_iff, fun h => (ofList_eq_error_iff.mp h).reason⟩⟩

/-- A jump to a missing offset, then a branch back into the middle of an instruction, then a return. -/
def strayBranches : List Instruction := [
  ⟨0, .jump 9⟩,
  ⟨3, .push (.int 1)⟩,
  ⟨4, .branch (.zero .eq) 2⟩,
  ⟨7, .ret (some .int)⟩]

/-- Of the two flaws in `strayBranches`, the later one is reported, as a loop. -/
theorem ofList_exact_strayBranches :
    ofList strayBranches = .error (.located 4 (.backwardBranch 2)) ∧ ¬ Closed strayBranches ∧
      Rejects strayBranches (.located 4 (.backwardBranch 2)) ∧
      (Fault.located 4 (.backwardBranch 2)).reason = .unsupportedLoop := by
  have h : ofList strayBranches = .error (.located 4 (.backwardBranch 2)) := rfl
  obtain ⟨haccepted, hrejected⟩ := ofList_exact strayBranches
  refine ⟨h, fun hclosed => ?_, (hrejected _).1.mp h, ?_⟩
  · obtain ⟨stream, hstream⟩ := haccepted.mpr hclosed
    cases h.symm.trans hstream
  · rcases (hrejected _).2 h with ⟨_, hreason⟩ | ⟨hother, _⟩
    · exact hreason
    · exact absurd rfl (hother 2)

end Stream

end PredicateLift
