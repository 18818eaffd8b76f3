import PredicateLift.Proofs.Flow.Following
import PredicateLift.Proofs.Flow.MergePoints
import PredicateLift.Proofs.Symbolic.Effects

/-!
# Accepted streams are followed safely

In an accepted stream the place at which an arm stops post-dominates every place in the arm. So the merge point of a
branch inside an arm is at or before the place where the arm stops, control never passes that place, and an arm
returns exactly if it stops at the end. What is left to go wrong is a fault of one instruction, and arms that meet with
stacks of different depths.
-/

namespace PredicateLift.Stream

variable {stream : Stream} {registry : Registry}

/-- The stream comes from its own list of instructions. -/
def Accepted (stream : Stream) : Prop :=
  ofList stream.code = .ok stream

theorem Accepted.forward (h : stream.Accepted) : Forward stream.code :=
  forward_of_ofList h

theorem accepted_of_ofList {code : List Instruction} (h : ofList code = .ok stream) :
    stream.Accepted ∧ stream.code = code := by
  have hcode := (ofList_eq_ok h).2.1
  exact ⟨by rw [Accepted, hcode]; exact h, hcode⟩

theorem Accepted.mergeOf (h : stream.Accepted) {i : Nat} (hi : i < stream.code.length) :
    Immediate stream.code i (stream.mergeOf i) := by
  obtain ⟨m, hm, him⟩ := mergePoint?_immediate h hi
  rw [Stream.mergeOf, hm]
  exact him

/-! ## Effects and edges -/

theorem Accepted.successorsOf (h : stream.Accepted) {i : Nat} {instruction : Instruction}
    (hi : stream.code[i]? = some instruction) :
    ∃ places, Stream.successorsOf stream.code i instruction = .ok places ∧
      ∀ j ∈ places, Edge stream.code i j := by
  obtain ⟨next, others, hs⟩ := h.forward.proceeds i (List.getElem?_eq_some_iff.mp hi).1
  refine ⟨next :: others, ?_, fun j hj => ⟨_, hs, hj⟩⟩
  rwa [successors, hi] at hs

theorem successorsOf_of_plain {code : List Instruction} {i : Nat} {instruction : Instruction}
    (h : instruction.op.Plain) :
    successorsOf code i instruction = (do return [← following code i instruction]) := by
  unfold successorsOf
  split
  all_goals simp_all [Operation.Plain]

theorem indexOf?_of_branchIndex {code : List Instruction} {instruction : Instruction} {target : Offset} {j : Nat}
    (h : branchIndex code instruction target = .ok j) : indexOf? code target = some j := by
  unfold branchIndex at h
  split at h
  · cases h
  · exact indexOf_eq_ok_iff.mp h

theorem lt_of_indexOf? {target : Offset} {j : Nat} (h : indexOf? stream.code target = some j) :
    j < stream.code.length := by
  have hok : indexOf stream.code 0 target = .ok j := indexOf_eq_ok_iff.mpr h
  obtain ⟨_, hj, _⟩ := code_of_indexOf hok
  exact (List.getElem?_eq_some_iff.mp hj).1

theorem Accepted.edge_next (h : stream.Accepted) {i : Nat} {frame frame' : Frame}
    (hp : Performs stream registry i frame (.next frame')) :
    Edge stream.code i (i + 1) ∧ i + 1 < stream.code.length := by
  obtain ⟨instruction, hi, hs⟩ := hp
  obtain ⟨places, hplaces, hedge⟩ := h.successorsOf hi
  rcases Operation.run_cases (step_eq_ok_iff.mp hs) with
    ⟨_, _, hplain⟩ | ⟨_, _, he⟩ | ⟨_, _, _, _, _, _, he⟩ | ⟨_, _, _, _, _, he⟩
  · rw [successorsOf_of_plain hplain] at hplaces
    obtain ⟨j, hj, hplaces⟩ := bind_eq_ok_iff.mp hplaces
    cases pure_eq_ok_iff.mp hplaces
    obtain ⟨rfl, hlt⟩ := following_forward hj
    exact ⟨hedge _ (List.mem_singleton_self _), hlt⟩
  all_goals cases he

theorem Accepted.edge_jump (h : stream.Accepted) {i : Nat} {frame frame' : Frame} {target : Offset}
    (hp : Performs stream registry i frame (.jump target frame')) :
    ∃ j, indexOf? stream.code target = some j ∧ Edge stream.code i j := by
  obtain ⟨instruction, hi, hs⟩ := hp
  obtain ⟨places, hplaces, hedge⟩ := h.successorsOf hi
  rcases Operation.run_cases (step_eq_ok_iff.mp hs) with
    ⟨_, he, _⟩ | ⟨_, hop, he⟩ | ⟨_, _, _, _, _, _, he⟩ | ⟨_, _, _, _, _, he⟩
  · cases he
  · cases he
    simp only [Stream.successorsOf, hop] at hplaces
    obtain ⟨j, hj, hplaces⟩ := bind_eq_ok_iff.mp hplaces
    cases pure_eq_ok_iff.mp hplaces
    exact ⟨j, indexOf?_of_branchIndex hj, hedge j (List.mem_singleton_self _)⟩
  all_goals cases he

theorem Accepted.edge_branch (h : stream.Accepted) {i : Nat} {frame frame' : Frame} {test : Symbolic}
    {target : Offset} (hp : Performs stream registry i frame (.branch test target frame')) :
    ∃ j, indexOf? stream.code target = some j ∧ Edge stream.code i j ∧ Edge stream.code i (i + 1) ∧
      i + 1 < stream.code.length := by
  obtain ⟨instruction, hi, hs⟩ := hp
  obtain ⟨places, hplaces, hedge⟩ := h.successorsOf hi
  rcases Operation.run_cases (step_eq_ok_iff.mp hs) with
    ⟨_, he, _⟩ | ⟨_, _, he⟩ | ⟨_, _, _, _, hop, _, he⟩ | ⟨_, _, _, _, _, he⟩
  · cases he
  · cases he
  · cases he
    simp only [Stream.successorsOf, hop] at hplaces
    obtain ⟨next, hnext, hplaces⟩ := bind_eq_ok_iff.mp hplaces
    obtain ⟨j, hj, hplaces⟩ := bind_eq_ok_iff.mp hplaces
    cases pure_eq_ok_iff.mp hplaces
    obtain ⟨rfl, hlt⟩ := following_forward hnext
    exact ⟨j, indexOf?_of_branchIndex hj, hedge j (by simp), hedge (i + 1) (by simp), hlt⟩
  · cases he

theorem Accepted.edge_done (h : stream.Accepted) {i : Nat} {frame : Frame} {value : Symbolic}
    (hp : Performs stream registry i frame (.done value)) : Edge stream.code i stream.code.length := by
  obtain ⟨instruction, hi, hs⟩ := hp
  obtain ⟨places, hplaces, hedge⟩ := h.successorsOf hi
  rcases Operation.run_cases (step_eq_ok_iff.mp hs) with
    ⟨_, he, _⟩ | ⟨_, _, he⟩ | ⟨_, _, _, _, _, _, he⟩ | ⟨_, _, _, hop, _, _⟩
  · cases he
  · cases he
  · cases he
  · simp only [Stream.successorsOf, hop] at hplaces
    cases hplaces
    exact hedge _ (List.mem_singleton_self _)

/-! ## Control stays inside an arm -/

/-- Place `i` is in an arm that stops at `stop`: every route from it passes that place. -/
structure Inside (code : List Instruction) (i stop : Nat) : Prop where
  place_le : i ≤ code.length
  passed : PostDominates code stop i

namespace Inside

variable {code : List Instruction} {i j stop : Nat}

theorem bounds (h : Inside code i stop) (hf : Forward code) : i ≤ stop ∧ stop ≤ code.length :=
  h.passed.bounds hf h.place_le

theorem lt (h : Inside code i stop) (hf : Forward code) (hne : i ≠ stop) : i < code.length := by
  have := h.bounds hf
  omega

theorem edge (h : Inside code i stop) (hf : Forward code) (hne : i ≠ stop) (he : Edge code i j) :
    Inside code j stop :=
  ⟨(hf.forward _ _ he).2, h.passed.next (Ne.symm hne) he⟩

theorem merge (h : Inside stream.code i stop) (hacc : stream.Accepted) (hne : i ≠ stop) :
    Inside stream.code (stream.mergeOf i) stop := by
  have him := hacc.mergeOf (h.lt hacc.forward hne)
  exact ⟨him.inside, (him.postDominates_iff hacc.forward).mpr ⟨h.passed, Ne.symm hne⟩⟩

end Inside

/-- Along an edge from a branch control enters an arm that stops at the merge point. -/
theorem Accepted.inside_arm (hacc : stream.Accepted) {i j : Nat} (hi : i < stream.code.length)
    (he : Edge stream.code i j) : Inside stream.code j (stream.mergeOf i) := by
  have him := hacc.mergeOf hi
  have := him.after
  exact ⟨(hacc.forward.forward _ _ he).2, him.passed.next (by omega) he⟩

theorem inside_start : Inside stream.code 0 stream.size :=
  ⟨Nat.zero_le _, postDominates_exit 0⟩

theorem Leads.inside (hacc : stream.Accepted) {c d : Config} (h : Leads stream registry c d)
    (hc : Inside stream.code c.place c.stop) : Inside stream.code d.place d.stop := by
  have hf := hacc.forward
  cases h with
  | next hne hp => exact hc.edge hf hne (hacc.edge_next hp).1
  | jump hne hp hj =>
      obtain ⟨j, hj', he⟩ := hacc.edge_jump hp
      cases hj.symm.trans hj'
      exact hc.edge hf hne he
  | taken hne hp hj =>
      obtain ⟨j, hj', he, _⟩ := hacc.edge_branch hp
      cases hj.symm.trans hj'
      exact hacc.inside_arm (hc.lt hf hne) he
  | fallthrough hne hp _ _ =>
      obtain ⟨_, _, _, he, _⟩ := hacc.edge_branch hp
      exact hacc.inside_arm (hc.lt hf hne) he
  | joined hne _ _ _ _ _ => exact hc.merge hacc hne

theorem Visits.inside (hacc : stream.Accepted) {c d : Config} (h : Visits stream registry c d)
    (hc : Inside stream.code c.place c.stop) : Inside stream.code d.place d.stop := by
  induction h with
  | refl => exact hc
  | tail _ hstep ih => exact hstep.inside hacc ih

/-! ## How arms end -/

/-- An arm that starts at an instruction returns exactly if it stops at the end. -/
theorem Follows.returned_iff (hacc : stream.Accepted) {i stop : Nat} {frame : Frame} {outcome : Outcome}
    (h : Follows stream registry i frame stop outcome) (hc : Inside stream.code i stop)
    (hi : i < stream.code.length) : (∃ value, outcome = .returned value) ↔ stop = stream.code.length := by
  have hf := hacc.forward
  induction h with
  | stopped => simp; omega
  | next hne hp _ ih =>
      obtain ⟨he, hlt⟩ := hacc.edge_next hp
      exact ih (hc.edge hf hne he) hlt
  | jump hne hp hj _ ih =>
      obtain ⟨j, hj', he⟩ := hacc.edge_jump hp
      cases hj.symm.trans hj'
      exact ih (hc.edge hf hne he) (lt_of_indexOf? hj)
  | done hne hp =>
      -- One route goes from the return to the end at once, and it passes the place to stop at.
      have := hc.passed _ (.step (hacc.edge_done hp) .exit)
      simp only [List.mem_cons, List.not_mem_nil, or_false] at this
      exact iff_of_true ⟨_, rfl⟩ (this.resolve_left (Ne.symm hne))
  | returned hne hp hj _ _ iht _ =>
      obtain ⟨j, hj', he, _⟩ := hacc.edge_branch hp
      cases hj.symm.trans hj'
      have hmerge := (iht (hacc.inside_arm hi he) (lt_of_indexOf? hj)).mp ⟨_, rfl⟩
      have := (hc.merge hacc hne).bounds hf
      exact iff_of_true ⟨_, rfl⟩ (by omega)
  | joined hne hp hj _ _ _ _ iht _ ih =>
      obtain ⟨j, hj', he, _⟩ := hacc.edge_branch hp
      cases hj.symm.trans hj'
      have hmerge := mt (iht (hacc.inside_arm hi he) (lt_of_indexOf? hj)).mpr (by simp)
      have hin := hc.merge hacc hne
      exact ih hin (Nat.lt_of_le_of_ne hin.place_le hmerge)

/-! ## Faults -/

/-- What can go wrong at a configuration: its instruction fails, or it is a branch whose arms reach the merge point
with stacks of different depths. -/
inductive Blames (stream : Stream) (registry : Registry) : Config → Fault → Prop where
  | instruction {i frame stop instruction fault} : stream.code[i]? = some instruction →
      step registry frame instruction = .error fault → Blames stream registry ⟨i, frame, stop⟩ fault
  | depths {i frame stop instruction test target frame' j a b} : stream.code[i]? = some instruction →
      step registry frame instruction = .ok (.branch test target frame') →
      indexOf? stream.code target = some j →
      Follows stream registry j frame' (stream.mergeOf i) (.reached a) →
      Follows stream registry (i + 1) frame' (stream.mergeOf i) (.reached b) → a.depth ≠ b.depth →
      Blames stream registry ⟨i, frame, stop⟩ (.located instruction.offset (.stackDepths a.depth b.depth))

/-- A fault bears the offset of an instruction of the stream, and does not concern the way through the stream. -/
theorem Blames.offset {c : Config} {fault : Fault} (h : Blames stream registry c fault) :
    (∃ instruction ∈ stream.code, fault.offset = some instruction.offset) ∧ ¬ fault.cause.OfControl := by
  cases h with
  | instruction hi hs =>
      obtain ⟨hoff, hcause⟩ := step_eq_error hs
      exact ⟨⟨_, List.mem_of_getElem? hi, hoff⟩, hcause⟩
  | depths hi _ _ _ _ _ => exact ⟨⟨_, List.mem_of_getElem? hi, rfl⟩, id⟩

theorem visit_eq_error {start stop : Nat} {frame : Frame} {follow : Memory → Except Fault (Outcome × Memory)}
    {memory : Memory} {fault : Fault} (h : visit start stop frame follow memory = .error fault) :
    follow memory = .error fault := by
  unfold visit at h
  split at h
  · cases h
  · rcases bind_eq_error_iff.mp h with h | ⟨_, _, h⟩
    · exact h
    · exact absurd h pure_ne_error

theorem frame_join_eq_error {test : Symbolic} {a b : Frame} {cause : Cause} (h : Frame.join test a b = .error cause) :
    a.depth ≠ b.depth ∧ cause = .stackDepths a.depth b.depth := by
  unfold Frame.join at h
  split at h
  · cases h
  · cases h
    exact ⟨by assumption, rfl⟩

/-- Arms of one branch end alike, so joining them can only fail over the depths of their stacks. -/
theorem outcome_join_eq_error (hacc : stream.Accepted) {i j : Nat} {frame : Frame} {test : Symbolic}
    {taken fallthrough : Outcome} {cause : Cause} (hi : i + 1 < stream.code.length)
    (hj : j < stream.code.length) (hej : Edge stream.code i j) (hei : Edge stream.code i (i + 1))
    (ht : Follows stream registry j frame (stream.mergeOf i) taken)
    (hf : Follows stream registry (i + 1) frame (stream.mergeOf i) fallthrough)
    (h : Outcome.join test taken fallthrough = .error cause) :
    ∃ a b, taken = .reached a ∧ fallthrough = .reached b ∧ a.depth ≠ b.depth ∧
      cause = .stackDepths a.depth b.depth := by
  have hlt : i < stream.code.length := by omega
  have halike : (∃ value, taken = .returned value) ↔ ∃ value, fallthrough = .returned value :=
    (ht.returned_iff hacc (hacc.inside_arm hlt hej) hj).trans
      (hf.returned_iff hacc (hacc.inside_arm hlt hei) hi).symm
  cases taken with
  | returned a =>
      obtain ⟨b, rfl⟩ := halike.mp ⟨a, rfl⟩
      cases h
  | reached a =>
      cases fallthrough with
      | returned b =>
          obtain ⟨_, hr⟩ := halike.mpr ⟨b, rfl⟩
          cases hr
      | reached b =>
          rcases bind_eq_error_iff.mp h with h | ⟨_, _, h⟩
          · obtain ⟨hne, rfl⟩ := frame_join_eq_error h
            exact ⟨a, b, rfl, rfl, hne, rfl⟩
          · exact absurd h pure_ne_error

/-- A walk with enough steps fails only where something goes wrong at a configuration that it meets. -/
theorem recallWalk_eq_error (hacc : stream.Accepted) {steps i : Nat} {frame : Frame} {stop : Nat} {memory : Memory}
    {fault : Fault} (hm : memory.Sound stream registry) (hc : Inside stream.code i stop)
    (hsteps : stop - i ≤ steps) (h : recallWalk stream registry steps i frame stop memory = .error fault) :
    ∃ c, Visits stream registry ⟨i, frame, stop⟩ c ∧ Blames stream registry c fault := by
  have hf := hacc.forward
  induction steps generalizing i frame stop memory with
  | zero =>
      have := hc.bounds hf
      obtain rfl : i = stop := by omega
      rw [recallWalk_stop] at h
      cases h
  | succ steps ih =>
      by_cases hne : i = stop
      · subst hne
        rw [recallWalk_stop] at h
        cases h
      have hlt := hc.lt hf hne
      have hi := List.getElem?_eq_getElem hlt
      rw [recallWalk_succ hne hi] at h
      rcases bind_eq_error_iff.mp h with hs | ⟨effect, hs, h⟩
      · exact ⟨_, .refl _, .instruction hi hs⟩
      have hperf : Performs stream registry i frame effect := ⟨_, hi, hs⟩
      cases effect with
      | next frame' =>
          obtain ⟨he, _⟩ := hacc.edge_next hperf
          obtain ⟨c, hv, hb⟩ := ih hm (hc.edge hf hne he) (by omega) h
          exact ⟨c, hv.head (.next hne hperf), hb⟩
      | jump target frame' =>
          obtain ⟨j, hj, he⟩ := hacc.edge_jump hperf
          have := hf.forward _ _ he
          simp only [indexOf_eq_ok_iff.mpr hj, ok_bind] at h
          obtain ⟨c, hv, hb⟩ := ih hm (hc.edge hf hne he) (by omega) h
          exact ⟨c, hv.head (.jump hne hperf hj), hb⟩
      | done value => exact absurd h pure_ne_error
      | branch test target frame' =>
          obtain ⟨j, hj, hej, hei, hlt'⟩ := hacc.edge_branch hperf
          -- Both arms and the way on from the merge point are shorter than the way to `stop`: the steps are enough.
          have hfj := hf.forward _ _ hej
          have hmerge := hc.merge hacc hne
          have hmb := hmerge.bounds hf
          have hafter := (hacc.mergeOf hlt).after
          have harm := hacc.inside_arm hlt hej
          have harm' := hacc.inside_arm hlt hei
          simp only [recallBranch, indexOf_eq_ok_iff.mpr hj, ok_bind] at h
          rcases bind_eq_error_iff.mp h with h | ⟨⟨taken, m₁⟩, htaken, h⟩
          · obtain ⟨c, hv, hb⟩ := ih hm harm (by omega) (visit_eq_error h)
            exact ⟨c, hv.head (.taken hne hperf hj), hb⟩
          obtain ⟨hft, hm₁⟩ := visit_follows hm (fun _ _ => recallWalk_follows hm) htaken
          rcases bind_eq_error_iff.mp h with h | ⟨⟨fallthrough, m₂⟩, hfall, h⟩
          · obtain ⟨c, hv, hb⟩ := ih hm₁ harm' (by omega) (visit_eq_error h)
            exact ⟨c, hv.head (.fallthrough hne hperf hj hft), hb⟩
          obtain ⟨hff, hm₂⟩ := visit_follows hm₁ (fun _ _ => recallWalk_follows hm₁) hfall
          rcases bind_eq_error_iff.mp h with h | ⟨joined, hjoin, h⟩
          · obtain ⟨cause, hjoin, rfl⟩ := mapError_eq_error_iff.mp h
            obtain ⟨a, b, rfl, rfl, hdepth, rfl⟩ :=
              outcome_join_eq_error hacc hlt' (lt_of_indexOf? hj) hej hei hft hff hjoin
            exact ⟨_, .refl _, .depths hi hs hj hft hff hdepth⟩
          · rcases Outcome.join_eq_ok (mapError_eq_ok_iff.mp hjoin) with
              ⟨a, b, rfl, rfl, rfl⟩ | ⟨a, b, frame'', rfl, rfl, hab, rfl⟩
            · exact absurd h pure_ne_error
            · obtain ⟨c, hv, hb⟩ := ih hm₂ hmerge (by omega) h
              exact ⟨c, hv.head (.joined hne hperf hj hft hff hab), hb⟩

/-! ## Enough steps -/

/-- As many steps as there are places up to the place to stop at are enough: more do not change the walk. -/
theorem recallWalk_steps (hacc : stream.Accepted) {steps steps' i : Nat} {frame : Frame} {stop : Nat}
    {memory : Memory} (hc : Inside stream.code i stop) (hsteps : stop - i ≤ steps) (hsteps' : stop - i ≤ steps') :
    recallWalk stream registry steps i frame stop memory = recallWalk stream registry steps' i frame stop memory := by
  have hf := hacc.forward
  induction steps generalizing steps' i frame stop memory with
  | zero =>
      have := hc.bounds hf
      obtain rfl : i = stop := by omega
      rw [recallWalk_stop, recallWalk_stop]
  | succ steps ih =>
      by_cases hne : i = stop
      · subst hne
        rw [recallWalk_stop, recallWalk_stop]
      have hlt := hc.lt hf hne
      have hi := List.getElem?_eq_getElem hlt
      have hle := hc.bounds hf
      obtain ⟨steps', rfl⟩ : ∃ n, steps' = n + 1 := ⟨steps' - 1, by omega⟩
      rw [recallWalk_succ hne hi, recallWalk_succ hne hi]
      cases hs : step registry frame stream.code[i] with
      | error fault => rfl
      | ok effect =>
          have hperf : Performs stream registry i frame effect := ⟨_, hi, hs⟩
          simp only [ok_bind]
          cases effect with
          | next frame' =>
              obtain ⟨he, _⟩ := hacc.edge_next hperf
              exact ih (hc.edge hf hne he) (by omega) (by omega)
          | jump target frame' =>
              obtain ⟨j, hj, he⟩ := hacc.edge_jump hperf
              have := hf.forward _ _ he
              simp only [indexOf_eq_ok_iff.mpr hj, ok_bind]
              exact ih (hc.edge hf hne he) (by omega) (by omega)
          | done value => rfl
          | branch test target frame' =>
              obtain ⟨j, hj, hej, hei, _⟩ := hacc.edge_branch hperf
              have hfj := hf.forward _ _ hej
              have hmerge := hc.merge hacc hne
              have hmb := hmerge.bounds hf
              have hafter := (hacc.mergeOf hlt).after
              have htaken : recallWalk stream registry steps j frame' (stream.mergeOf i) =
                  recallWalk stream registry steps' j frame' (stream.mergeOf i) :=
                funext fun _ => ih (hacc.inside_arm hlt hej) (by omega) (by omega)
              have hfall : recallWalk stream registry steps (i + 1) frame' (stream.mergeOf i) =
                  recallWalk stream registry steps' (i + 1) frame' (stream.mergeOf i) :=
                funext fun _ => ih (hacc.inside_arm hlt hei) (by omega) (by omega)
              have hrest : ∀ frame'' memory', recallWalk stream registry steps (stream.mergeOf i) frame'' stop memory' =
                  recallWalk stream registry steps' (stream.mergeOf i) frame'' stop memory' :=
                fun _ _ => ih hmerge (by omega) (by omega)
              simp only [recallBranch, indexOf_eq_ok_iff.mpr hj, ok_bind, htaken, hfall, hrest]

/-! ## Safety of reconstruction -/

theorem reconstruct_eq_error (hacc : stream.Accepted) (hne : stream.code ≠ []) {frame : Frame} {fault : Fault}
    (h : stream.reconstruct registry frame = .error fault) :
    ∃ c, Visits stream registry ⟨0, frame, stream.size⟩ c ∧ Blames stream registry c fault := by
  rcases bind_eq_error_iff.mp h with h | ⟨⟨outcome, memory⟩, hwalk, h⟩
  · exact recallWalk_eq_error hacc Memory.sound_nil inside_start (by omega) h
  · obtain ⟨value, rfl⟩ := ((recallWalk_follows Memory.sound_nil hwalk).1.returned_iff hacc inside_start
      (List.length_pos_of_ne_nil hne)).mpr rfl
    cases h

/-- Reconstruction from an accepted, non-empty list is safe. It ends within as many steps as there are instructions:
more make no difference. Control stays inside of every arm: it is never past the place where the arm stops. If there
is a fault, it comes from an instruction that was reached, or from arms of a branch that meet with stacks of different
depths; it bears the offset of an instruction of the list, and is none of the faults of control. -/
theorem reconstruct_safe {code : List Instruction} (h : ofList code = .ok stream) (hne : code ≠ [])
    (registry : Registry) (frame : Frame) :
    (∀ steps, code.length ≤ steps →
      (do returnedValue (← recallWalk stream registry steps 0 frame stream.size []).1) =
        stream.reconstruct registry frame) ∧
    (∀ c, Visits stream registry ⟨0, frame, stream.size⟩ c → c.place ≤ c.stop ∧ c.stop ≤ code.length) ∧
    ∀ fault, stream.reconstruct registry frame = .error fault →
      (∃ c, Visits stream registry ⟨0, frame, stream.size⟩ c ∧ Blames stream registry c fault) ∧
      (∃ instruction ∈ code, fault.offset = some instruction.offset) ∧
      fault.cause ≠ .leftBody ∧ fault.cause ≠ .noValue ∧ fault.cause ≠ .mixedArms ∧
      ∀ target, fault.cause ≠ .missingTarget target := by
  obtain ⟨hacc, rfl⟩ := accepted_of_ofList h
  refine ⟨?_, ?_, ?_⟩
  · intro steps hsteps
    have hsize : stream.size = stream.code.length := rfl
    have hwalk : recallWalk stream registry steps 0 frame stream.size [] =
        recallWalk stream registry stream.size 0 frame stream.size [] :=
      recallWalk_steps hacc inside_start (by omega) (by omega)
    rw [hwalk]
    rfl
  · intro c hc
    exact (hc.inside hacc inside_start).bounds hacc.forward
  · intro fault hfault
    obtain ⟨c, hv, hb⟩ := reconstruct_eq_error hacc hne hfault
    obtain ⟨hoff, hcause⟩ := hb.offset
    refine ⟨⟨c, hv, hb⟩, hoff, ?_, ?_, ?_, ?_⟩
    · intro he
      exact hcause (he ▸ trivial)
    · intro he
      exact hcause (he ▸ trivial)
    · intro he
      exact hcause (he ▸ trivial)
    · intro target he
      exact hcause (he ▸ trivial)

/-- Code in which one arm of a branch leaves a value on the stack and the other does not. -/
def unbalanced : List Instruction := [
  ⟨0, .push (.bool true)⟩,
  ⟨1, .branch (.zero .ne) 5⟩,
  ⟨4, .push (.int 7)⟩,
  ⟨5, .push (.int 1)⟩,
  ⟨6, .ret (some .int)⟩]

/-- The arms of the branch in `unbalanced` meet with different depths, and the branch is blamed for it. -/
theorem reconstruct_safe_unbalanced :
    ∃ stream, ofList unbalanced = .ok stream ∧ unbalanced ≠ [] ∧
      stream.reconstruct .builtin {} = .error (.located 1 (.stackDepths 0 1)) ∧
      ∃ c, Visits stream .builtin ⟨0, {}, stream.size⟩ c ∧ c.place ≤ c.stop ∧
        Blames stream .builtin c (.located 1 (.stackDepths 0 1)) := by
  have h : ofList unbalanced = .ok ⟨unbalanced, [1, 3, 3, 4, 5, 5]⟩ := rfl
  have hfault : Stream.reconstruct ⟨unbalanced, [1, 3, 3, 4, 5, 5]⟩ .builtin {} =
      .error (.located 1 (.stackDepths 0 1)) := rfl
  obtain ⟨_, hinside, hfaults⟩ := reconstruct_safe h (by decide) .builtin {}
  obtain ⟨⟨c, hv, hb⟩, _⟩ := hfaults _ hfault
  exact ⟨_, h, by decide, hfault, c, hv, (hinside c hv).1, hb⟩

end PredicateLift.Stream
