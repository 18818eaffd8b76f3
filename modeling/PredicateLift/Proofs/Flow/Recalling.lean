import PredicateLift.Proofs.Flow.Safety

/-!
# Remembered arms make no difference

`recallWalk` recalls how an arm ended where `walk` follows it again. Every remembered arm ended as following it ends,
and `walk` comes to that end too, so the two walks have the same outcome or fail with the same fault.
-/

namespace PredicateLift.Stream

variable {stream : Stream} {registry : Registry}

/-! ## One step of the walk without memory -/

theorem walk_stop {steps : Nat} {frame : Frame} {stop : Nat} :
    walk stream registry steps stop frame stop = .ok (.reached frame) := by
  unfold walk
  exact if_pos rfl

theorem walk_zero {i : Nat} {frame : Frame} {stop : Nat} (hne : i ≠ stop) :
    walk stream registry 0 i frame stop = .error (.structural .leftBody) := by
  unfold walk
  rw [if_neg hne]

theorem walk_outside {steps i : Nat} {frame : Frame} {stop : Nat} (hne : i ≠ stop) (hi : stream.code[i]? = none) :
    walk stream registry steps i frame stop = .error (.structural .leftBody) := by
  unfold walk
  rw [if_neg hne]
  split
  · simp_all
  · rfl

/-- The walk from a branch, with both arms followed. -/
def walkBranch (stream : Stream) (registry : Registry) (steps i : Nat) (offset : Offset) (stop : Nat)
    (test : Symbolic) (target : Offset) (frame : Frame) : Except Fault Outcome := do
  let merge := stream.mergeOf i
  let j ← indexOf stream.code offset target
  let taken ← walk stream registry steps j frame merge
  let fallthrough ← walk stream registry steps (i + 1) frame merge
  match ← (Outcome.join test taken fallthrough).mapError (Fault.located offset) with
  | .returned value => return .returned value
  | .reached frame => walk stream registry steps merge frame stop

theorem walk_succ {steps i : Nat} {frame : Frame} {stop : Nat} {instruction : Instruction} (hne : i ≠ stop)
    (hi : stream.code[i]? = some instruction) :
    walk stream registry (steps + 1) i frame stop = (do
      match ← step registry frame instruction with
      | .next frame => walk stream registry steps (i + 1) frame stop
      | .jump target frame =>
        let j ← indexOf stream.code instruction.offset target
        walk stream registry steps j frame stop
      | .done value => return .returned value
      | .branch test target frame =>
        walkBranch stream registry steps i instruction.offset stop test target frame) := by
  conv => lhs; unfold walk
  rw [if_neg hne, hi]
  rfl

/-! ## Steps that are left -/

namespace Inside

variable {i j stop steps : Nat}

theorem exists_succ (h : Inside stream.code i stop) (hacc : stream.Accepted) (hne : i ≠ stop)
    (hsteps : stop - i ≤ steps) : ∃ n, steps = n + 1 ∧ stop - (i + 1) ≤ n := by
  have := h.bounds hacc.forward
  exact ⟨steps - 1, by omega, by omega⟩

/-- The steps that are left after an edge are enough from there. -/
theorem along (h : Inside stream.code i stop) (hacc : stream.Accepted) (hne : i ≠ stop)
    (he : Edge stream.code i j) (hsteps : stop - (i + 1) ≤ steps) : Inside stream.code j stop ∧ stop - j ≤ steps := by
  have := hacc.forward.forward _ _ he
  exact ⟨h.edge hacc.forward hne he, by omega⟩

/-- The steps that are left at a branch are enough for each of its arms. -/
theorem arm (h : Inside stream.code i stop) (hacc : stream.Accepted) (hne : i ≠ stop) (he : Edge stream.code i j)
    (hsteps : stop - (i + 1) ≤ steps) :
    Inside stream.code j (stream.mergeOf i) ∧ stream.mergeOf i - j ≤ steps := by
  have := hacc.forward.forward _ _ he
  have := (h.merge hacc hne).bounds hacc.forward
  exact ⟨hacc.inside_arm (h.lt hacc.forward hne) he, by omega⟩

/-- The steps that are left at a branch are enough for the way on from its merge point. -/
theorem rest (h : Inside stream.code i stop) (hacc : stream.Accepted) (hne : i ≠ stop)
    (hsteps : stop - (i + 1) ≤ steps) :
    Inside stream.code (stream.mergeOf i) stop ∧ stop - stream.mergeOf i ≤ steps := by
  have := (hacc.mergeOf (h.lt hacc.forward hne)).after
  exact ⟨h.merge hacc hne, by omega⟩

end Inside

/-! ## The walk computes how following ends -/

/-- With as many steps as there are places up to the place to stop at, the walk comes to the end that following has. -/
theorem Follows.walk (hacc : stream.Accepted) {i : Nat} {frame : Frame} {stop : Nat} {outcome : Outcome}
    (h : Follows stream registry i frame stop outcome) (hc : Inside stream.code i stop) {steps : Nat}
    (hsteps : stop - i ≤ steps) : walk stream registry steps i frame stop = .ok outcome := by
  induction h generalizing steps with
  | stopped => exact walk_stop
  | next hne hp _ ih =>
      obtain ⟨steps, rfl, hleft⟩ := hc.exists_succ hacc hne hsteps
      obtain ⟨hin, hleft⟩ := hc.along hacc hne (hacc.edge_next hp).1 hleft
      obtain ⟨instruction, hi, hs⟩ := hp
      simp only [walk_succ hne hi, hs, ok_bind]
      exact ih hin hleft
  | jump hne hp hj _ ih =>
      obtain ⟨steps, rfl, hleft⟩ := hc.exists_succ hacc hne hsteps
      obtain ⟨_, hj', he⟩ := hacc.edge_jump hp
      cases hj.symm.trans hj'
      obtain ⟨hin, hleft⟩ := hc.along hacc hne he hleft
      obtain ⟨instruction, hi, hs⟩ := hp
      simp only [walk_succ hne hi, hs, ok_bind, indexOf_eq_ok_iff.mpr hj]
      exact ih hin hleft
  | done hne hp =>
      obtain ⟨steps, rfl, _⟩ := hc.exists_succ hacc hne hsteps
      obtain ⟨instruction, hi, hs⟩ := hp
      simp only [walk_succ hne hi, hs, ok_bind]
      rfl
  | returned hne hp hj _ _ iha ihb =>
      obtain ⟨steps, rfl, hleft⟩ := hc.exists_succ hacc hne hsteps
      obtain ⟨_, hj', hej, hei, _⟩ := hacc.edge_branch hp
      cases hj.symm.trans hj'
      obtain ⟨hin, hsteps⟩ := hc.arm hacc hne hej hleft
      obtain ⟨hin', hsteps'⟩ := hc.arm hacc hne hei hleft
      obtain ⟨instruction, hi, hs⟩ := hp
      simp only [walk_succ hne hi, hs, walkBranch, indexOf_eq_ok_iff.mpr hj, ok_bind, iha hin hsteps,
        ihb hin' hsteps']
      rfl
  | joined hne hp hj _ _ hjoin _ iha ihb ih =>
      obtain ⟨steps, rfl, hleft⟩ := hc.exists_succ hacc hne hsteps
      obtain ⟨_, hj', hej, hei, _⟩ := hacc.edge_branch hp
      cases hj.symm.trans hj'
      obtain ⟨hin, hsteps⟩ := hc.arm hacc hne hej hleft
      obtain ⟨hin', hsteps'⟩ := hc.arm hacc hne hei hleft
      obtain ⟨hrest, hleft⟩ := hc.rest hacc hne hleft
      obtain ⟨instruction, hi, hs⟩ := hp
      simp only [walk_succ hne hi, hs, walkBranch, indexOf_eq_ok_iff.mpr hj, ok_bind, iha hin hsteps,
        ihb hin' hsteps', Outcome.join, hjoin]
      exact ih hrest hleft

/-! ## Recalling an arm -/

/-- Two computations of which the first also gives a memory go on alike, if they do so from every result of it. -/
theorem map_fst_bind {x : Except Fault (Outcome × Memory)} {y : Except Fault Outcome}
    {f : Outcome × Memory → Except Fault (Outcome × Memory)} {g : Outcome → Except Fault Outcome}
    (hx : x.map Prod.fst = y)
    (hfg : ∀ outcome memory, x = .ok (outcome, memory) → (f (outcome, memory)).map Prod.fst = g outcome) :
    (x >>= f).map Prod.fst = y >>= g := by
  subst hx
  cases x with
  | error fault => rfl
  | ok result => exact hfg result.1 result.2 rfl

/-- An arm that is recalled or followed ends as a walk through it that computes how following ends. -/
theorem visit_outcome {start stop : Nat} {frame : Frame} {follow : Memory → Except Fault (Outcome × Memory)}
    {memory : Memory} {plain : Except Fault Outcome} (hm : memory.Sound stream registry)
    (hfollow : (follow memory).map Prod.fst = plain)
    (hplain : ∀ outcome, Follows stream registry start frame stop outcome → plain = .ok outcome) :
    (visit start stop frame follow memory).map Prod.fst = plain := by
  unfold visit
  split
  · rename_i outcome hfind
    exact (hplain outcome (hm.find? hfind)).symm
  · rw [← hfollow]
    cases follow memory <;> rfl

/-- With enough steps and a sound memory, the walk that recalls arms and the walk that follows them have the same
outcome or fail with the same fault. -/
theorem recallWalk_outcome (hacc : stream.Accepted) {steps i : Nat} {frame : Frame} {stop : Nat} {memory : Memory}
    (hm : memory.Sound stream registry) (hc : Inside stream.code i stop) (hsteps : stop - i ≤ steps) :
    (recallWalk stream registry steps i frame stop memory).map Prod.fst =
      walk stream registry steps i frame stop := by
  induction steps generalizing i frame stop memory with
  | zero =>
      have := hc.bounds hacc.forward
      obtain rfl : i = stop := by omega
      rw [recallWalk_stop, walk_stop]
      rfl
  | succ steps ih =>
      by_cases hne : i = stop
      · subst hne
        rw [recallWalk_stop, walk_stop]
        rfl
      have hleft : stop - (i + 1) ≤ steps := by omega
      have hlt := hc.lt hacc.forward hne
      have hi := List.getElem?_eq_getElem hlt
      rw [recallWalk_succ hne hi, walk_succ hne hi]
      cases hs : step registry frame stream.code[i] with
      | error fault => rfl
      | ok effect =>
          have hp : Performs stream registry i frame effect := ⟨_, hi, hs⟩
          simp only [ok_bind]
          cases effect with
          | next frame' =>
              obtain ⟨hin, hleft⟩ := hc.along hacc hne (hacc.edge_next hp).1 hleft
              exact ih hm hin hleft
          | jump target frame' =>
              obtain ⟨j, hj, he⟩ := hacc.edge_jump hp
              obtain ⟨hin, hleft⟩ := hc.along hacc hne he hleft
              simp only [indexOf_eq_ok_iff.mpr hj, ok_bind]
              exact ih hm hin hleft
          | done value => rfl
          | branch test target frame' =>
              obtain ⟨j, hj, hej, hei, _⟩ := hacc.edge_branch hp
              obtain ⟨hin, hleft₁⟩ := hc.arm hacc hne hej hleft
              obtain ⟨hin', hleft₂⟩ := hc.arm hacc hne hei hleft
              obtain ⟨hrest, hleft₃⟩ := hc.rest hacc hne hleft
              simp only [recallBranch, walkBranch, indexOf_eq_ok_iff.mpr hj, ok_bind]
              -- The memory that one arm leaves is sound, so the next may be recalled from it.
              refine map_fst_bind (visit_outcome hm (ih hm hin hleft₁) fun _ h => h.walk hacc hin hleft₁) ?_
              intro taken m₁ htaken
              have hm₁ := (visit_follows hm (fun _ _ => recallWalk_follows hm) htaken).2
              refine map_fst_bind (visit_outcome hm₁ (ih hm₁ hin' hleft₂) fun _ h => h.walk hacc hin' hleft₂) ?_
              intro fallthrough m₂ hfall
              have hm₂ := (visit_follows hm₁ (fun _ _ => recallWalk_follows hm₁) hfall).2
              cases (Outcome.join test taken fallthrough).mapError (Fault.located stream.code[i].offset) with
              | error fault => rfl
              | ok joined =>
                  cases joined with
                  | returned value => rfl
                  | reached frame'' => exact ih hm₂ hrest hleft₃

/-! ## Reconstruction without memory -/

theorem Accepted.reconstruct_eq (hacc : stream.Accepted) (registry : Registry) (frame : Frame) :
    stream.reconstruct registry frame =
      walk stream registry stream.size 0 frame stream.size >>= returnedValue := by
  rw [← recallWalk_outcome hacc Memory.sound_nil inside_start (Nat.sub_le _ _), reconstruct]
  cases recallWalk stream registry stream.size 0 frame stream.size [] <;> rfl

/-- What following a whole stream returns is reconstructed from it. -/
theorem reconstruct_of_follows (hacc : stream.Accepted) {frame : Frame} {value : Symbolic}
    (h : Follows stream registry 0 frame stream.size (.returned value)) :
    stream.reconstruct registry frame = .ok value := by
  rw [hacc.reconstruct_eq, h.walk hacc inside_start (Nat.sub_le _ _)]
  rfl

/-- Remembered arms do not change what is reconstructed from an accepted list: with any number of steps that is enough,
following every arm from scratch gives the same value or the same fault. -/
theorem reconstruct_eq_walk {code : List Instruction} (h : ofList code = .ok stream) (registry : Registry)
    (frame : Frame) {steps : Nat} (hsteps : code.length ≤ steps) :
    stream.reconstruct registry frame = walk stream registry steps 0 frame stream.size >>= returnedValue := by
  obtain ⟨hacc, rfl⟩ := accepted_of_ofList h
  have hsize : stream.size - 0 ≤ steps := hsteps
  rw [← recallWalk_outcome hacc Memory.sound_nil inside_start hsize, reconstruct,
    recallWalk_steps hacc inside_start (Nat.sub_le _ _) hsize]
  cases recallWalk stream registry steps 0 frame stream.size [] <;> rfl

/-- Both branches of `disjunction` go to place 6, with the same frame: it is followed once and then recalled. -/
theorem reconstruct_eq_walk_disjunction :
    ∃ stream, ofList disjunction = .ok stream ∧ disjunction.length ≤ 10 ∧
      stream.reconstruct .builtin ⟨[], ⟨[(0, .var 0)]⟩⟩ =
        walk stream .builtin 10 0 ⟨[], ⟨[(0, .var 0)]⟩⟩ stream.size >>= returnedValue ∧
      stream.reconstruct .builtin ⟨[], ⟨[(0, .var 0)]⟩⟩ =
        .ok (.logical .or (.field (.var 0) ⟨"a/Item", "sold", "Z"⟩)
          (.not (.not (.field (.var 0) ⟨"a/Item", "lost", "Z"⟩)))) := by
  have h : ofList disjunction = .ok ⟨disjunction, [1, 2, 9, 4, 5, 9, 7, 9, 9, 10, 10]⟩ := rfl
  exact ⟨_, h, by decide, reconstruct_eq_walk h .builtin _ (by decide), rfl⟩

end PredicateLift.Stream
