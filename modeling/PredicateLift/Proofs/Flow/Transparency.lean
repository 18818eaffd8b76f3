import PredicateLift.Proofs.Flow.Insertion
import PredicateLift.Proofs.Flow.Recalling

/-!
# Transparent instructions

Boxing, casts and empty instructions leave the frame as it is. Where one of them is inserted, following the new code takes
one more step on the ways that enter the new place, and otherwise goes the corresponding way: each instruction acts as
before, with its targets renamed, and each branch merges where it did. So the same value is reconstructed, or the same
fault of the instruction at its new offset.
-/

namespace PredicateLift

/-- The operation leaves the frame as it is. -/
def Operation.Transparent : Operation → Prop
  | .nop => True
  | .box _ => True
  | .checkCast _ => True
  | _ => False

def Effect.retarget (rename : Offset → Offset) : Effect → Effect
  | .jump target frame => .jump (rename target) frame
  | .branch test target frame => .branch test (rename target) frame
  | effect => effect

/-- The same fault of an instruction at another offset. -/
def Fault.renumber (rename : Offset → Offset) (fault : Fault) : Fault :=
  { fault with offset := fault.offset.map rename }

variable {registry : Registry} {frame : Frame}

/-! ## Instructions -/

theorem Operation.Transparent.plain {op : Operation} (h : op.Transparent) : op.Plain := by
  cases op with
  | branch _ _ | jump _ | ret _ => exact h
  | _ => trivial

theorem Operation.Transparent.run {op : Operation} (h : op.Transparent) :
    op.run registry frame = .ok (.next frame) := by
  cases op with
  | nop | box _ | checkCast _ => rfl
  | _ => exact h.elim

theorem Operation.run_retarget (op : Operation) (rename : Offset → Offset) :
    (op.retarget rename).run registry frame = (op.run registry frame).map (Effect.retarget rename) := by
  rcases op.control_cases with ⟨kind, rfl⟩ | ⟨target, rfl⟩ | ⟨condition, target, rfl⟩ | hplain
  · cases kind with
    | none => rfl
    | some _ =>
        simp only [Operation.retarget, Operation.run]
        cases frame.pop <;> rfl
  · rfl
  · simp only [Operation.retarget, Operation.run]
    cases condition.test frame <;> rfl
  · rw [hplain.retarget_eq]
    cases hrun : op.run registry frame with
    | error cause => rfl
    | ok effect =>
        rcases Operation.run_cases hrun with ⟨_, rfl, _⟩ | ⟨_, rfl, _⟩ | ⟨_, _, _, _, rfl, _⟩ | ⟨_, _, _, rfl, _⟩
        · rfl
        all_goals exact hplain.elim

theorem step_retarget (instruction : Instruction) (rename : Offset → Offset) :
    step registry frame ⟨rename instruction.offset, instruction.op.retarget rename⟩ =
      ((step registry frame instruction).map (Effect.retarget rename)).mapError (Fault.renumber rename) := by
  rw [step, step, Operation.run_retarget]
  cases instruction.op.run registry frame <;> rfl

namespace Stream

/-! ## Following the new code -/

namespace Insertion

variable {stream stream' : Stream} {p i : Nat} {op : Operation} {offset : Nat → Offset}
  (h : Insertion stream.code p op offset) (hs' : ofList (inserted stream.code p op offset) = .ok stream')

include h hs'

theorem code_new : stream'.code[p]? = some ⟨offset p, op⟩ := by
  rw [(accepted_of_ofList hs').2, inserted]
  exact getElem?_placed h.getElem?_ops

theorem code_moved {instruction : Instruction} (hi : stream.code[i]? = some instruction) :
    stream'.code[moved p i]? = some ⟨renumbered stream.code p offset instruction.offset,
      instruction.op.retarget (renumbered stream.code p offset)⟩ := by
  rw [renumbered_eq (indexOf?_of_pairwise h.ordered hi), (accepted_of_ofList hs').2, inserted]
  refine getElem?_placed ?_
  rw [getElem?_insertedOps_moved, hi, Option.map_some]

theorem indexOf?_moved {target : Offset} {j : Nat} (hj : indexOf? stream.code target = some j) :
    indexOf? stream'.code (renumbered stream.code p offset target) = some (moved p j) := by
  rw [renumbered_eq hj, (accepted_of_ofList hs').2, inserted]
  refine indexOf?_placed h.increasing_ops ?_
  have := h.moved_lt_length_iff.mpr (lt_of_indexOf? hj)
  rwa [inserted, length_placed] at this

theorem performs_moved {effect : Effect} (hp : Performs stream registry i frame effect) :
    Performs stream' registry (moved p i) frame (effect.retarget (renumbered stream.code p offset)) := by
  obtain ⟨instruction, hi, hs⟩ := hp
  refine ⟨_, h.code_moved hs' hi, ?_⟩
  rw [step_retarget, hs]
  rfl

theorem mergeOf_branch (hacc : stream.Accepted) {test : Symbolic} {target : Offset} {frame' : Frame}
    (hp : Performs stream registry i frame (.branch test target frame')) :
    stream'.mergeOf (moved p i) = moved p (stream.mergeOf i) := by
  obtain ⟨hacc', hcode'⟩ := accepted_of_ofList hs'
  obtain ⟨j, hj, _⟩ := hacc.edge_branch hp
  obtain ⟨j', hj', he, _⟩ := hacc'.edge_branch (h.performs_moved hs' hp)
  cases (h.indexOf?_moved hs' hj).symm.trans hj'
  rw [hcode'] at he
  exact h.mergeOf_moved hacc hs' he

/-- What is the outcome of following from the place to which an old one moved is the outcome from each place that leads
there. -/
theorem walk_leadsTo (hop : op.Transparent) {k stop : Nat} {result : Except Fault Outcome}
    (hle : i ≤ stop) (hk : LeadsTo p i k)
    (hmoved : ∀ steps, moved p stop - moved p i ≤ steps →
      walk stream' registry steps (moved p i) frame (moved p stop) = result)
    {steps : Nat} (hsteps : moved p stop - k ≤ steps) :
    walk stream' registry steps k frame (moved p stop) = result := by
  rcases hk with rfl | ⟨rfl, rfl⟩
  · exact hmoved steps hsteps
  · rw [moved_of_le (Nat.le_refl _), moved_of_le hle] at hmoved
    rw [moved_of_le hle] at hsteps ⊢
    obtain ⟨steps, rfl⟩ : ∃ n, steps = n + 1 := ⟨steps - 1, by omega⟩
    rw [walk_succ (by omega) (h.code_new hs'), step, hop.run]
    exact hmoved steps (by omega)

/-- Following the new code between places of the old code has the outcome that it had, or fails with the same fault of
the instruction at its new offset. -/
theorem walk_moved (hop : op.Transparent) (hacc : stream.Accepted) {steps steps' stop : Nat}
    (hc : Inside stream.code i stop) (hsteps : stop - i ≤ steps)
    (hsteps' : moved p stop - moved p i ≤ steps') :
    walk stream' registry steps' (moved p i) frame (moved p stop) =
      (walk stream registry steps i frame stop).mapError (Fault.renumber (renumbered stream.code p offset)) := by
  induction steps generalizing steps' i frame stop with
  | zero =>
      have := hc.bounds hacc.forward
      obtain rfl : i = stop := by omega
      rw [walk_stop, walk_stop]
      rfl
  | succ steps ih =>
      by_cases hne : i = stop
      · subst hne
        rw [walk_stop, walk_stop]
        rfl
      have hbounds := hc.bounds hacc.forward
      have hi := List.getElem?_eq_getElem (hc.lt hacc.forward hne)
      have hleft : stop - (i + 1) ≤ steps := by omega
      have hlt : moved p i < moved p stop := moved_lt_iff.mpr (by omega)
      obtain ⟨steps', rfl⟩ : ∃ n, steps' = n + 1 := ⟨steps' - 1, by omega⟩
      rw [walk_succ (Nat.ne_of_lt hlt) (h.code_moved hs' hi), walk_succ hne hi, step_retarget, mapError_bind]
      cases hs : step registry frame stream.code[i] with
      | error fault => rfl
      | ok effect =>
          have hp : Performs stream registry i frame effect := ⟨_, hi, hs⟩
          cases effect with
          | next frame' =>
              obtain ⟨hin, hleft⟩ := hc.along hacc hne (hacc.edge_next hp).1 hleft
              exact h.walk_leadsTo hs' hop (hin.bounds hacc.forward).1 lands_next.1
                (fun _ hsteps => ih hin hleft hsteps) (by omega)
          | jump target frame' =>
              obtain ⟨j, hj, he⟩ := hacc.edge_jump hp
              obtain ⟨hin, hleft⟩ := hc.along hacc hne he hleft
              have hij : moved p i < moved p j := moved_lt_iff.mpr (hacc.forward.forward _ _ he).1
              simp only [Except.map, mapError_ok, ok_bind, Effect.retarget, indexOf_eq_ok_iff.mpr hj,
                indexOf_eq_ok_iff.mpr (h.indexOf?_moved hs' hj)]
              exact ih hin hleft (by omega)
          | done value => rfl
          | branch test target frame' =>
              obtain ⟨j, hj, hej, hei, _⟩ := hacc.edge_branch hp
              obtain ⟨hin, hsteps₁⟩ := hc.arm hacc hne hej hleft
              obtain ⟨hin', hsteps₂⟩ := hc.arm hacc hne hei hleft
              obtain ⟨hrest, hsteps₃⟩ := hc.rest hacc hne hleft
              have hij : moved p i < moved p j := moved_lt_iff.mpr (hacc.forward.forward _ _ hej).1
              have him : moved p i < moved p (stream.mergeOf i) :=
                moved_lt_iff.mpr (hacc.mergeOf (hc.lt hacc.forward hne)).after
              have hms : moved p (stream.mergeOf i) ≤ moved p stop := moved_le_iff.mpr (hrest.bounds hacc.forward).1
              have htaken : walk stream' registry steps' (moved p j) frame' (moved p (stream.mergeOf i)) = _ :=
                ih hin hsteps₁ (by omega)
              have hfall : walk stream' registry steps' (moved p i + 1) frame' (moved p (stream.mergeOf i)) = _ :=
                h.walk_leadsTo hs' hop (hin'.bounds hacc.forward).1 lands_next.1
                  (fun _ hsteps => ih hin' hsteps₂ hsteps) (by omega)
              simp only [Except.map, mapError_ok, ok_bind, Effect.retarget, walkBranch, indexOf_eq_ok_iff.mpr hj,
                indexOf_eq_ok_iff.mpr (h.indexOf?_moved hs' hj), h.mergeOf_branch hs' hacc hp, htaken, hfall,
                mapError_bind]
              refine bind_congr fun taken => bind_congr fun fallthrough => ?_
              cases Outcome.join test taken fallthrough with
              | error cause => rfl
              | ok joined =>
                  cases joined with
                  | returned value => rfl
                  | reached joined => exact ih hrest hsteps₃ (by omega)

theorem reconstruct_eq (hop : op.Transparent) (hacc : stream.Accepted) (registry : Registry) (frame : Frame) :
    stream'.reconstruct registry frame =
      (stream.reconstruct registry frame).mapError (Fault.renumber (renumbered stream.code p offset)) := by
  obtain ⟨hacc', hcode'⟩ := accepted_of_ofList hs'
  have hsize : stream'.size = moved p stream.size := by
    rw [size, hcode', ← h.moved_end, size]
  have hstart : LeadsTo p 0 0 := by
    cases p with
    | zero => exact .inr ⟨rfl, rfl⟩
    | succ p => exact .inl (moved_of_lt (Nat.succ_pos p)).symm
  have hwalk : walk stream' registry stream'.size 0 frame stream'.size =
      (walk stream registry stream.size 0 frame stream.size).mapError
        (Fault.renumber (renumbered stream.code p offset)) := by
    rw [hsize]
    exact h.walk_leadsTo hs' hop (Nat.zero_le _) hstart
      (fun _ hsteps => h.walk_moved hs' hop hacc inside_start (Nat.sub_le _ _) hsteps) (Nat.sub_le _ _)
  rw [hacc'.reconstruct_eq, hacc.reconstruct_eq, hwalk, mapError_bind]
  refine bind_congr fun outcome => ?_
  cases outcome <;> rfl

end Insertion

/-- A transparent operation can be inserted before any instruction of an accepted list, with any increasing offsets for
the new list. The new list is accepted, and the same value is reconstructed from it. If there is a fault, it is the same
fault of the same instruction, at the new offset of that. -/
theorem reconstruct_inserted {code : List Instruction} {stream : Stream} (hcode : ofList code = .ok stream) {p : Nat}
    (hp : p < code.length) {op : Operation} (hop : op.Transparent) {offset : Nat → Offset}
    (hoffset : Increasing offset (code.length + 1)) (registry : Registry) (frame : Frame) :
    ∃ stream', ofList (inserted code p op offset) = .ok stream' ∧
      (∀ value, stream'.reconstruct registry frame = .ok value ↔ stream.reconstruct registry frame = .ok value) ∧
      ∀ fault, stream.reconstruct registry frame = .error fault →
        ∃ i instruction, code[i]? = some instruction ∧ fault.offset = some instruction.offset ∧
          stream'.reconstruct registry frame = .error (.located (offset (moved p i)) fault.cause) := by
  obtain ⟨hacc, rfl⟩ := accepted_of_ofList hcode
  have h : Insertion stream.code p op offset := ⟨⟨stream, hcode⟩, hp, hop.plain, hoffset⟩
  obtain ⟨stream', hs'⟩ := h.exists_stream
  have heq := h.reconstruct_eq hs' hop hacc registry frame
  refine ⟨stream', hs', fun value => by rw [heq, mapError_eq_ok_iff], fun fault hfault => ?_⟩
  obtain ⟨c, _, hblames⟩ := reconstruct_eq_error hacc (List.ne_nil_of_length_pos (by omega)) hfault
  obtain ⟨⟨instruction, hmem, hinstr⟩, _⟩ := hblames.offset
  obtain ⟨i, hi⟩ := List.mem_iff_getElem?.mp hmem
  refine ⟨i, instruction, hi, hinstr, ?_⟩
  rw [heq, hfault]
  simp only [Except.mapError, Fault.renumber, hinstr, Option.map_some,
    renumbered_eq (indexOf?_of_pairwise h.ordered hi), Fault.located]

/-- A cast before the block for `true` of `disjunction`, which is entered from above and by a branch, and an empty
instruction before the place where the arms of `unbalanced` meet. -/
theorem reconstruct_inserted_disjunction :
    (∃ stream, ofList (inserted disjunction 6 (.checkCast "a/Item") (fun k => .ofNat (2 * k))) = .ok stream ∧
      stream.reconstruct .builtin ⟨[], ⟨[(0, .var 0)]⟩⟩ =
        .ok (.logical .or (.field (.var 0) ⟨"a/Item", "sold", "Z"⟩)
          (.not (.not (.field (.var 0) ⟨"a/Item", "lost", "Z"⟩))))) ∧
    ∃ stream, ofList (inserted unbalanced 3 .nop (fun k => .ofNat (2 * k))) = .ok stream ∧
      stream.reconstruct .builtin {} = .error (.located 2 (.stackDepths 0 1)) := by
  have hoffset : ∀ size, size ≤ 12 → Increasing (fun k => .ofNat (2 * k)) size := by
    intro size hsize i j hij hj
    have hroom : 24 < UInt32.size := by decide
    rw [UInt32.lt_iff_toNat_lt, UInt32.toNat_ofNat_of_lt' (by omega), UInt32.toNat_ofNat_of_lt' (by omega)]
    omega
  constructor
  · have h : ofList disjunction = .ok ⟨disjunction, [1, 2, 9, 4, 5, 9, 7, 9, 9, 10, 10]⟩ := rfl
    have hplace : 6 < disjunction.length := by decide
    have hop : (Operation.checkCast "a/Item").Transparent := trivial
    obtain ⟨stream, hs, hvalue, _⟩ := reconstruct_inserted h hplace hop (hoffset _ (by decide)) .builtin
      ⟨[], ⟨[(0, .var 0)]⟩⟩
    exact ⟨stream, hs, (hvalue _).mpr rfl⟩
  · have h : ofList unbalanced = .ok ⟨unbalanced, [1, 3, 3, 4, 5, 5]⟩ := rfl
    have hplace : 3 < unbalanced.length := by decide
    have hop : Operation.nop.Transparent := trivial
    obtain ⟨stream, hs, _, hfault⟩ := reconstruct_inserted h hplace hop (hoffset _ (by decide)) .builtin {}
    obtain ⟨i, instruction, hi, hinstr, hfault⟩ := hfault (.located 1 (.stackDepths 0 1)) rfl
    have hbranch : ∀ i, (hi : i < unbalanced.length) → unbalanced[i].offset = 1 → i = 1 := by decide
    obtain ⟨hlt, rfl⟩ := List.getElem?_eq_some_iff.mp hi
    cases hbranch i hlt (Option.some.inj hinstr).symm
    exact ⟨stream, hs, hfault⟩

end Stream

end PredicateLift
