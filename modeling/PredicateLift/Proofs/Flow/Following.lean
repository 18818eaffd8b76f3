import PredicateLift.Flow.Walk
import PredicateLift.Proofs.Fallible
import Mathlib.Logic.Relation

/-!
# Following an arm, as a relation

`Follows` says how following a stream from one place to another ends, without a bound on the number of steps and
without remembered arms. `Visits` says which configurations are met on the way, those inside of arms included. What
`recallWalk` returns is an outcome in the sense of `Follows`, since each remembered arm is one.
-/

namespace PredicateLift

/-- Arms that are joined ended alike. -/
theorem Outcome.join_eq_ok {test : Symbolic} {taken fallthrough outcome : Outcome}
    (h : Outcome.join test taken fallthrough = .ok outcome) :
    (∃ a b, taken = .returned a ∧ fallthrough = .returned b ∧ outcome = .returned (joinValues test a b)) ∨
    ∃ a b joined, taken = .reached a ∧ fallthrough = .reached b ∧ Frame.join test a b = .ok joined ∧
      outcome = .reached joined := by
  cases taken with
  | returned a =>
      cases fallthrough with
      | returned b =>
          cases h
          exact Or.inl ⟨a, b, rfl, rfl, rfl⟩
      | reached b => cases h
  | reached a =>
      cases fallthrough with
      | returned b => cases h
      | reached b =>
          obtain ⟨joined, hj, h⟩ := bind_eq_ok_iff.mp h
          cases pure_eq_ok_iff.mp h
          exact Or.inr ⟨a, b, joined, rfl, rfl, hj, rfl⟩

namespace Stream

def mergeOf (stream : Stream) (i : Nat) : Nat :=
  (stream.mergePoint? i).getD stream.size

/-- The instruction at place `i` has the given effect on the frame. -/
def Performs (stream : Stream) (registry : Registry) (i : Nat) (frame : Frame) (effect : Effect) : Prop :=
  ∃ instruction, stream.code[i]? = some instruction ∧ step registry frame instruction = .ok effect

/-- Following the stream from a place with a frame to a place to stop at ends with the outcome. -/
inductive Follows (stream : Stream) (registry : Registry) : Nat → Frame → Nat → Outcome → Prop where
  | stopped {frame stop} : Follows stream registry stop frame stop (.reached frame)
  | next {i frame stop frame' outcome} : i ≠ stop → Performs stream registry i frame (.next frame') →
      Follows stream registry (i + 1) frame' stop outcome → Follows stream registry i frame stop outcome
  | jump {i frame stop target frame' j outcome} : i ≠ stop →
      Performs stream registry i frame (.jump target frame') → indexOf? stream.code target = some j →
      Follows stream registry j frame' stop outcome → Follows stream registry i frame stop outcome
  | done {i frame stop value} : i ≠ stop → Performs stream registry i frame (.done value) →
      Follows stream registry i frame stop (.returned value)
  /-- Both arms of a branch return. -/
  | returned {i frame stop test target frame' j a b} : i ≠ stop →
      Performs stream registry i frame (.branch test target frame') → indexOf? stream.code target = some j →
      Follows stream registry j frame' (stream.mergeOf i) (.returned a) →
      Follows stream registry (i + 1) frame' (stream.mergeOf i) (.returned b) →
      Follows stream registry i frame stop (.returned (joinValues test a b))
  /-- Both arms of a branch reach its merge point, and control goes on from there. -/
  | joined {i frame stop test target frame' j a b joined outcome} : i ≠ stop →
      Performs stream registry i frame (.branch test target frame') → indexOf? stream.code target = some j →
      Follows stream registry j frame' (stream.mergeOf i) (.reached a) →
      Follows stream registry (i + 1) frame' (stream.mergeOf i) (.reached b) →
      Frame.join test a b = .ok joined → Follows stream registry (stream.mergeOf i) joined stop outcome →
      Follows stream registry i frame stop outcome

/-- A place, the frame there, and the place at which the arm being followed stops. -/
structure Config where
  place : Nat
  frame : Frame
  stop : Nat

/-- Following goes from the first configuration to the second. From a branch it goes into either arm, and then to
the merge point. -/
inductive Leads (stream : Stream) (registry : Registry) : Config → Config → Prop where
  | next {i frame stop frame'} : i ≠ stop → Performs stream registry i frame (.next frame') →
      Leads stream registry ⟨i, frame, stop⟩ ⟨i + 1, frame', stop⟩
  | jump {i frame stop target frame' j} : i ≠ stop → Performs stream registry i frame (.jump target frame') →
      indexOf? stream.code target = some j → Leads stream registry ⟨i, frame, stop⟩ ⟨j, frame', stop⟩
  | taken {i frame stop test target frame' j} : i ≠ stop →
      Performs stream registry i frame (.branch test target frame') → indexOf? stream.code target = some j →
      Leads stream registry ⟨i, frame, stop⟩ ⟨j, frame', stream.mergeOf i⟩
  | fallthrough {i frame stop test target frame' j outcome} : i ≠ stop →
      Performs stream registry i frame (.branch test target frame') → indexOf? stream.code target = some j →
      Follows stream registry j frame' (stream.mergeOf i) outcome →
      Leads stream registry ⟨i, frame, stop⟩ ⟨i + 1, frame', stream.mergeOf i⟩
  | joined {i frame stop test target frame' j a b joined} : i ≠ stop →
      Performs stream registry i frame (.branch test target frame') → indexOf? stream.code target = some j →
      Follows stream registry j frame' (stream.mergeOf i) (.reached a) →
      Follows stream registry (i + 1) frame' (stream.mergeOf i) (.reached b) →
      Frame.join test a b = .ok joined →
      Leads stream registry ⟨i, frame, stop⟩ ⟨stream.mergeOf i, joined, stop⟩

/-- Following from the first configuration meets the second. -/
def Visits (stream : Stream) (registry : Registry) : Config → Config → Prop :=
  Relation.ReflTransGen (Leads stream registry)

variable {stream : Stream} {registry : Registry}

theorem Visits.refl (c : Config) : Visits stream registry c c :=
  Relation.ReflTransGen.refl

theorem Visits.head {c d e : Config} (h : Leads stream registry c d) (hd : Visits stream registry d e) :
    Visits stream registry c e :=
  Relation.ReflTransGen.head h hd

theorem indexOf_eq_ok_iff {code : List Instruction} {source target : Offset} {j : Nat} :
    indexOf code source target = .ok j ↔ indexOf? code target = some j := by
  unfold indexOf
  split <;> simp_all

theorem Performs.unique {i : Nat} {frame : Frame} {e₁ e₂ : Effect} (h₁ : Performs stream registry i frame e₁)
    (h₂ : Performs stream registry i frame e₂) : e₁ = e₂ := by
  obtain ⟨instruction, hi, hs⟩ := h₁
  obtain ⟨instruction', hi', hs'⟩ := h₂
  cases hi.symm.trans hi'
  exact Except.ok.inj (hs.symm.trans hs')

theorem Follows.unique {i : Nat} {frame : Frame} {stop : Nat} {o₁ o₂ : Outcome}
    (h₁ : Follows stream registry i frame stop o₁) (h₂ : Follows stream registry i frame stop o₂) : o₁ = o₂ := by
  induction h₁ generalizing o₂ with
  | stopped =>
      cases h₂ with
      | stopped => rfl
      | next hne | jump hne | done hne | returned hne | joined hne => exact absurd rfl hne
  | next hne hp _ ih =>
      cases h₂ with
      | stopped => exact absurd rfl hne
      | next _ hp' h =>
          cases hp.unique hp'
          exact ih h
      | jump _ hp' | done _ hp' | returned _ hp' | joined _ hp' => cases hp.unique hp'
  | jump hne hp hj _ ih =>
      cases h₂ with
      | stopped => exact absurd rfl hne
      | jump _ hp' hj' h =>
          cases hp.unique hp'
          cases hj.symm.trans hj'
          exact ih h
      | next _ hp' | done _ hp' | returned _ hp' | joined _ hp' => cases hp.unique hp'
  | done hne hp =>
      cases h₂ with
      | stopped => exact absurd rfl hne
      | done _ hp' =>
          cases hp.unique hp'
          rfl
      | next _ hp' | jump _ hp' | returned _ hp' | joined _ hp' => cases hp.unique hp'
  | returned hne hp hj _ _ iha ihb =>
      cases h₂ with
      | stopped => exact absurd rfl hne
      | returned _ hp' hj' ha hb =>
          cases hp.unique hp'
          cases hj.symm.trans hj'
          cases iha ha
          cases ihb hb
          rfl
      | joined _ hp' hj' ha =>
          cases hp.unique hp'
          cases hj.symm.trans hj'
          cases iha ha
      | next _ hp' | jump _ hp' | done _ hp' => cases hp.unique hp'
  | joined hne hp hj _ _ hjoin _ iha ihb ih =>
      cases h₂ with
      | stopped => exact absurd rfl hne
      | returned _ hp' hj' ha =>
          cases hp.unique hp'
          cases hj.symm.trans hj'
          cases iha ha
      | joined _ hp' hj' ha hb hjoin' h =>
          cases hp.unique hp'
          cases hj.symm.trans hj'
          cases iha ha
          cases ihb hb
          cases hjoin.symm.trans hjoin'
          exact ih h
      | next _ hp' | jump _ hp' | done _ hp' => cases hp.unique hp'

/-! ## What the walk with remembered arms returns -/

theorem recallWalk_stop {steps : Nat} {frame : Frame} {stop : Nat} {memory : Memory} :
    recallWalk stream registry steps stop frame stop memory = .ok (.reached frame, memory) := by
  unfold recallWalk
  exact if_pos rfl

theorem recallWalk_zero {i : Nat} {frame : Frame} {stop : Nat} {memory : Memory} (hne : i ≠ stop) :
    recallWalk stream registry 0 i frame stop memory = .error (.structural .leftBody) := by
  unfold recallWalk
  rw [if_neg hne]

theorem recallWalk_outside {steps i : Nat} {frame : Frame} {stop : Nat} {memory : Memory} (hne : i ≠ stop)
    (hi : stream.code[i]? = none) :
    recallWalk stream registry steps i frame stop memory = .error (.structural .leftBody) := by
  unfold recallWalk
  rw [if_neg hne]
  split
  · simp_all
  · rfl

/-- The walk from a branch: the arms, their join, and the rest of the way. -/
def recallBranch (stream : Stream) (registry : Registry) (steps i : Nat) (offset : Offset) (stop : Nat)
    (test : Symbolic) (target : Offset) (frame : Frame) (memory : Memory) : Except Fault (Outcome × Memory) := do
  let merge := stream.mergeOf i
  let j ← indexOf stream.code offset target
  let (taken, memory) ← visit j merge frame (recallWalk stream registry steps j frame merge) memory
  let (fallthrough, memory) ←
    visit (i + 1) merge frame (recallWalk stream registry steps (i + 1) frame merge) memory
  match ← (Outcome.join test taken fallthrough).mapError (Fault.located offset) with
  | .returned value => return (.returned value, memory)
  | .reached frame => recallWalk stream registry steps merge frame stop memory

theorem recallWalk_succ {steps i : Nat} {frame : Frame} {stop : Nat} {memory : Memory} {instruction : Instruction}
    (hne : i ≠ stop) (hi : stream.code[i]? = some instruction) :
    recallWalk stream registry (steps + 1) i frame stop memory = (do
      match ← step registry frame instruction with
      | .next frame => recallWalk stream registry steps (i + 1) frame stop memory
      | .jump target frame =>
        let j ← indexOf stream.code instruction.offset target
        recallWalk stream registry steps j frame stop memory
      | .done value => return (.returned value, memory)
      | .branch test target frame =>
        recallBranch stream registry steps i instruction.offset stop test target frame memory) := by
  conv => lhs; unfold recallWalk
  rw [if_neg hne, hi]
  rfl

/-- Each remembered arm ended as it is remembered. -/
def Memory.Sound (stream : Stream) (registry : Registry) (memory : Memory) : Prop :=
  ∀ visit ∈ memory, Follows stream registry visit.start visit.frame visit.stop visit.outcome

theorem Memory.sound_nil : Memory.Sound stream registry [] := by
  intro visit h
  cases h

theorem Memory.Sound.find? {memory : Memory} (hm : memory.Sound stream registry) {start stop : Nat} {frame : Frame}
    {outcome : Outcome} (h : memory.find? start stop frame = some outcome) :
    Follows stream registry start frame stop outcome := by
  obtain ⟨visit, hv, rfl⟩ := Option.map_eq_some_iff.mp h
  have hkey := List.find?_some hv
  simp only [Bool.and_eq_true, beq_iff_eq] at hkey
  obtain ⟨⟨rfl, rfl⟩, rfl⟩ := hkey
  exact hm visit (List.mem_of_find?_eq_some hv)

/-- A recalled arm ended as if it had been followed, and an arm that is followed is remembered as it ended. -/
theorem visit_follows {start stop : Nat} {frame : Frame} {follow : Memory → Except Fault (Outcome × Memory)}
    {memory memory' : Memory} {outcome : Outcome} (hm : memory.Sound stream registry)
    (hfollow : ∀ o m, follow memory = .ok (o, m) →
      Follows stream registry start frame stop o ∧ m.Sound stream registry)
    (h : visit start stop frame follow memory = .ok (outcome, memory')) :
    Follows stream registry start frame stop outcome ∧ memory'.Sound stream registry := by
  unfold visit at h
  split at h
  · rename_i o hfind
    cases h
    exact ⟨hm.find? hfind, hm⟩
  · obtain ⟨⟨o, m⟩, hom, h⟩ := bind_eq_ok_iff.mp h
    cases pure_eq_ok_iff.mp h
    obtain ⟨ho, hs⟩ := hfollow _ _ hom
    refine ⟨ho, fun visit hv => ?_⟩
    rcases List.mem_cons.mp hv with rfl | hv
    · exact ho
    · exact hs visit hv

/-- What the walk returns is how following ends, whatever sound memory it starts with. -/
theorem recallWalk_follows {steps i : Nat} {frame : Frame} {stop : Nat} {memory memory' : Memory} {outcome : Outcome}
    (hm : memory.Sound stream registry)
    (h : recallWalk stream registry steps i frame stop memory = .ok (outcome, memory')) :
    Follows stream registry i frame stop outcome ∧ memory'.Sound stream registry := by
  induction steps generalizing i frame stop memory memory' outcome with
  | zero =>
      by_cases hne : i = stop
      · subst hne
        rw [recallWalk_stop] at h
        cases h
        exact ⟨.stopped, hm⟩
      · rw [recallWalk_zero hne] at h
        cases h
  | succ steps ih =>
      by_cases hne : i = stop
      · subst hne
        rw [recallWalk_stop] at h
        cases h
        exact ⟨.stopped, hm⟩
      cases hi : stream.code[i]? with
      | none =>
          rw [recallWalk_outside hne hi] at h
          cases h
      | some instruction =>
          rw [recallWalk_succ hne hi] at h
          obtain ⟨effect, hs, h⟩ := bind_eq_ok_iff.mp h
          have hperf : Performs stream registry i frame effect := ⟨instruction, hi, hs⟩
          cases effect with
          | next frame' =>
              obtain ⟨hfol, hm'⟩ := ih hm h
              exact ⟨.next hne hperf hfol, hm'⟩
          | jump target frame' =>
              obtain ⟨j, hj, h⟩ := bind_eq_ok_iff.mp h
              obtain ⟨hfol, hm'⟩ := ih hm h
              exact ⟨.jump hne hperf (indexOf_eq_ok_iff.mp hj) hfol, hm'⟩
          | done value =>
              cases pure_eq_ok_iff.mp h
              exact ⟨.done hne hperf, hm⟩
          | branch test target frame' =>
              obtain ⟨j, hj, h⟩ := bind_eq_ok_iff.mp h
              obtain ⟨⟨taken, m₁⟩, htaken, h⟩ := bind_eq_ok_iff.mp h
              obtain ⟨⟨fallthrough, m₂⟩, hfall, h⟩ := bind_eq_ok_iff.mp h
              obtain ⟨joined, hjoin, h⟩ := bind_eq_ok_iff.mp h
              have hj := indexOf_eq_ok_iff.mp hj
              -- The memory that one arm leaves is sound, so the next may be recalled from it.
              obtain ⟨hft, hm₁⟩ := visit_follows hm (fun _ _ => ih hm) htaken
              obtain ⟨hff, hm₂⟩ := visit_follows hm₁ (fun _ _ => ih hm₁) hfall
              rcases Outcome.join_eq_ok (mapError_eq_ok_iff.mp hjoin) with
                ⟨a, b, rfl, rfl, rfl⟩ | ⟨a, b, frame'', rfl, rfl, hab, rfl⟩
              · cases pure_eq_ok_iff.mp h
                exact ⟨.returned hne hperf hj hft hff, hm₂⟩
              · obtain ⟨hfol, hm'⟩ := ih hm₂ h
                exact ⟨.joined hne hperf hj hft hff hab hfol, hm'⟩

theorem reconstruct_follows {frame : Frame} {value : Symbolic} (h : stream.reconstruct registry frame = .ok value) :
    Follows stream registry 0 frame stream.size (.returned value) := by
  obtain ⟨⟨outcome, memory⟩, hwalk, h⟩ := bind_eq_ok_iff.mp h
  cases outcome with
  | reached frame' => cases h
  | returned v =>
      cases h
      exact (recallWalk_follows Memory.sound_nil hwalk).1

end Stream

end PredicateLift
