import PredicateLift.Flow.Join
import PredicateLift.Flow.Stream
import PredicateLift.Symbolic.Step

/-!
# Following a stream

The two arms of a branch are followed up to its merge point and joined there, until control returns. `walk` follows
every arm from scratch. Short-circuit code comes to one place with the same frame on many ways, so `recallWalk`
remembers how each arm ended; `reconstruct` uses it.
-/

namespace PredicateLift

namespace Stream

/-- Follows a stream from place `i` to the place `stop`, over at most `steps` instructions in a row. -/
def walk (stream : Stream) (registry : Registry) :
    (steps i : Nat) → Frame → (stop : Nat) → Except Fault Outcome
  | steps, i, frame, stop =>
    if i = stop then .ok (.reached frame)
    else match steps, stream.code[i]? with
      | steps + 1, some instruction => do
        match ← step registry frame instruction with
        | .next frame => walk stream registry steps (i + 1) frame stop
        | .jump target frame =>
          let j ← indexOf stream.code instruction.offset target
          walk stream registry steps j frame stop
        | .done value => return .returned value
        | .branch test target frame =>
          let merge := (stream.mergePoint? i).getD stream.size
          let j ← indexOf stream.code instruction.offset target
          let taken ← walk stream registry steps j frame merge
          let fallthrough ← walk stream registry steps (i + 1) frame merge
          match ← (Outcome.join test taken fallthrough).mapError (Fault.located instruction.offset) with
          | .returned value => return .returned value
          | .reached frame => walk stream registry steps merge frame stop
      | _, _ => .error (.structural .leftBody)

/-! ## Remembered arms -/

/-- An arm that was followed, and how it ended. -/
structure Visit where
  start : Nat
  stop : Nat
  frame : Frame
  outcome : Outcome

/-- The arms followed so far. -/
abbrev Memory := List Visit

/-- How an arm ended, if it was followed before. -/
def Memory.find? (memory : Memory) (start stop : Nat) (frame : Frame) : Option Outcome :=
  (List.find? (fun visit => visit.start == start && visit.stop == stop && visit.frame == frame) memory).map
    (·.outcome)

/-- Recalls how an arm ended, or follows it and remembers that. Failures are not remembered. -/
def visit (start stop : Nat) (frame : Frame) (follow : Memory → Except Fault (Outcome × Memory))
    (memory : Memory) : Except Fault (Outcome × Memory) :=
  match memory.find? start stop frame with
  | some outcome => .ok (outcome, memory)
  | none => do
    let (outcome, memory) ← follow memory
    return (outcome, ⟨start, stop, frame, outcome⟩ :: memory)

/-- Follows a stream like `walk`, with the arms of branches recalled where possible. -/
def recallWalk (stream : Stream) (registry : Registry) :
    (steps i : Nat) → Frame → (stop : Nat) → Memory → Except Fault (Outcome × Memory)
  | steps, i, frame, stop, memory =>
    if i = stop then .ok (.reached frame, memory)
    else match steps, stream.code[i]? with
      | steps + 1, some instruction => do
        match ← step registry frame instruction with
        | .next frame => recallWalk stream registry steps (i + 1) frame stop memory
        | .jump target frame =>
          let j ← indexOf stream.code instruction.offset target
          recallWalk stream registry steps j frame stop memory
        | .done value => return (.returned value, memory)
        | .branch test target frame =>
          let merge := (stream.mergePoint? i).getD stream.size
          let j ← indexOf stream.code instruction.offset target
          let (taken, memory) ← visit j merge frame (recallWalk stream registry steps j frame merge) memory
          let (fallthrough, memory) ←
            visit (i + 1) merge frame (recallWalk stream registry steps (i + 1) frame merge) memory
          match ← (Outcome.join test taken fallthrough).mapError (Fault.located instruction.offset) with
          | .returned value => return (.returned value, memory)
          | .reached frame => recallWalk stream registry steps merge frame stop memory
      | _, _ => .error (.structural .leftBody)

/-- The value that a body returns, from how following it to its end came out. -/
def returnedValue : Outcome → Except Fault Symbolic
  | .returned value => .ok value
  | .reached _ => .error (.structural .noValue)

/-- The value that a stream returns when it is entered with the given frame. -/
def reconstruct (stream : Stream) (registry : Registry) (frame : Frame) : Except Fault Symbolic := do
  let (outcome, _) ← recallWalk stream registry stream.size 0 frame stream.size []
  returnedValue outcome

end Stream

end PredicateLift
