import PredicateLift.Symbolic.Frame

/-!
# Joining the arms of a branch

Where the arms of a branch meet, each value is the one of the arm that was taken. Between booleans that choice is
written with connectives, and otherwise as a conditional.
-/

namespace PredicateLift

/-- The choice between two booleans. A literal arm is absorbed into one connective; where one arm is `b op x` and the
other `x`, the shared operand is kept once. -/
def joinBooleans (test taken fallthrough : Symbolic) : Symbolic :=
  match taken.bool?, fallthrough.bool? with
  | some true, some false => test
  | some false, some true => .not test
  | some true, _ => .logical .or test fallthrough
  | some false, _ => .logical .and (.not test) fallthrough
  | none, some true => .logical .or (.not test) taken
  | none, some false => .logical .and test taken
  | none, none => match fallthrough.splitTail? taken with
    | some (.and, b) => .logical .and (.logical .or test b) taken
    | some (.or, b) => .logical .or (.logical .and (.not test) b) taken
    | none => match taken.splitTail? fallthrough with
      | some (.and, b) => .logical .and (.logical .or (.not test) b) fallthrough
      | some (.or, b) => .logical .or (.logical .and test b) fallthrough
      | none => .logical .or (.logical .and test taken) (.logical .and (.not test) fallthrough)

/-- The choice between the value of the arm taken when the test holds and the value of the other arm. -/
def joinValues (test taken fallthrough : Symbolic) : Symbolic :=
  if taken = fallthrough then taken
  else if taken.isBooleanShaped && fallthrough.isBooleanShaped then
    joinBooleans test taken.toBool fallthrough.toBool
  else if taken.isBool || fallthrough.isBool then .conditional test taken.toBool fallthrough.toBool
  else .conditional test taken fallthrough

/-- The bindings after two arms: a slot stays bound if both arms bind it. -/
def Locals.join (test : Symbolic) (taken fallthrough : Locals) : Locals :=
  ⟨taken.bindings.filterMap fun (slot, a) =>
    (fallthrough.get? slot).map fun b => (slot, joinValues test a b)⟩

theorem Locals.get?_join {test : Symbolic} {taken fallthrough : Locals} {slot : Slot} :
    (taken.join test fallthrough).get? slot = (do
      let a ← taken.get? slot
      let b ← fallthrough.get? slot
      return joinValues test a b) := by
  obtain ⟨bindings⟩ := taken
  simp only [Locals.join, Locals.get?]
  induction bindings with
  | nil => rfl
  | cons binding rest ih =>
      obtain ⟨k, a⟩ := binding
      rw [List.filterMap_cons]
      by_cases hk : slot = k
      · subst hk
        cases hb : fallthrough.bindings.lookup slot with
        | none =>
            -- The binding is dropped, and a later one of the same slot would be dropped as well.
            simp only [hb, Option.map_none, ih, List.lookup_cons_self]
            cases rest.lookup slot <;> rfl
        | some b =>
            simp only [Option.map_some, List.lookup_cons_self]
            rfl
      · have hk : (slot == k) = false := by simpa using hk
        cases hb : fallthrough.bindings.lookup k with
        | none => simp only [Option.map_none, ih, List.lookup_cons, hk]
        | some b => simp only [Option.map_some, ih, List.lookup_cons, hk]

theorem Locals.get?_join_eq_some {test s : Symbolic} {taken fallthrough : Locals} {slot : Slot}
    (h : (taken.join test fallthrough).get? slot = some s) :
    ∃ a b, taken.get? slot = some a ∧ fallthrough.get? slot = some b ∧ s = joinValues test a b := by
  rw [Locals.get?_join] at h
  obtain ⟨a, ha, h⟩ := Option.bind_eq_some_iff.mp h
  obtain ⟨b, hb, h⟩ := Option.bind_eq_some_iff.mp h
  cases h
  exact ⟨a, b, ha, hb, rfl⟩

/-- The frame after two arms, if their stacks are equally deep. -/
def Frame.join (test : Symbolic) (taken fallthrough : Frame) : Except Cause Frame :=
  if taken.depth = fallthrough.depth then
    .ok {
      stack := List.zipWith (joinValues test) taken.stack fallthrough.stack
      locals := taken.locals.join test fallthrough.locals }
  else .error (.stackDepths taken.depth fallthrough.depth)

/-- How following an arm ends. -/
inductive Outcome where
  /-- Control came to the place where the arm stops. -/
  | reached (frame : Frame)
  | returned (value : Symbolic)
deriving DecidableEq

/-- The outcome of a branch from those of its arms, which have to end alike. -/
def Outcome.join (test : Symbolic) : Outcome → Outcome → Except Cause Outcome
  | returned a, returned b => .ok (.returned (joinValues test a b))
  | reached a, reached b => do return .reached (← Frame.join test a b)
  | _, _ => .error .mixedArms

end PredicateLift
