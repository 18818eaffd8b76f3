import PredicateLift.Analysis.Settings
import PredicateLift.Analysis.Subject
import PredicateLift.Exchange.Code
import PredicateLift.Symbolic.Capture

/-!
# Captures, subjects, settings and reasons in documents

Reading a table of captures does not check it: what was written is read back as it was.
-/

namespace PredicateLift

namespace Capture

/-- A capture as a document. -/
def toJson (style : NumberStyle) (capture : Capture) : Json :=
  .ofMembers [("slot", .ofNat capture.slot.toNat), ("value", capture.value.toJson style),
    ("declared", capture.declared.toJson)]

/-- Reads a capture. -/
def ofJson? (style : NumberStyle) (j : Json) : Option Capture := do
  let [slot, value, declared] ← j.record? ["slot", "value", "declared"] | none
  return ⟨← slot.uint16?, ← Literal.ofJson? style value, ← Kind.ofJson? declared⟩

end Capture

namespace Captures

/-- A table of captures as a document. -/
def toJson (style : NumberStyle) (captures : Captures) : Json :=
  .ofMembers [("args", .ofList (Capture.toJson style) captures.args)]

/-- Reads a table of captures. -/
def ofJson? (style : NumberStyle) (j : Json) : Option Captures := do
  let [args] ← j.record? ["args"] | none
  return ⟨← args.list? (Capture.ofJson? style)⟩

end Captures

namespace SubjectType

/-- A subject type as a document. -/
def toJson (type : SubjectType) : Json :=
  .ofMembers [("name", .string type.name),
    ("fields", .ofMembers (type.fields.map fun (name, kind) => (name, kind.toJson)))]

/-- Reads a subject type. -/
def ofJson? (j : Json) : Option SubjectType := do
  let [name, fields] ← j.record? ["name", "fields"] | none
  let fields ← (← fields.members?).mapM fun (name, kind) => (Kind.ofJson? kind).map (name, ·)
  return ⟨← name.string?, Bindings.ofList fields⟩

end SubjectType

namespace Subject

/-- A subject as a document. -/
def toJson (subject : Subject) : Json :=
  .ofMembers [("slot", .ofNat subject.slot.toNat), ("ty", subject.type.toJson)]

/-- Reads a subject. -/
def ofJson? (j : Json) : Option Subject := do
  let [slot, type] ← j.record? ["slot", "ty"] | none
  return ⟨← slot.uint16?, ← SubjectType.ofJson? type⟩

end Subject

namespace Settings

/-- Settings as a document. -/
def toJson (settings : Settings) : Json :=
  .ofMembers [("cache_enabled", .bool settings.cacheEnabled),
    ("cache_capacity", .ofOption Json.ofNat settings.cacheCapacity),
    ("max_simplify_passes", .ofNat settings.maxPasses)]

/-- A setting that may be left out. -/
def setting? {α : Type} (given : Option Json) (default : α) (decode : Json → Option α) : Option α :=
  match given with
  | some j => decode j
  | none => some default

/-- Reads settings, by name or by position. What is left out takes its default. -/
def ofJson? (j : Json) : Option Settings := do
  let default : Settings := {}
  let given ← match j with
    | .object members =>
      some (["cache_enabled", "cache_capacity", "max_simplify_passes"].map (List.lookup · members))
    | .array items => if items.length ≤ 3 then some ((List.range 3).map (items[·]?)) else none
    | _ => none
  let [enabled, capacity, passes] := given | none
  return {
    cacheEnabled := ← setting? enabled default.cacheEnabled Json.bool?
    cacheCapacity := ← setting? capacity default.cacheCapacity (Json.option? Json.nat?)
    maxPasses := ← setting? passes default.maxPasses Json.nat? }

end Settings

namespace Reason

/-- The names of the reasons. -/
def named : List (String × Reason) := [
  ("UnsupportedOpcode", .unsupportedOpcode), ("StackUnderflow", .stackUnderflow),
  ("InvalidBranchTarget", .invalidBranchTarget), ("UnsupportedLoop", .unsupportedLoop),
  ("NonConvergentBranch", .nonConvergentBranch), ("DivisionByZeroLiteral", .divisionByZeroLiteral),
  ("UnrepresentableNumericNegation", .unrepresentableNumericNegation),
  ("UnresolvableCapture", .unresolvableCapture)]

/-- A reason as a document. -/
def toJson : Reason → Json
  | unsupportedOpcode => .string "UnsupportedOpcode"
  | stackUnderflow => .string "StackUnderflow"
  | invalidBranchTarget => .string "InvalidBranchTarget"
  | unsupportedLoop => .string "UnsupportedLoop"
  | nonConvergentBranch => .string "NonConvergentBranch"
  | divisionByZeroLiteral => .string "DivisionByZeroLiteral"
  | unrepresentableNumericNegation => .string "UnrepresentableNumericNegation"
  | unresolvableCapture => .string "UnresolvableCapture"

/-- Reads a reason. -/
def ofJson? : Json → Option Reason :=
  named? named

end Reason

end PredicateLift
