import PredicateLift.Exchange.Code
import PredicateLift.Query.Expr

/-!
# Query expressions in documents
-/

namespace PredicateLift

namespace Segment

/-- A step of a path as a document. -/
def toJson : Segment → Json
  | field name => .tagged "Field" (.string name)
  | method name => .tagged "Method" (.string name)
  | index position => .tagged "Index" (.ofNat position.toNat)
  | length => .string "Length"

/-- Reads a step of a path. -/
def ofJson? (j : Json) : Option Segment := do
  match ← j.variant? with
  | ("Field", some content) => return .field (← content.string?)
  | ("Method", some content) => return .method (← content.string?)
  | ("Index", some content) => return .index (← content.uint32?)
  | _ => named? [("Length", length)] j

end Segment

namespace Path

/-- A path as a document. -/
def toJson (path : Path) : Json :=
  .ofMembers [("segments", .ofList Segment.toJson path.segments)]

/-- Reads a path. -/
def ofJson? (j : Json) : Option Path := do
  let [segments] ← j.record? ["segments"] | none
  return ⟨← segments.list? Segment.ofJson?⟩

end Path

namespace Expr

/-- The members of a call. -/
def callMembers (target : Json) (method : Member) (args : List Json) : Json :=
  .tagged "MethodInvocation" (.ofMembers [("target", target), ("method", method.toJson), ("args", .array args)])

mutual

/-- An expression as a document. -/
def toJson (style : NumberStyle) : Expr → Json
  | literal value => .tagged "Literal" (value.toJson style)
  | path p => .tagged "ArgumentPath" p.toJson
  | compare op left right => .tagged "Comparison"
      (.ofMembers [("op", op.toJson), ("left", left.toJson style), ("right", right.toJson style)])
  | combine op operands => .tagged "BooleanCombination"
      (.ofMembers [("op", op.toJson), ("operands", .array (listToJson style operands))])
  | not operand => .tagged "Not" (operand.toJson style)
  | arith op kind operands => .tagged "Arithmetic"
      (.ofMembers [("op", op.toJson), ("kind", kind.toJson), ("operands", .array (listToJson style operands))])
  | call target method args => callMembers (target.toJson style) method (listToJson style args)
  | staticCall method args => callMembers .null method (listToJson style args)
  | conditional test thenBranch elseBranch => .tagged "Conditional"
      (.ofMembers [("test", test.toJson style), ("then_branch", thenBranch.toJson style),
        ("else_branch", elseBranch.toJson style)])

/-- Expressions as documents. -/
def listToJson (style : NumberStyle) : List Expr → List Json
  | [] => []
  | e :: es => e.toJson style :: listToJson style es

end

/-- Reads an expression nested at most as deeply as the bound. -/
def read? (style : NumberStyle) : (bound : Nat) → Json → Option Expr
  | 0, _ => none
  | bound + 1, j => do
    match ← j.variant? with
    | ("Literal", some content) => return .literal (← Literal.ofJson? style content)
    | ("ArgumentPath", some content) => return .path (← Path.ofJson? content)
    | ("Comparison", some content) =>
      let [op, left, right] ← content.fields? ["op", "left", "right"] | none
      return .compare (← Comparison.ofJson? op) (← read? style bound left) (← read? style bound right)
    | ("BooleanCombination", some content) =>
      let [op, operands] ← content.fields? ["op", "operands"] | none
      return .combine (← Connective.ofJson? op) (← operands.list? (read? style bound))
    | ("Not", some content) => return .not (← read? style bound content)
    | ("Arithmetic", some content) =>
      let [op, kind, operands] ← content.fields? ["op", "kind", "operands"] | none
      return .arith (← Operator.ofJson? op) (← NumericKind.ofJson? kind) (← operands.list? (read? style bound))
    | ("MethodInvocation", some content) =>
      let [target, method, args] ← content.fields? ["target", "method", "args"] | none
      let target ← target.option? (read? style bound)
      let method ← Member.ofJson? method
      let args ← args.list? (read? style bound)
      match target with
      | some target => return .call target method args
      | none => return .staticCall method args
    | ("Conditional", some content) =>
      let [test, thenBranch, elseBranch] ← content.fields? ["test", "then_branch", "else_branch"] | none
      return .conditional (← read? style bound test) (← read? style bound thenBranch)
        (← read? style bound elseBranch)
    | _ => none

/-- Reads an expression. -/
def ofJson? (style : NumberStyle) (j : Json) : Option Expr :=
  read? style (j.depth + 1) j

end Expr

end PredicateLift
