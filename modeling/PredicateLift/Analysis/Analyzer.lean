import PredicateLift.Analysis.Settings
import PredicateLift.Analysis.Subject
import PredicateLift.Code.Decoding
import PredicateLift.Flow.Walk
import PredicateLift.Symbolic.Lowering

/-!
# Analysis of predicates

A predicate is decoded, followed symbolically, lowered to a query expression and simplified. An analyzer keeps the
results by the defining class and the captured values, and counts how often a result was found and how often none was,
in 64-bit counters that wrap around.
-/

namespace PredicateLift

/-- The body of a predicate, in bytes or decoded. -/
inductive Body where
  | raw (code : List UInt8) (pool : Pool)
  | decoded (instructions : List Instruction)

/-- The instructions of a body. -/
def Body.instructions (registry : Registry) : Body → Except Fault (List Instruction)
  | raw code pool => decode pool registry code
  | decoded instructions => .ok instructions

/-- A predicate to be analysed. -/
structure Predicate where
  definingClass : String
  body : Body
  subject : Subject
  captures : Captures

/-- The result of an analysis. -/
structure Analysis where
  expression : Expr
  subjectType : SubjectType
deriving DecidableEq

/-- The analysis of a predicate, without regard to earlier results. -/
def Predicate.analysis (predicate : Predicate) (settings : Settings) (registry : Registry) :
    Except Fault Analysis := do
  let stream ← Stream.ofList (← predicate.body.instructions registry)
  let frame ← Frame.initial predicate.subject.slot predicate.captures
  let value ← stream.reconstruct registry frame
  let raw ← value.toBool.lower predicate.subject.slot
  let expression ← raw.canonicalize settings.maxPasses
  return ⟨expression, predicate.subject.type⟩

/-- What results are kept by. -/
structure CacheKey where
  definingClass : String
  values : List Literal
deriving DecidableEq

/-- The key of a predicate. -/
def Predicate.cacheKey (predicate : Predicate) : CacheKey :=
  ⟨predicate.definingClass, predicate.captures.values⟩

/-- An analyzer with the results that it keeps. -/
structure Analyzer where
  settings : Settings := {}
  registry : Registry := .builtin
  entries : List (CacheKey × Analysis) := []
  hits : UInt64 := 0
  misses : UInt64 := 0

namespace Analyzer

/-- The result kept for a key. -/
def find? (analyzer : Analyzer) (key : CacheKey) : Option Analysis :=
  analyzer.entries.lookup key

/-- Whether no more results may be kept. -/
def isFull (analyzer : Analyzer) : Bool :=
  match analyzer.settings.cacheCapacity with
  | some capacity => decide (capacity ≤ analyzer.entries.length)
  | none => false

/-- Keeps a result, unless one is kept for the key already, which is then given in its place, or the analyzer is
full. -/
def keep (analyzer : Analyzer) (key : CacheKey) (result : Analysis) : Analysis × Analyzer :=
  match analyzer.find? key with
  | some existing => (existing, analyzer)
  | none =>
    if analyzer.isFull then (result, analyzer)
    else (result, { analyzer with entries := (key, result) :: analyzer.entries })

/-- Analyses a predicate, or gives the result kept for its key. Failures are not kept. -/
def analyze (analyzer : Analyzer) (predicate : Predicate) : Except Fault Analysis × Analyzer :=
  if analyzer.settings.cacheEnabled then
    match analyzer.find? predicate.cacheKey with
    | some result => (.ok result, { analyzer with hits := analyzer.hits + 1 })
    | none =>
      let analyzer := { analyzer with misses := analyzer.misses + 1 }
      match predicate.analysis analyzer.settings analyzer.registry with
      | .ok result =>
        let (kept, analyzer) := analyzer.keep predicate.cacheKey result
        (.ok kept, analyzer)
      | .error fault => (.error fault, analyzer)
  else (predicate.analysis analyzer.settings analyzer.registry, analyzer)

/-- Forgets all results; the counts stay. -/
def clear (analyzer : Analyzer) : Analyzer :=
  { analyzer with entries := [] }

end Analyzer

end PredicateLift
