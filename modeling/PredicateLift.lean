import PredicateLift.Analysis.Analyzer
import PredicateLift.Analysis.Settings
import PredicateLift.Analysis.Subject
import PredicateLift.Binary.Arith
import PredicateLift.Binary.Basic
import PredicateLift.Binary.Decimal
import PredicateLift.Binary.Rounding
import PredicateLift.Bindings
import PredicateLift.Code.Decoding
import PredicateLift.Code.Descriptor
import PredicateLift.Code.Instruction
import PredicateLift.Code.Intrinsic
import PredicateLift.Code.Member
import PredicateLift.Code.Pool
import PredicateLift.Exchange.Analysis
import PredicateLift.Exchange.Code
import PredicateLift.Exchange.Numbers
import PredicateLift.Exchange.Query
import PredicateLift.Exchange.Symbolic
import PredicateLift.Exchange.Values
import PredicateLift.Fault
import PredicateLift.Flow.Join
import PredicateLift.Flow.Stream
import PredicateLift.Flow.Walk
import PredicateLift.Json.Basic
import PredicateLift.Json.Reader
import PredicateLift.Json.Writer
import PredicateLift.Proofs.Fallible
import PredicateLift.Proofs.Flow.Following
import PredicateLift.Proofs.Flow.Joining
import PredicateLift.Proofs.Flow.MergePoints
import PredicateLift.Proofs.Flow.Routes
import PredicateLift.Proofs.Flow.Safety
import PredicateLift.Proofs.Flow.Soundness
import PredicateLift.Proofs.Query.Evaluation
import PredicateLift.Proofs.Query.Meaning
import PredicateLift.Proofs.Symbolic.Effects
import PredicateLift.Proofs.Symbolic.Frames
import PredicateLift.Proofs.Symbolic.StepValues
import PredicateLift.Proofs.Symbolic.Valuation
import PredicateLift.Proofs.Value.Integers
import PredicateLift.Proofs.Value.Order
import PredicateLift.Query.Canonical
import PredicateLift.Query.Expr
import PredicateLift.Query.Path
import PredicateLift.Symbolic.Capture
import PredicateLift.Symbolic.Frame
import PredicateLift.Symbolic.Lowering
import PredicateLift.Symbolic.Step
import PredicateLift.Symbolic.Value
import PredicateLift.Text.Combining
import PredicateLift.Text.LetterCase
import PredicateLift.Text.Printable
import PredicateLift.Text.Quoted
import PredicateLift.Text.Ranges
import PredicateLift.Value.Conversion
import PredicateLift.Value.Folding
import PredicateLift.Value.Kind
import PredicateLift.Value.Literal
import PredicateLift.Value.Operator
import PredicateLift.Proofs.Query.Convergence
import PredicateLift.Proofs.Query.Grammar
import PredicateLift.Proofs.Query.Widths
import PredicateLift.Proofs.Query.Unordered
import PredicateLift.Proofs.Analysis.Cache
import PredicateLift.Proofs.Analysis.Sharing
import PredicateLift.Proofs.Query.Negation
import PredicateLift.Proofs.Code.Tiling
import PredicateLift.Proofs.Flow.Recalling
import PredicateLift.Proofs.Symbolic.Variables
import PredicateLift.Proofs.Flow.SubjectOnly
import PredicateLift.Proofs.Flow.Choosing
import PredicateLift.Proofs.Flow.IntegerJoins
import PredicateLift.Proofs.Flow.Layout
import PredicateLift.Proofs.Flow.OrGroups
import PredicateLift.Proofs.Analysis.Recovery
import PredicateLift.Proofs.Symbolic.QueryForms
import PredicateLift.Proofs.Symbolic.LoweredValues
import PredicateLift.Proofs.Code.Relocation
import PredicateLift.Proofs.Code.DescriptorGrammar
import PredicateLift.Proofs.Symbolic.Locality
import PredicateLift.Proofs.Flow.UnreadSlots
import PredicateLift.Proofs.Code.KnownCalls
import PredicateLift.Proofs.Flow.Validation
import PredicateLift.Proofs.Flow.Insertion
import PredicateLift.Proofs.Flow.Transparency
import PredicateLift.Proofs.Code.PoolIndices
import PredicateLift.Proofs.Symbolic.CaptureTables
import PredicateLift.Proofs.Value.Residues
import PredicateLift.Proofs.Value.Coherence
