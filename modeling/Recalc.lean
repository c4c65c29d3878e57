import Recalc.Cli
import Recalc.Cli.Files
import Recalc.ColumnIndex
import Recalc.Csv.Writer
import Recalc.Engine
import Recalc.Expr.Parser
import Recalc.Graph.Sort
import Recalc.Main
import Recalc.Proofs.Address.Column
import Recalc.Proofs.Address.Notation
import Recalc.Proofs.Address.Ordering
import Recalc.Proofs.Address.Variants
import Recalc.Proofs.Cli.Evaluating
import Recalc.Proofs.Cli.Files
import Recalc.Proofs.Csv.Fields
import Recalc.Proofs.Csv.Roundtrip
import Recalc.Proofs.Double.Equality
import Recalc.Proofs.Double.Finiteness
import Recalc.Proofs.Double.NotANumber
import Recalc.Proofs.Double.Order
import Recalc.Proofs.Double.Truncation
import Recalc.Proofs.Double.Whole
import Recalc.Proofs.Engine.Atomicity
import Recalc.Proofs.Engine.Coherence
import Recalc.Proofs.Engine.Fetching
import Recalc.Proofs.Engine.Finiteness
import Recalc.Proofs.Engine.Forgetting
import Recalc.Proofs.Engine.Isolation
import Recalc.Proofs.Engine.Loading
import Recalc.Proofs.Engine.Reloading
import Recalc.Proofs.Engine.Reordering
import Recalc.Proofs.Engine.Representation
import Recalc.Proofs.Engine.Searching
import Recalc.Proofs.Engine.Solution
import Recalc.Proofs.Engine.Splitting
import Recalc.Proofs.Engine.Spreading
import Recalc.Proofs.Evaluation.Alike
import Recalc.Proofs.Evaluation.Bits
import Recalc.Proofs.Evaluation.Caching
import Recalc.Proofs.Evaluation.Calls
import Recalc.Proofs.Evaluation.Comparison
import Recalc.Proofs.Evaluation.Dependence
import Recalc.Proofs.Evaluation.Fetching
import Recalc.Proofs.Evaluation.Finiteness
import Recalc.Proofs.Evaluation.Indexing
import Recalc.Proofs.Evaluation.Interference
import Recalc.Proofs.Evaluation.Meaning
import Recalc.Proofs.Evaluation.Numbers
import Recalc.Proofs.Evaluation.Repetition
import Recalc.Proofs.Evaluation.Searching
import Recalc.Proofs.Evaluation.Strictness
import Recalc.Proofs.Expr.Acceptance
import Recalc.Proofs.Expr.Adjacency
import Recalc.Proofs.Expr.Casing
import Recalc.Proofs.Expr.Completeness
import Recalc.Proofs.Expr.Following
import Recalc.Proofs.Expr.Placement
import Recalc.Proofs.Expr.Roundtrip
import Recalc.Proofs.Function.Overriding
import Recalc.Proofs.Graph.Actions
import Recalc.Proofs.Graph.Arrows
import Recalc.Proofs.Graph.Building
import Recalc.Proofs.Graph.Circuits
import Recalc.Proofs.Graph.Components
import Recalc.Proofs.Graph.Counting
import Recalc.Proofs.Graph.Finishing
import Recalc.Proofs.Graph.Isolated
import Recalc.Proofs.Graph.Listing
import Recalc.Proofs.Graph.Order
import Recalc.Proofs.Graph.Rounds
import Recalc.Proofs.Graph.Sorting
import Recalc.Proofs.Graph.Waiting
import Recalc.Proofs.Graph.Widening
import Recalc.Proofs.Range.RowOrder
import Recalc.Proofs.Rectangle
import Recalc.Proofs.Sheet.Circularity
import Recalc.Proofs.Sheet.Contents
import Recalc.Proofs.Sheet.Counting
import Recalc.Proofs.Sheet.Editing
import Recalc.Proofs.Sheet.Growth
import Recalc.Proofs.Sheet.Labels
import Recalc.Proofs.Sheet.Numbers
import Recalc.Proofs.Sheet.Outline
import Recalc.Proofs.Sheet.Passing
import Recalc.Proofs.Sheet.Refusal
import Recalc.Proofs.Sheet.Retyping
import Recalc.Proofs.Sheet.Solution
import Recalc.Proofs.Sheet.Structure
import Recalc.Proofs.Sheet.Wiring
import Recalc.Proofs.Text.Utf8
import Recalc.Sheet.Pass
import Recalc.Proofs.Address.Ordering
