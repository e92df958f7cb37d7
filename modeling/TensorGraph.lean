import TensorGraph.Attribute
import TensorGraph.Decimal.Binary
import TensorGraph.Decimal.Digits
import TensorGraph.Decimal.Style
import TensorGraph.Dict
import TensorGraph.Edit.Basic
import TensorGraph.Edit.Builder
import TensorGraph.Edit.Cleanup
import TensorGraph.Edit.PortSpec
import TensorGraph.Edit.Structure
import TensorGraph.Elementwise.Binary
import TensorGraph.Elementwise.Erf
import TensorGraph.Elementwise.Unary
import TensorGraph.Error
import TensorGraph.Graph.Basic
import TensorGraph.Graph.Compare
import TensorGraph.Graph.Ledger
import TensorGraph.Graph.Neighbours
import TensorGraph.Graph.Order
import TensorGraph.Graph.Reach
import TensorGraph.Graph.Text
import TensorGraph.Id
import TensorGraph.Inference.Engine
import TensorGraph.Inference.Registry
import TensorGraph.Inference.Rule
import TensorGraph.Inference.Rules.Convert
import TensorGraph.Inference.Rules.Elementwise
import TensorGraph.Inference.Rules.Gather
import TensorGraph.Inference.Rules.Product
import TensorGraph.Inference.Rules.Proposals
import TensorGraph.Inference.Rules.Reshape
import TensorGraph.Inference.Rules.Source
import TensorGraph.Inference.Rules.SparseReshape
import TensorGraph.Inference.Standard
import TensorGraph.Inference.View
import TensorGraph.Inference.Write
import TensorGraph.Log
import TensorGraph.Node
import TensorGraph.Pipeline.Basic
import TensorGraph.Pipeline.Schedule
import TensorGraph.Pipeline.Session
import TensorGraph.Proofs.Agreements
import TensorGraph.Proofs.Akin
import TensorGraph.Proofs.Applied
import TensorGraph.Proofs.BatchSizes
import TensorGraph.Proofs.Broadcasts
import TensorGraph.Proofs.Calm
import TensorGraph.Proofs.Clashes
import TensorGraph.Proofs.Cleanups
import TensorGraph.Proofs.Clearings
import TensorGraph.Proofs.Coherence
import TensorGraph.Proofs.Commuting
import TensorGraph.Proofs.Comparisons
import TensorGraph.Proofs.Constants
import TensorGraph.Proofs.Contents
import TensorGraph.Proofs.Countdowns
import TensorGraph.Proofs.Cycles
import TensorGraph.Proofs.Dequeues
import TensorGraph.Proofs.Edits
import TensorGraph.Proofs.Effects
import TensorGraph.Proofs.Elementwise
import TensorGraph.Proofs.EvalOrders
import TensorGraph.Proofs.Exchanges
import TensorGraph.Proofs.FixedPoints
import TensorGraph.Proofs.Floats
import TensorGraph.Proofs.Folding
import TensorGraph.Proofs.Footprints
import TensorGraph.Proofs.Forgetting
import TensorGraph.Proofs.Forwarding
import TensorGraph.Proofs.Gaps
import TensorGraph.Proofs.Gathers
import TensorGraph.Proofs.Graphs
import TensorGraph.Proofs.Grids
import TensorGraph.Proofs.Idempotence
import TensorGraph.Proofs.Identities
import TensorGraph.Proofs.Incremental
import TensorGraph.Proofs.InferenceFrame
import TensorGraph.Proofs.InputQueues
import TensorGraph.Proofs.Interruptions
import TensorGraph.Proofs.Isomorphisms
import TensorGraph.Proofs.Marks
import TensorGraph.Proofs.Merges
import TensorGraph.Proofs.Mutations
import TensorGraph.Proofs.Names
import TensorGraph.Proofs.Optimized
import TensorGraph.Proofs.Orderly
import TensorGraph.Proofs.Orders
import TensorGraph.Proofs.Owned
import TensorGraph.Proofs.Passes
import TensorGraph.Proofs.Pinning
import TensorGraph.Proofs.Poised
import TensorGraph.Proofs.Precision
import TensorGraph.Proofs.Preservation
import TensorGraph.Proofs.Products
import TensorGraph.Proofs.Prunings
import TensorGraph.Proofs.QueueRuns
import TensorGraph.Proofs.Reach
import TensorGraph.Proofs.Refusals
import TensorGraph.Proofs.Repatterns
import TensorGraph.Proofs.Repinning
import TensorGraph.Proofs.Replacements
import TensorGraph.Proofs.Reshapes
import TensorGraph.Proofs.Resolving
import TensorGraph.Proofs.Retained
import TensorGraph.Proofs.Revisions
import TensorGraph.Proofs.Rewrites
import TensorGraph.Proofs.RuleRuns
import TensorGraph.Proofs.RuleSpecs
import TensorGraph.Proofs.Runs
import TensorGraph.Proofs.Scenes
import TensorGraph.Proofs.Schedules
import TensorGraph.Proofs.SecondRuns
import TensorGraph.Proofs.Sessions
import TensorGraph.Proofs.Settled
import TensorGraph.Proofs.ShapeBounds
import TensorGraph.Proofs.ShapeOrder
import TensorGraph.Proofs.Sites
import TensorGraph.Proofs.SparseIndices
import TensorGraph.Proofs.SparseReshapes
import TensorGraph.Proofs.Splices
import TensorGraph.Proofs.StandardRules
import TensorGraph.Proofs.Statements
import TensorGraph.Proofs.Structure
import TensorGraph.Proofs.Successes
import TensorGraph.Proofs.Swaps
import TensorGraph.Proofs.Sweeps
import TensorGraph.Proofs.Transformations
import TensorGraph.Proofs.Unsqueezes
import TensorGraph.Proofs.Upheld
import TensorGraph.Proofs.Verdicts
import TensorGraph.Proofs.Visits
import TensorGraph.Proofs.Volumes
import TensorGraph.Proofs.WellFormed
import TensorGraph.Proofs.Written
import TensorGraph.Remaining
import TensorGraph.Shape.Basic
import TensorGraph.Shape.Broadcast
import TensorGraph.Shape.Product
import TensorGraph.Shape.Reshape
import TensorGraph.Shape.Unsqueeze
import TensorGraph.Slots
import TensorGraph.Sorted
import TensorGraph.Stage
import TensorGraph.Tensor.Basic
import TensorGraph.Tensor.Closeness
import TensorGraph.Tensor.ElementType
import TensorGraph.Tensor.Elementwise
import TensorGraph.Tensor.Gather
import TensorGraph.Tensor.Grid
import TensorGraph.Tensor.Layout
import TensorGraph.Tensor.Product
import TensorGraph.Tensor.SparseIndices
import TensorGraph.Tensor.Text
import TensorGraph.Text.Listing
import TensorGraph.Text.Numeral
import TensorGraph.Text.Quoted
import TensorGraph.Text.Shapeless
import TensorGraph.Transformation.Basic
import TensorGraph.Transformation.GatherAxes
import TensorGraph.Transformation.Identities
import TensorGraph.Transformation.InputQueues
import TensorGraph.Transformation.ReshapePatterns
import TensorGraph.Transformation.Standard
