import TensorGraph.Edit.Builder

/-!
A transformation is an edit that looks for a pattern in a graph and replaces it, together with a
descriptor that says when it runs. Applying one twice should leave the graph as applying it once
did.
-/

namespace TensorGraph

inductive ChangeKind where
  /-- The structure, so that the graph is cleaned up and inferred again afterwards. -/
  | pattern
  /-- Attributes only. -/
  | attributesOnly
deriving DecidableEq, Repr

inductive RunMode where
  | once
  /-- Until the graph stays as it is. -/
  | fixedPoint
deriving DecidableEq, Repr

structure Descriptor where
  id : String
  stage : Stage
  /-- The transformations that it runs after. -/
  after : List String
  /-- The transformations that it runs before. -/
  before : List String
  kind : ChangeKind
  mode : RunMode
deriving DecidableEq, Repr

/-- A descriptor without dependencies, of a transformation that is applied once. -/
def Descriptor.ofKind (kind : ChangeKind) (id : String) (stage : Stage) : Descriptor :=
  ⟨id, stage, [], [], kind, .once⟩

/-- An edit of graphs and when it runs. -/
structure Transformation where
  descriptor : Descriptor
  apply : Edit Unit

/-! ### What transformations have in common -/

namespace Graph

/-- The names to try for a new node: the name itself, and the name with a number behind it. -/
def nameCandidates (g : Graph) (base : String) : List String :=
  base :: (List.range g.size).map fun i => base ++ "." ++ toString (i + 1)

/-- The first candidate that is free. There are more candidates than nodes, so one is. -/
def uniqueName (g : Graph) (base : String) : String :=
  ((g.nameCandidates base).find? fun name => !g.contains name).getD base

end Graph

namespace Edit

def markNeighbourhood (op : NodeId) : Edit Unit := do
  mark op
  (← query (·.outputs op)).forM mark

def setConstValue (op : NodeId) (value : Tensor) : Edit Unit := do
  setAttribute op "value" (.tensor value)
  (← query (·.outputs op)).forM fun data => modifyFact data fun _ => .ofValue value

end Edit

end TensorGraph
