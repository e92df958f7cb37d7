import TensorGraph.Transformation.Basic

/-!
Writes the axis of a `GatherElements` without a sign, once the rank of its data is known.
-/

namespace TensorGraph

namespace Graph

/-- The attribute `axis` of an operation, if it reads as an integer. -/
def axis? (g : Graph) (op : NodeId) : Except Error (Option Int) := do
  return ((← g.operation op).attributes.find? "axis").bind (·.toInt?)

/-- The rank of the data on input port 0 of an operation, if its shape is known. -/
def dataRank? (g : Graph) (op : NodeId) : Except Error (Option Nat) := do
  match ← g.inputData op 0 with
  | some data => return (← g.fact data).shape.map (·.length)
  | none => return none

end Graph

namespace Edit

def normalizeGatherAxis (op : NodeId) : Edit Unit := do
  let some axis ← query (·.axis? op) | pure ()
  if 0 ≤ axis then pure ()
  else
    let some rank ← query (·.dataRank? op) | pure ()
    setAttribute op "axis" (.int (← Shape.normalizeAxis axis (Shape.signed rank)))

end Edit

def Transformation.normalizeGatherAxes : Transformation where
  descriptor := .ofKind .attributesOnly "GatherElementsAxisNormalizer" .back
  apply := do
    ((← Edit.current).opNodesOf "GatherElements").forM Edit.normalizeGatherAxis

end TensorGraph
