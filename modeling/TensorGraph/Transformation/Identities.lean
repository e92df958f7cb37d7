import TensorGraph.Transformation.Basic

/-!
An `Identity` between two data nodes is removed by merging the two. One that feeds an output of
the model stays, because the output keeps its name.
-/

namespace TensorGraph

namespace Graph

def feedsResult (g : Graph) (data : NodeId) : Except Error Bool := do
  let readers ← (← g.consumers data).mapM fun e => g.node e.dst
  return readers.any (·.isOpOf "Result")

end Graph

namespace Edit

/-- Removes an identity that has an input and an output and feeds no output of the model. -/
def removeIdentity (id : NodeId) : Edit Unit := do
  match ← query (·.inputData id 0), ← query (·.outputData id 0) with
  | some input, some output =>
    if ← query (·.feedsResult output) then pure ()
    else
      note .debug ("Removing identity " ++ (← query (·.node id)).name)
      mergeData input output
      removeNode id true
      mark input
  | _, _ => pure ()

end Edit

def Transformation.removeIdentity : Transformation where
  descriptor := { Descriptor.ofKind .pattern "RemoveIdentity" .middle with mode := .fixedPoint }
  apply := do
    ((← Edit.current).opNodesOf "Identity").forM Edit.removeIdentity

end TensorGraph
