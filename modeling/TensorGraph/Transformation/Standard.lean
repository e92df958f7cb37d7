import TensorGraph.Transformation.GatherAxes
import TensorGraph.Transformation.Identities
import TensorGraph.Transformation.InputQueues
import TensorGraph.Transformation.ReshapePatterns

/-!
The transformations of a standard pipeline.
-/

namespace TensorGraph.Transformation

/-- The transformations that a pipeline has unless told otherwise. -/
def standard : List Transformation :=
  [replaceQueues, removeIdentity, pinReshapes, normalizeGatherAxes]

end TensorGraph.Transformation
