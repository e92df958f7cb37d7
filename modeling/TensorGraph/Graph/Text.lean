import TensorGraph.Graph.Neighbours

/-!
The text of a graph has one line for each node: the node, where its inputs come from, and for data
what is known of it.
-/

namespace TensorGraph.Graph

open Text

def nodeLine (g : Graph) (id : NodeId) (n : Node) : String :=
  let inputs := (g.incoming id).map fun e => e.src.text ++ ":" ++ toString e.inp
  let head := n.describe id ++ " <- " ++ bracketed inputs
  match n.content with
  | .op _ => head
  | .data f => head ++ " " ++ optional listing f.shape ++ " " ++ optional Tensor.describe f.value

/-- The lines of all nodes, by number. -/
def describe (g : Graph) : String :=
  separated "\n" (g.entries.map fun e => g.nodeLine e.1 e.2)

end TensorGraph.Graph
