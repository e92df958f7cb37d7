/-!
Nodes and edges of a graph are known by their numbers, which are of two types so that they
cannot be mixed up.
-/

namespace TensorGraph

structure NodeId where
  index : Nat
deriving DecidableEq, Repr, Inhabited

structure EdgeId where
  index : Nat
deriving DecidableEq, Repr, Inhabited

/-- How messages write the number of a node. -/
def NodeId.text (id : NodeId) : String := "#" ++ toString id.index

def EdgeId.text (id : EdgeId) : String := "#" ++ toString id.index

end TensorGraph
