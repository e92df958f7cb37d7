import TensorGraph.Graph.Neighbours
import TensorGraph.Remaining

/-!
All nodes on paths along the edges, or against them, from given nodes, these included.
-/

namespace TensorGraph.Graph

/-- The nodes seen, those waiting, and what `next` leads to from them. -/
def closure (g : Graph) (next : NodeId → List NodeId) (seen : List NodeId) :
    List NodeId → List NodeId
  | [] => seen
  | id :: waiting =>
    if id ∈ seen then g.closure next seen waiting
    else if _live : id ∈ g.nodeIds then g.closure next (id :: seen) (next id ++ waiting)
    else g.closure next seen waiting
termination_by waiting =>
  remaining (fun id => (next id).length) seen g.nodeIds + waiting.length
decreasing_by
  · simp
  · have := remaining_cons_add_lt (fun id => (next id).length) _live ‹id ∉ seen›
    simp only [List.length_append, List.length_cons]
    omega
  · simp

def ancestors (g : Graph) (starts : List NodeId) : List NodeId := g.closure g.sources [] starts

def descendants (g : Graph) (starts : List NodeId) : List NodeId := g.closure g.targets [] starts

end TensorGraph.Graph
