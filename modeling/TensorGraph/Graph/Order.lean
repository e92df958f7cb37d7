import TensorGraph.Graph.Reach

/-!
An order in which every node comes after those it depends on. The search goes through the inputs
of a node in port order before the node itself; coming back to a node whose inputs are still
being gone through shows a cycle.
-/

namespace TensorGraph.Graph

/-- Goes through the stack of nodes needed. `done` holds the nodes in place, the last one first,
and `pending` those whose inputs have been put on the stack. -/
def arrange (g : Graph) (done pending : List NodeId) : List NodeId → Except Error (List NodeId)
  | [] => .ok done.reverse
  | id :: stack =>
    if id ∈ done then g.arrange done pending stack
    else
      match _live : g.node? id with
      | none => .error (Reference.node id)
      | some n =>
        let inputs := g.sources id
        if inputs.all (· ∈ done) then g.arrange (id :: done) pending stack
        else if id ∈ pending then .error (GraphFault.cycle n.name)
        else g.arrange done (id :: pending) (inputs.filter (· ∉ done) ++ id :: stack)
termination_by stack =>
  remaining (fun id => (g.sources id).length) pending g.nodeIds + stack.length
decreasing_by
  · simp
  · simp
  · have hlive : id ∈ g.nodeIds := mem_nodeIds.2 (by simp [_live])
    have := remaining_cons_add_lt (fun id => (g.sources id).length) hlive ‹id ∉ pending›
    have := List.length_filter_le (fun i => decide (i ∉ done)) (g.sources id)
    simp only [List.length_append, List.length_cons]
    omega

/-- The nodes that the targets depend on, the targets included, each after its inputs. -/
def evalOrderFor (g : Graph) (targets : List NodeId) : Except Error (List NodeId) :=
  g.arrange [] [] targets

def evalOrder (g : Graph) : Except Error (List NodeId) :=
  g.evalOrderFor (g.sinks ++ g.nodeIds)

end TensorGraph.Graph
