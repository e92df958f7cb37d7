import TensorGraph.Edit.Structure
import TensorGraph.Graph.Reach

/-!
A clean-up removes what no output of the model depends on and closes gaps in the output ports of the
operations that stay.
-/

namespace TensorGraph

open Text

namespace Graph

/-- Where liveness starts: the outputs of the model, or every sink when there is none. -/
def roots (g : Graph) : List NodeId :=
  match g.opNodesOf "Result" with
  | [] => g.sinks
  | results => results

/-- The nodes that stay: those the roots depend on, and every output of the operations among
them. -/
def live (g : Graph) : List NodeId :=
  let needed := g.ancestors g.roots
  needed ++ (g.opNodes.filter (· ∈ needed)).flatMap g.targets

def isolatedData (g : Graph) : List NodeId :=
  (g.records.entries.filter fun e =>
    e.2.isData && e.2.inputs.isEmpty && e.2.outputs.isEmpty).map (·.2.id)

end Graph

/-- What a clean-up did: the names of the nodes removed, in order, and how many edges got another
output port. -/
structure CleanupReport where
  removed : List String
  renumbered : Nat
deriving DecidableEq, Repr

namespace CleanupReport

def isNoop (r : CleanupReport) : Bool := r.removed.isEmpty && r.renumbered == 0

def describe (r : CleanupReport) : String :=
  "CleanupReport \x7b removed_nodes: " ++ bracketed (r.removed.map quoted) ++
    ", renumbered_ports: " ++ toString r.renumbered ++ " \x7d"

def summary (r : CleanupReport) : String :=
  "Cleanup removed " ++ toString r.removed.length ++ " node(s) " ++ bracketed r.removed ++
    ", renumbered " ++ toString r.renumbered ++ " port(s)"

end CleanupReport

namespace Edit

def removeNodes (ids : List NodeId) : Edit (List String) := ids.mapM fun id => do
  let n ← query (·.node id)
  removeNode id true
  return n.name

def portsOf (edges : List Edge) : List Nat := (edges.map (·.out)).eraseDups

/-- Moves the edges out of an operation to the output ports from 0 on, keeping their order, and
gives how many had to move. -/
def compactOutputs (op : NodeId) : Edit Nat := do
  let edges ← query (·.outEdges op)
  let ports := portsOf edges
  let moved := edges.filter fun e => ports.idxOf e.out ≠ e.out
  moved.forM fun e => renumberOutput e.id (ports.idxOf e.out)
  return moved.length

/-- Removes the nodes that are not live, then data nodes left without edges, then closes the gaps
in the output ports, except of operations of a kind for which `fixed` holds. -/
def cleanUp (fixed : String → Bool) : Edit CleanupReport := do
  let g ← current
  let live := g.live
  let dead ← removeNodes (g.nodeIds.filter (· ∉ live))
  let isolated ← removeNodes (← current).isolatedData
  let g ← current
  let movable := (g.entries.filter fun e =>
    match e.2.operation? with
    | some o => !fixed o.kind
    | none => false).map (·.1)
  let moved ← movable.mapM compactOutputs
  let names := sortBy (fun a b => decide (a ≤ b)) (dead ++ isolated)
  let report : CleanupReport := ⟨names, moved.foldl (· + ·) 0⟩
  if report.isNoop then return report
  note .debug report.summary
  return report

end Edit

end TensorGraph
