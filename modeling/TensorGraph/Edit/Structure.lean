import TensorGraph.Edit.Basic
import TensorGraph.Graph.Neighbours

/-!
Edits that add, remove and connect nodes. They keep edges between an operation and a data node,
one producer for each data node, and at most one edge on a port of an operation.
-/

namespace TensorGraph.Edit

/-! ### Nodes -/

def addNode (name : String) (content : Content) : Edit NodeId := do
  let g ← current
  if hfree : g.contains name = false then
    change fun _ => g.pushNode ⟨name, content⟩ hfree
    return ⟨g.records.next⟩
  else fail (GraphFault.nameTaken name)

def addOp (name : String) (o : Operation) : Edit NodeId := addNode name (.op o)

def addData (name : String) (f : Fact) : Edit NodeId := addNode name (.data f)

def touch (id : NodeId) : Edit Node := do
  change fun g => g
  query (·.node id)

/-- Changes an operation. The revision moves on even if the node is none. -/
def modifyOp (id : NodeId) (f : Operation → Operation) : Edit Unit := do
  change (·.modifyOp id f)
  let _ ← query (·.operation id)

def modifyFact (id : NodeId) (f : Fact → Fact) : Edit Unit := do
  change (·.modifyFact id f)
  let _ ← query (·.fact id)

def setAttribute (id : NodeId) (name : String) (value : Attribute) : Edit Unit :=
  modifyOp id (·.withAttribute name value)

/-! ### Edges -/

def addEdge (src dst : NodeId) (out inp : Nat) : Edit EdgeId := do
  let g ← current
  let ⟨s, hs⟩ ← g.record src
  let ⟨d, hd⟩ ← g.record dst
  ensure (s.isOp ≠ d.isOp) (GraphFault.sameKind s.name d.name)
  if d.isData then
    ensure (d.inputs = []) (GraphFault.hasProducer d.name)
    ensure (inp = 0) (GraphFault.dataInput d.name)
    ensure (∀ e ∈ g.edgesOf s.outputs, e.out ≠ out) (GraphFault.outputTaken out s.name)
  else
    ensure (out = 0) (GraphFault.dataOutput s.name)
    ensure (∀ e ∈ g.edgesOf d.inputs, e.inp ≠ inp) (GraphFault.inputTaken inp d.name)
  change fun _ => g.pushLink ⟨src, dst, out, inp⟩ (Graph.node?_isSome hs) (Graph.node?_isSome hd)
  return ⟨g.connections.next⟩

def removeEdge (id : EdgeId) : Edit Edge := do
  let e ← query (·.edge id)
  change (·.eraseEdge id)
  return e

def removeEdges (ids : List EdgeId) : Edit Unit := ids.forM fun id => discard (removeEdge id)

def renumberOutput (id : EdgeId) (port : Nat) : Edit Unit := do
  let _ ← query (·.edge id)
  change (·.setOutPort id port)

/-- Removes a node. One with edges is removed only with `cascade`, and the edges with it. -/
def removeNode (id : NodeId) (cascade : Bool) : Edit Unit := do
  let g ← current
  let ⟨r, _⟩ ← g.record id
  let edges := r.inputs ++ r.outputs
  ensure (edges = [] ∨ cascade) (GraphFault.connected r.name edges.length)
  removeEdges edges
  change (·.eraseNode id)

def removeNamed (name : String) (cascade : Bool) : Edit Unit := do
  removeNode (← query (·.nodeId name)) cascade

/-! ### Moving edges -/

def rewireInput (op : NodeId) (port : Nat) (data : NodeId) : Edit Unit := do
  match (← query (·.inEdges op)).find? fun e => e.inp == port with
  | some e => discard (removeEdge e.id)
  | none => pure ()
  discard (addEdge data op 0 port)

def moveConsumer (data : NodeId) (e : Edge) : Edit Unit := do
  let _ ← removeEdge e.id
  discard (addEdge data e.dst 0 e.inp)

/-- Moves the consumers of `drop` to `keep` and removes `drop`. -/
def mergeData (keep drop : NodeId) : Edit Unit := do
  ensure (keep ≠ drop) (GraphFault.mergeSelf keep)
  let _ ← query (·.fact keep)
  let _ ← query (·.fact drop)
  (← query (·.consumers drop)).forM (moveConsumer keep)
  removeNode drop true

/-- Adds a copy of a data node and moves the given edges to it. -/
def splitData (data : NodeId) (edges : List EdgeId) (name : String) : Edit NodeId := do
  let f ← query (·.fact data)
  let moved ← query fun g => edges.mapM g.edge
  match moved.find? fun e => e.src ≠ data with
  | some e => fail (GraphFault.foreignEdge e.id data)
  | none => pure ()
  let copy ← addData name f
  moved.forM (moveConsumer copy)
  return copy

/-! ### What is due for inference -/

def markOp (id : NodeId) : Edit Unit := do
  if (← query (·.operation id)).needsInference then pure ()
  else modifyOp id fun o => { o with needsInference := true }

/-- Marks an operation, or the consumers of a data node, for inference. -/
def mark (id : NodeId) : Edit Unit := do
  if (← query (·.node id)).isOp then markOp id
  else (← query (·.consumers id)).forM fun e => markOp e.dst

end TensorGraph.Edit
