import TensorGraph.Edit.PortSpec
import TensorGraph.Edit.Structure

/-!
Edits that add an operation together with the data node it writes, which is named after it.
-/

namespace TensorGraph.Edit

def dataName (op : String) (port : Nat) : String :=
  if port = 0 then op ++ "_d" else op ++ "_" ++ toString port ++ "_d"

/-- Adds an operation and the data node on its output port 0. -/
def addOpWithData (name : String) (o : Operation) : Edit (NodeId × NodeId) := do
  let op ← addOp name o
  let data ← addData (dataName name 0) .unknown
  let _ ← addEdge op data 0 0
  return (op, data)

/-- Adds an input of the model of a given shape, and gives its data node. -/
def addParameter (name : String) (shape : Shape) : Edit NodeId := do
  let (_, data) ← addOpWithData name ((Operation.ofKind "Parameter").withAttribute "shape"
    (.ints shape))
  modifyFact data fun f => { f with shape := some shape }
  return data

def addConst (name : String) (value : Tensor) : Edit NodeId := do
  let (_, data) ← addOpWithData name ((Operation.ofKind "Const").withAttribute "value"
    (.tensor value))
  modifyFact data fun _ => .ofValue value
  return data

def addResult (name : String) (input : NodeId) : Edit NodeId := do
  let op ← addOp name (.ofKind "Result")
  let _ ← addEdge input op 0 0
  return op

def wireInputs (name : String) (op : NodeId) (port : Nat) : List NodeId → Edit Unit
  | [] => pure ()
  | input :: rest => do
    let _ ← within ("Wiring input " ++ toString port ++ " of " ++ name) (addEdge input op 0 port)
    wireInputs name op (port + 1) rest

/-- Adds an operation fed by the inputs in port order, and gives its data node. -/
def wire (name : String) (o : Operation) (inputs : List NodeId) : Edit NodeId := do
  let (op, data) ← addOpWithData name o
  wireInputs name op 0 inputs
  return data

/-- The data that a node gives on a port: itself, or the data node of an operation, which is
added when there is none. -/
def dataOn (spec : PortSpec) (id : NodeId) : Edit NodeId := do
  if (← query (·.node id)).isData then return id
  match ← query (·.outputData id spec.port) with
  | some data => return data
  | none =>
    let data ← addData (dataName spec.name spec.port) .unknown
    let _ ← addEdge id data spec.port 0
    return data

def connect (src dst : String) : Edit Unit := do
  let source ← PortSpec.readSource src
  let target ← PortSpec.readTarget dst
  let srcId ← query (·.nodeId source.name)
  let dstId ← query (·.nodeId target.name)
  if (← query (·.node dstId)).isData then
    discard (addEdge srcId dstId source.port 0)
  else
    discard (addEdge (← dataOn source srcId) dstId 0 target.port)

end TensorGraph.Edit
