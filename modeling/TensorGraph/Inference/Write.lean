import TensorGraph.Edit.Structure
import TensorGraph.Inference.Rule

/-!
Carries out the writes of a rule on the graph. A write that would change nothing is not made, so
the revision moves only when something did, and every data node changed is recorded.
-/

namespace TensorGraph

/-- How far a rule has come: the attributes as it sees them and the data nodes it changed, the
first one first. -/
structure RuleState where
  attributes : Attributes
  changed : List NodeId

def RuleState.record (s : RuleState) (id : NodeId) : RuleState :=
  if id ∈ s.changed then s else { s with changed := s.changed ++ [id] }

namespace Edit

def writeFact (id : NodeId) (f : Fact) (s : RuleState) : Edit RuleState := do
  if (← query (·.fact id)) == f then return s
  modifyFact id fun _ => f
  return s.record id

def writeOutput (op : NodeId) (port : Nat) (f : Fact) (s : RuleState) : Edit RuleState := do
  match ← query (·.outputData op port) with
  | some data => writeFact data f s
  | none => return s

/-- Sets an attribute of an operation, unless it has that value already. -/
def writeAttribute (op : NodeId) (name : String) (value : Attribute) : Edit Unit := do
  if (← query (·.operation op)).attributes.find? name == some value then pure ()
  else setAttribute op name value

/-- Gives the constant that a data node comes from a value, if it comes from one. -/
def writeProducer (data : NodeId) (value : Tensor) : Edit Unit := do
  match ← query (·.producer data) with
  | none => pure ()
  | some op =>
    if (← query (·.operation op)).kind == "Const" then writeAttribute op "value" (.tensor value)

/-- Gives an input of an operation a value, unless it has other consumers. -/
def writeInput (op : NodeId) (name : String) (port : Nat) (value : Tensor) (s : RuleState) :
    Edit RuleState := do
  if ← query (·.inputIsShared op port) then
    note .debug (name ++ ": input " ++ toString port ++ " is shared, not rewriting it")
    return s
  let data ← query (·.connectedInput op port)
  writeProducer data value
  writeFact data (.ofValue value) s

def performWrite (op : NodeId) (name : String) (s : RuleState) : Write → Edit RuleState
  | .attr key value => do
    writeAttribute op key value
    return { s with attributes := s.attributes.insert key value }
  | .inputValue port value => writeInput op name port value s
  | .outputShape port shape =>
    match shape.find? (· < -1) with
    | some bad => fail (Cause.inference name (.dimension bad shape))
    | none => writeOutput op port (.ofShape shape) s
  | .outputValue port value => writeOutput op port (.ofValue value) s
  | .outputUnknown port => writeOutput op port .unknown s

def runRule {α : Type} (op : NodeId) (name : String) : RuleM α → RuleState → Edit (α × RuleState)
  | .done a, s => return (a, s)
  | .fail e, _ => fail e
  | .inspect next, s => do
    let g ← current
    runRule op name (next ⟨g.scene op name s.attributes, g, op⟩) s
  | .note level text next, s => do
    note level text
    runRule op name next s
  | .write w next, s => do
    match ← attempt (performWrite op name s w) with
    | .ok s => runRule op name (next (.ok ())) s
    | .error e => runRule op name (next (.error e)) s

end Edit

end TensorGraph
