import TensorGraph.Graph.Order
import TensorGraph.Inference.Registry
import TensorGraph.Inference.Write

/-!
Runs the rules of operations, each after those it depends on. A run over the marked operations
also visits the operations that read data changed earlier in the run, so that it ends with
nothing left to do.
-/

namespace TensorGraph.Registry

/-- The error of the rule of an operation: an error of a kind of its own is passed on, any other
becomes the reason why inference failed. -/
def ruleError (name : String) (e : Error) : Error :=
  if e.cause.isTyped then e.within ("Inferring node " ++ name)
  else Cause.inference name (.rule e.message)

/-- Is the shape of some input unknown? Inputs are asked in port order. -/
def hasUnknownInput (g : Graph) : List NodeId → Except Error Bool
  | [] => return false
  | id :: rest => do
    if (← g.fact id).shape.isNone then return true
    hasUnknownInput g rest

def missing? (e : OpEntry) (o : Operation) : Option String :=
  e.required.find? fun name => !o.attributes.contains name

/-- Runs the rule of an operation, or leaves its outputs unknown when the shape of some input is,
and gives the data nodes changed. -/
def applyRule (rule : Rule) (id : NodeId) (name : String) (attributes : Attributes) :
    Edit (List NodeId) := do
  let start : RuleState := ⟨attributes, []⟩
  if ← Edit.query fun g => do hasUnknownInput g (← g.inputs id) then
    Edit.note .debug (name ++ ": an input shape is unresolved, outputs left unresolved")
    return (← Edit.runRule id name RuleM.setOutputsUnknown start).2.changed
  match ← (Edit.runRule id name rule start).attempt with
  | .ok (_, s) => return s.changed
  | .error e => Edit.fail (ruleError name e)

def unmark (id : NodeId) : Edit Unit := do
  if (← Edit.query (·.operation id)).needsInference then
    Edit.modifyOp id fun o => { o with needsInference := false }

def noteFact (id : NodeId) : Edit Unit := do
  let n ← Edit.query (·.node id)
  let f ← Edit.query (·.fact id)
  Edit.note .trace ("  " ++ n.name ++ " -> " ++ f.describe)

/-- Infers what is known of the outputs of an operation, and gives the data nodes changed in
order. -/
def inferNode (r : Registry) (id : NodeId) : Edit (List NodeId) := do
  let n ← Edit.query (·.node id)
  let o ← Edit.query (·.operation id)
  Edit.note .trace ("Inferring " ++ n.describe id)
  let some e := r.find? o.kind | Edit.fail (Cause.unknownOp o.kind (some n.name))
  if let some name := missing? e o then
    Edit.fail (Cause.inference n.name (.missingRequired name))
  let attributes := e.defaults.union o.attributes
  let changed ← applyRule (r.ruleOf e attributes) id n.name attributes
  unmark id
  changed.forM noteFact
  return changed

/-- Infers the operations of a list that are marked or read one of the changed data nodes. Gives
how many were visited. -/
def inferAmong (r : Registry) (changed : List NodeId) (visited : Nat) : List NodeId → Edit Nat
  | [] => return visited
  | id :: rest => do
    match (← Edit.query (·.node id)).operation? with
    | none => r.inferAmong changed visited rest
    | some o =>
      let inputs ← Edit.query (·.inputs id)
      if o.needsInference || inputs.any (· ∈ changed) then
        let more ← r.inferNode id
        r.inferAmong (more ++ changed) (visited + 1) rest
      else r.inferAmong changed visited rest

/-- Infers the marked operations and all that depends on what changes. Gives how many were
visited. -/
def inferMarked (r : Registry) : Edit Nat := do
  let visited ← r.inferAmong [] 0 (← Edit.query (·.evalOrder))
  Edit.note .trace ("inference done, " ++ toString visited ++ " op(s) visited")
  return visited

def inferAll (r : Registry) : Edit Nat := do
  (← Edit.current).opNodes.forM Edit.mark
  r.inferMarked

def inferNamed (r : Registry) (name : String) : Edit (List NodeId) := do
  let id ← Edit.query (·.nodeId name)
  (r.inferNode id).within ("Inferring " ++ name)

end TensorGraph.Registry
