import TensorGraph.Graph.Reach
import TensorGraph.Transformation.Basic

/-!
A queue that feeds a model, with the operation that takes batches out of it, is replaced by an
input of the model named after the queue. It stands for the first tensor of a batch; the others
are dropped with all that depends only on them.
-/

namespace TensorGraph

/-- The shape of the first tensor of a batch: the first row of a matrix of shapes, or a list. -/
def firstShape : Attribute → Option Shape
  | .tensor t =>
    match t.shape with
    | [rows, columns] => if rows = 0 then none else some (t.toInts.take columns)
    | _ => (Attribute.tensor t).toInts?
  | a => a.toInts?

namespace Graph

/-- The shape that the operation behind an input port declares, if it has two dimensions or more. -/
def declaredShape (g : Graph) (op : NodeId) (port : Nat) : Except Error (Option Shape) := do
  let some source ← g.producerOp op port | return none
  let shape := ((← g.operation source).attributes.find? "shape").bind (·.toInts?)
  return shape.filter (1 < ·.length)

/-- The shape of the first tensor that is taken out of a queue. -/
def dequeuedShape (g : Graph) (dequeue queue : NodeId) : Except Error (Option Shape) := do
  let ofQueue := ((← g.operation queue).attributes.find? "shapes").bind firstShape
  return (← g.declaredShape dequeue 0).or ofQueue

/-- The inputs of an operation that nothing else reads, each with the operation it comes from. -/
def ownInputs (g : Graph) (op : NodeId) : Except Error (List NodeId) := do
  let own ← (← g.inputs op).mapM fun input => do
    if (← g.consumers input).length = 1 then
      return input :: (← g.producer input).toList
    else return []
  return own.flatten

/-- What depends on other outputs of an operation than `kept` and not on `kept` itself. -/
def dependents (g : Graph) (op kept : NodeId) : List NodeId :=
  let keep := g.descendants [kept]
  let drop := g.descendants ((g.targets op).filter (· ≠ kept))
  g.nodeIds.filter fun id => id ∈ drop && id ∉ keep

end Graph

namespace Edit

def removeLive (id : NodeId) : Edit Unit := do
  if ((← current).node? id).isSome then removeNode id true

/-- Puts an input of the model in the place of a queue whose first tensor is `image`. -/
def replaceImage (dequeue queue image : NodeId) (shape : Shape) : Edit Unit := do
  let g ← current
  let queueName := (← g.node queue).name
  let own ← g.ownInputs dequeue
  let consumers ← g.consumers image
  (g.dependents dequeue image ++ own ++ [image, dequeue]).forM removeLive
  let name := (← current).uniqueName queueName
  let (parameter, data) ← addOpWithData name ((Operation.ofKind "Parameter").withAttribute "shape"
    (.ints shape))
  modifyFact data fun _ => .ofShape shape
  consumers.forM fun e => discard (addEdge data e.dst 0 e.inp)
  note .info ("Replaced queue " ++ queueName ++ " by " ++ name ++ ", a " ++ Text.listing shape ++
    " parameter")
  markNeighbourhood parameter

def replaceQueue (dequeue : NodeId) : Edit Unit := do
  let some queue ← query (·.producerOp dequeue 1) | pure ()
  let n ← query (·.node queue)
  if !n.isOpOf "FIFOQueueV2" then return
  let some image ← query (·.outputData dequeue 0) | pure ()
  match ← query (·.dequeuedShape dequeue queue) with
  | some shape => replaceImage dequeue queue image shape
  | none =>
    note .warn (n.name ++ ": no shape for the dequeued tensor, queue left in place")

end Edit

def Transformation.replaceQueues : Transformation where
  descriptor := .ofKind .pattern "FifoQueueReplacer" .front
  apply := do
    ((← Edit.current).opNodesOf "QueueDequeueUpToV2").forM Edit.replaceQueue

end TensorGraph
