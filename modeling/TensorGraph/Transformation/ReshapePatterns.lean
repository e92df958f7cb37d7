import TensorGraph.Transformation.Basic
import TensorGraph.Shape.Reshape

/-!
A constant pattern `[a, b]` that reshapes one operand of a `MatMul` is changed to name only the
inner dimension, which the other operand fixes, and to leave the other to `-1`. Then the model
works for every batch size.
-/

namespace TensorGraph

inductive Operand where
  | left
  | right
deriving DecidableEq, Repr

namespace Operand

def port : Operand → Nat
  | left => 0
  | right => 1

def other : Operand → Operand
  | left => right
  | right => left

/-- The inner dimension of a product, read off the shape of the operand that faces this one. -/
def innerDim? (o : Operand) (facing : Shape) (transposeA transposeB : Bool) : Option Int :=
  let last := match o with
    | left => transposeB
    | right => !transposeA
  match facing.reverse with
  | n :: m :: _ => some (if last then n else m)
  | _ => none

/-- The pattern that names the inner dimension at its place in this operand. -/
def pinned (o : Operand) (inner : Int) (transposeA transposeB : Bool) : Shape :=
  let first := match o with
    | left => transposeA
    | right => !transposeB
  if first then [inner, -1] else [-1, inner]

end Operand

namespace Graph

def flag (g : Graph) (op : NodeId) (name : String) (default : Bool) : Except Error Bool := do
  return (((← g.operation op).attributes.find? name).bind (·.toBool?)).getD default

/-- The shape of the data on an input port, if it is connected and known. -/
def knownShape (g : Graph) (op : NodeId) (port : Nat) : Except Error (Option Shape) := do
  match ← g.inputData op port with
  | some data => return (← g.fact data).shape
  | none => return none

def comesFrom (g : Graph) (op : NodeId) (port : Nat) (kinds : List String) :
    Except Error Bool := do
  match ← g.producerOp op port with
  | some p =>
    let n ← g.node p
    return kinds.any n.isOpOf
  | none => return false

/-- The pattern for a reshape of an operand of a product, if the other operand fixes one. -/
def newPattern (g : Graph) (matmul : NodeId) (o : Operand) : Except Error (Option Shape) := do
  let transposeA ← g.flag matmul "transpose_a" false
  let transposeB ← g.flag matmul "transpose_b" false
  if ← g.comesFrom matmul o.other.port ["Reshape", "Transpose"] then return none
  let some facing ← g.knownShape matmul o.other.port | return none
  let some inner := o.innerDim? facing transposeA transposeB | return none
  if inner < 0 then return none
  return some (o.pinned inner transposeA transposeB)

structure ReshapeSite where
  reshape : NodeId
  constant : NodeId
  data : NodeId
  pattern : Shape

/-- The reshape by a constant pattern of two dimensions that feeds an operand of a product. -/
def reshapeSite (g : Graph) (matmul : NodeId) (o : Operand) :
    Except Error (Option ReshapeSite) := do
  let some reshape ← g.producerOp matmul o.port | return none
  if !(← g.node reshape).isOpOf "Reshape" then return none
  let some data ← g.inputData reshape 1 | return none
  let some constant ← g.producer data | return none
  if !(← g.node constant).isOpOf "Const" then return none
  let some value := (← g.fact data).value | return none
  let pattern := value.toInts
  if pattern.length ≠ 2 then return none
  return some ⟨reshape, constant, data, pattern⟩

def sameReshape (input before after : Shape) (copyZero : Bool) : Bool :=
  match Shape.reshape input before copyZero, Shape.reshape input after copyZero with
  | .ok x, .ok y => x == y
  | _, _ => false

/-- The pattern to write at a site, as a tensor holds it, if it differs from the one there and means
the same. -/
def replacement (g : Graph) (matmul : NodeId) (o : Operand) (s : ReshapeSite) :
    Except Error (Option Shape) := do
  let some pattern ← g.newPattern matmul o | return none
  let new := (Tensor.ofInts pattern).toInts
  if s.pattern = new then return none
  let some input ← g.knownShape s.reshape 0 | return none
  let copyZero ← g.flag s.reshape "special_zero" true
  return if sameReshape input s.pattern new copyZero then some new else none

end Graph

namespace Edit

/-- Writes a pattern, into a constant of its own if others read the one there. -/
def writePattern (s : Graph.ReshapeSite) (name : String) (pattern : Shape) : Edit Unit := do
  if 1 < (← query (·.consumers s.data)).length then
    let fresh ← addConst ((← current).uniqueName (name ++ "/pattern")) (.ofInts pattern)
    rewireInput s.reshape 1 fresh
  else setConstValue s.constant (.ofInts pattern)

/-- Pins the reshape of an operand of a product, if the other operand fixes its pattern. -/
def pinReshape (matmul : NodeId) (o : Operand) : Edit Unit := do
  let some site ← query (·.reshapeSite matmul o) | pure ()
  let some new ← query (·.replacement matmul o site) | pure ()
  let name := (← query (·.node site.reshape)).name
  note .info (name ++ ": reshape pattern " ++ Text.listing site.pattern ++ " rewritten to " ++
    Text.listing new)
  writePattern site name new
  markNeighbourhood site.reshape

def pinReshapes (matmul : NodeId) : Edit Unit := do
  pinReshape matmul .left
  pinReshape matmul .right

end Edit

def Transformation.pinReshapes : Transformation where
  descriptor := { Descriptor.ofKind .pattern "HcReshapeMatMulFold" .back with
    after := ["RemoveIdentity"] }
  apply := do
    ((← Edit.current).opNodesOf "MatMul").forM Edit.pinReshapes

end TensorGraph
