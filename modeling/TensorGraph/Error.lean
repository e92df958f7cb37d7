import TensorGraph.Id
import TensorGraph.Tensor.ElementType
import TensorGraph.Text.Listing
import TensorGraph.Text.Numeral
import TensorGraph.Text.Quoted

/-!
An error is a cause and the contexts it passed through. Each kind of cause is a type of its own,
and the wording of each is in one function. `Error.message` is the whole text, the outermost
context first.
-/

namespace TensorGraph

open Text

/-! ### Tensors -/

/-- How a number of values fails to fill a shape. -/
inductive CountMismatch where
  | overflow
  | tooFew
  | tooMany
deriving DecidableEq, Repr

def CountMismatch.message : CountMismatch → String
  | overflow => "ShapeError/Overflow: arithmetic overflow"
  | tooFew => "ShapeError/OutOfBounds: out of bounds indexing"
  | tooMany => "ShapeError/IncompatibleShape: incompatible shapes"

/-- What is wrong with a tensor or an access to one. -/
inductive TensorFault where
  | count (shape : List Nat) (values : Nat) (mismatch : CountMismatch)
  | elementType (actual asked : ElementType)
  | notSingle (shape : List Nat)
  | volume (shape target : List Nat)
  | notIndexable
  | notNumber (type : ElementType)
  | stretch (shape : List Nat)
  | stretchTo (shape target : List Nat)
deriving DecidableEq, Repr

def TensorFault.message : TensorFault → String
  | count shape values mismatch =>
    s!"Building a {listing shape} tensor from {values} values: {mismatch.message}"
  | elementType actual asked =>
    s!"Tensor datum type error: tensor is {actual.label}, accessed as {asked.label}"
  | notSingle shape => s!"to_scalar called on a tensor of shape {listing shape}"
  | volume shape target => s!"Can not reshape a {listing shape} tensor to {listing target}"
  | notIndexable => "ShapeError/IncompatibleShape: incompatible shapes"
  | notNumber type => s!"{type.label} is not a number"
  | stretch shape => s!"Broadcasting {listing shape}"
  | stretchTo shape target => s!"Broadcasting {listing shape} to {listing target}"

/-! ### Shapes -/

/-- Why no shape results from others. -/
inductive ShapeFault where
  | axis (axis rank : Int)
  | overflow (dims : List Int)
  | broadcast (a b : Int) (shapes : List (List Int))
  | patternCopy (pattern : List Int) (axis : Nat) (rank : Nat)
  | patternWildcards (pattern : List Int)
  | patternDimension (dim : Int) (pattern : List Int)
  | patternRemainder (input pattern : List Int) (volume known : Int)
  | patternVolume (input : List Int) (volume : Int) (shape : List Int) (known : Int)
  | sparseDimension (dim : Int) (shape : List Int)
  | sparseWildcards (shape : List Int)
  | sparseRemainder (input shape : List Int)
  | sparseVolume (input : List Int) (volume : Int) (shape : List Int) (known : Int)
  | sparseIndex (index dim : Int)
  | sparsePosition (shape : List Int)
  | duplicateAxis (axis : Nat) (axes : List Int)
  | productRank
  | productOperands (a b : List Int) (transposeA transposeB : Bool)
deriving DecidableEq, Repr

def ShapeFault.message : ShapeFault → String
  | .axis i rank => s!"Axis {i} is out of range for rank {rank}"
  | overflow dims => s!"Volume of {listing dims} overflows"
  | broadcast a b shapes =>
    s!"Broadcasting {bracketed (shapes.map listing)}: Can not broadcast dimensions {a} and {b}"
  | patternCopy pattern i rank =>
    s!"Pattern {listing pattern} copies axis {i} of a rank {rank} input"
  | patternWildcards pattern => s!"Pattern {listing pattern} has more than one -1"
  | patternDimension dim pattern => s!"Invalid dimension {dim} in pattern {listing pattern}"
  | patternRemainder input pattern volume known =>
    s!"Can not reshape {listing input} to {listing pattern}: {volume} elements " ++
      s!"are not divisible by {known}"
  | patternVolume input volume shape known =>
    s!"Can not reshape {listing input} ({volume} elements) to {listing shape} ({known} elements)"
  | sparseDimension dim shape => s!"Invalid dimension {dim} in new shape {listing shape}"
  | sparseWildcards shape => s!"New shape {listing shape} has more than one -1"
  | sparseRemainder input shape => s!"Can not sparse-reshape {listing input} to {listing shape}"
  | sparseVolume input volume shape known =>
    s!"Can not sparse-reshape {listing input} ({volume} elements) to {listing shape} " ++
      s!"({known} elements)"
  | sparseIndex index dim => s!"Sparse index {index} is out of bounds for dimension {dim}"
  | sparsePosition shape => s!"Linear sparse index overflows for shape {listing shape}"
  | duplicateAxis i axes => s!"Duplicate axis {i} in unsqueeze axes {listing axes}"
  | productRank => "MatMul operands must have rank 1 or more"
  | productOperands a b transposeA transposeB =>
    s!"Incompatible MatMul operands {listing a} and {listing b} " ++
      s!"(transpose_a: {transposeA}, transpose_b: {transposeB})"

/-! ### Inference rules -/

inductive AttributeKind where
  | integer
  | boolean
  | integers
  | string
deriving DecidableEq, Repr

def AttributeKind.text : AttributeKind → String
  | integer => "an integer"
  | boolean => "a boolean"
  | integers => "an integer list"
  | string => "a string"

/-- Why an inference rule does not apply to the operation it works on. -/
inductive RuleFault where
  | missingAttribute (name : String)
  | attributeKind (name : String) (kind : AttributeKind) (shown : String)
  | notConnected (port : Nat)
  | unknownShape (port : Nat)
  | constantValue
  | ranks (data indices : Nat)
  | gatherIndex (index : Int) (axis : Nat) (size : Nat)
  | gatherAxis (axis : Nat) (data indices : Int)
  | indicesRank (shape : List Int)
  | newShapeRank (shape : List Int)
  | indexColumns (columns : Int) (rank : Nat)
  | destinationType (name : String)
  | scale (shown : String)
deriving DecidableEq, Repr

def RuleFault.message : RuleFault → String
  | missingAttribute name => s!"Missing attribute {name}"
  | attributeKind name kind shown => s!"Attribute {name} is not {kind.text} (got {shown})"
  | notConnected port => s!"Input {port} is not connected"
  | unknownShape port => s!"Shape of input {port} is unknown"
  | constantValue => "Const value must be a tensor"
  | ranks data indices => s!"data rank {data} and indices rank {indices} differ"
  | gatherIndex index axis size =>
    s!"Index {index} is out of bounds for axis {axis} of size {size}"
  | gatherAxis axis data indices =>
    s!"data and indices differ on axis {axis} ({data} vs {indices})"
  | indicesRank shape => s!"Sparse indices must be a matrix, got shape {listing shape}"
  | newShapeRank shape => s!"New shape must be a vector, got shape {listing shape}"
  | indexColumns columns rank =>
    s!"Sparse indices have {columns} columns for a rank {rank} input"
  | destinationType name => s!"Unsupported destination type {name}"
  | scale shown => s!"Unsupported scale attribute {shown}"

/-! ### Graphs -/

inductive Reference where
  | node (id : NodeId)
  | name (name : String)
  | edge (id : EdgeId)
  | portSpec (spec : String)
deriving DecidableEq, Repr

def Reference.text : Reference → String
  | node id => s!"node {id.text}"
  | .name n => s!"node {quoted n}"
  | edge id => s!"edge {id.text}"
  | portSpec spec => s!"port spec {quoted spec}"

inductive GraphFault where
  | nameTaken (name : String)
  | connected (name : String) (edges : Nat)
  | sameKind (src dst : String)
  | hasProducer (data : String)
  | dataInput (data : String)
  | outputTaken (port : Nat) (op : String)
  | dataOutput (data : String)
  | inputTaken (port : Nat) (op : String)
  | notData (node : String)
  | notOp (node : String)
  | mergeSelf (id : NodeId)
  | foreignEdge (edge : EdgeId) (data : NodeId)
  | cycle (name : String)
  | other (text : String)
deriving DecidableEq, Repr

def GraphFault.message : GraphFault → String
  | nameTaken name => s!"node name {quoted name} is already used"
  | connected name edges => s!"node {quoted name} still has {edges} edge(s)"
  | sameKind src dst => s!"edge {quoted src} -> {quoted dst} must connect an op and a data node"
  | hasProducer data => s!"data node {quoted data} already has a producer"
  | dataInput data => s!"data node {quoted data} has a single input port"
  | outputTaken port op => s!"output port {port} of {quoted op} is already connected"
  | dataOutput data => s!"data node {quoted data} has a single output port"
  | inputTaken port op => s!"input port {port} of {quoted op} is already connected"
  | notData node => s!"{node} is not a data node"
  | notOp node => s!"{node} is not an op node"
  | mergeSelf id => s!"can not merge {id.text} with itself"
  | foreignEdge edge data => s!"edge {edge.text} does not leave {data.text}"
  | cycle name => s!"cycle detected through node {quoted name}"
  | other text => text

inductive InferenceFault where
  | dimension (dim : Int) (shape : List Int)
  | missingRequired (name : String)
  | rule (text : String)
deriving DecidableEq, Repr

def InferenceFault.message : InferenceFault → String
  | dimension dim shape => s!"invalid dimension {dim} in output shape {listing shape}"
  | missingRequired name => s!"missing required attribute {name}"
  | rule text => text

/-! ### Errors -/

inductive Cause where
  | lookup (reference : Reference)
  | graph (fault : GraphFault)
  | unknownOp (op : String) (node : Option String)
  | inference (node : String) (fault : InferenceFault)
  | schedulingCycle (ids : List String)
  | duplicateOp (op : String)
  | numeral (fault : NumeralFault)
  | tensor (fault : TensorFault)
  | shape (fault : ShapeFault)
  | rule (fault : RuleFault)
  | duplicateTransformation (id : String)
  | noFixedPoint (bound : Nat)
  | other (text : String)
deriving DecidableEq, Repr

/-- Is the cause one of the kinds that are passed on as they are, rather than reported as the
failure of the rule they arose in? -/
def Cause.isTyped : Cause → Bool
  | lookup _ | graph _ | unknownOp .. | inference .. | schedulingCycle _ | duplicateOp _ => true
  | _ => false

def Cause.message : Cause → String
  | lookup reference => s!"{reference.text} not found"
  | graph fault => s!"Invalid graph operation: {fault.message}"
  | unknownOp op none => s!"No inference rule registered for op {op}"
  | unknownOp op (some node) => s!"No inference rule registered for op {op} (node {node})"
  | inference node fault => s!"Shape inference failed for node {node}: {fault.message}"
  | schedulingCycle ids => s!"Transformation dependency cycle: {separated arrow ids}"
  | duplicateOp op => s!"Op {op} is already registered"
  | numeral fault => fault.message
  | tensor fault => fault.message
  | shape fault => fault.message
  | rule fault => fault.message
  | duplicateTransformation id => s!"Transformation {id} is registered twice"
  | noFixedPoint bound => s!"No fixed point reached after {bound} iterations"
  | other text => text
where
  /-- What stands between the members of a cycle. -/
  arrow : String := " -> "

/-- A cause with the contexts it passed through, outermost first. -/
structure Error where
  context : List String
  cause : Cause
deriving DecidableEq, Repr

def Error.message (e : Error) : String := separated ": " (e.context ++ [e.cause.message])

def Error.within (e : Error) (context : String) : Error := ⟨context :: e.context, e.cause⟩

instance : Coe Cause Error := ⟨fun c => ⟨[], c⟩⟩

instance : Coe TensorFault Error := ⟨fun f => ⟨[], .tensor f⟩⟩

instance : Coe ShapeFault Error := ⟨fun f => ⟨[], .shape f⟩⟩

instance : Coe RuleFault Error := ⟨fun f => ⟨[], .rule f⟩⟩

instance : Coe GraphFault Error := ⟨fun f => ⟨[], .graph f⟩⟩

instance : Coe Reference Error := ⟨fun r => ⟨[], .lookup r⟩⟩

/-- Fails with `e` unless `p` holds. -/
def ensure (p : Prop) [Decidable p] (e : Error) : Except Error Unit :=
  if p then .ok () else .error e

end TensorGraph
