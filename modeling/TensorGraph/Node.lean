import TensorGraph.Attribute
import TensorGraph.Shape.Basic

/-!
A graph alternates between operations and data. A data node stands for one tensor that flows
between operations and holds what is known of it, a `Fact`.
-/

namespace TensorGraph

open Text

/-- An operation. Its kind selects the inference rule; the type name is what a model written from
the graph calls it. -/
structure Operation where
  kind : String
  typeName : Option String
  attributes : Attributes
  needsInference : Bool

/-- An operation of a kind, called by it, without attributes and due for inference. -/
def Operation.ofKind (kind : String) : Operation := ⟨kind, some kind, .empty, true⟩

def Operation.withAttribute (o : Operation) (name : String) (value : Attribute) : Operation :=
  { o with attributes := o.attributes.insert name value }

/-- What is known of a tensor: its shape, and its value if it is constant. -/
structure Fact where
  shape : Option Shape
  value : Option Tensor

namespace Fact

instance : BEq Fact := ⟨fun a b => a.shape == b.shape && a.value == b.value⟩

def unknown : Fact := ⟨none, none⟩

def ofShape (s : Shape) : Fact := ⟨some s, none⟩

def ofValue (t : Tensor) : Fact := ⟨some t.dims, some t⟩

def describe (f : Fact) : String :=
  "DataNode \x7b shape: " ++ optional listing f.shape ++ ", value: " ++
    optional Tensor.describe f.value ++ " \x7d"

end Fact

inductive Content where
  | op (operation : Operation)
  | data (fact : Fact)

def Content.isOp : Content → Bool
  | op _ => true
  | data _ => false

structure Node where
  name : String
  content : Content

namespace Node

def isOp (n : Node) : Bool := n.content.isOp

def isData (n : Node) : Bool := !n.content.isOp

def operation? (n : Node) : Option Operation :=
  match n.content with
  | .op o => some o
  | .data _ => none

def fact? (n : Node) : Option Fact :=
  match n.content with
  | .op _ => none
  | .data f => some f

/-- The node with a function applied to its operation; a data node stays as it is. -/
def mapOperation (f : Operation → Operation) (n : Node) : Node :=
  match n.content with
  | .op o => { n with content := .op (f o) }
  | .data _ => n

def mapFact (f : Fact → Fact) (n : Node) : Node :=
  match n.content with
  | .op _ => n
  | .data d => { n with content := .data (f d) }

theorem name_mapOperation (f : Operation → Operation) (n : Node) :
    (n.mapOperation f).name = n.name := by
  unfold mapOperation
  split <;> rfl

theorem name_mapFact (f : Fact → Fact) (n : Node) : (n.mapFact f).name = n.name := by
  unfold mapFact
  split <;> rfl

def isOpOf (n : Node) (kind : String) : Bool :=
  match n.content with
  | .op o => o.kind == kind
  | .data _ => false

def describe (n : Node) (id : NodeId) : String :=
  let what := match n.content with
    | .op o => o.kind
    | .data _ => "data"
  id.text ++ " " ++ quoted n.name ++ " " ++ what

end Node

/-- A connection from the output port `out` of one node to the input port `inp` of another. -/
structure Link where
  src : NodeId
  dst : NodeId
  out : Nat
  inp : Nat
deriving DecidableEq, Repr

structure Edge extends Link where
  id : EdgeId
deriving DecidableEq, Repr

end TensorGraph
