import TensorGraph.Graph.Neighbours

/-!
A rule works on one operation. It sees the scene of the operation, which is its attributes over the
defaults of its kind and its inputs and outputs by port, and it may look at the rest of the graph.
-/

namespace TensorGraph

/-- The data node on an input port of an operation, which has to be connected. -/
def Graph.connectedInput (g : Graph) (op : NodeId) (port : Nat) : Except Error NodeId := do
  match ← g.inputData op port with
  | some data => return data
  | none => Except.error (RuleFault.notConnected port)

def Graph.inputIsShared (g : Graph) (op : NodeId) (port : Nat) : Except Error Bool := do
  return decide (1 < (← g.consumers (← g.connectedInput op port)).length)

/-- What concerns one operation: its attributes over the defaults of its kind, what is known of its
inputs by port, and its connected ports. -/
structure Scene where
  name : String
  attributes : Attributes
  /-- The connected input ports. -/
  inputPorts : List Nat
  /-- What is known of the data on an input port. -/
  inputFact : Nat → Except Error Fact
  /-- Has the data on an input port other consumers? -/
  inputIsShared : Nat → Except Error Bool
  /-- The connected output ports. -/
  outputPorts : List Nat

def Graph.scene (g : Graph) (op : NodeId) (name : String) (attributes : Attributes) : Scene where
  name := name
  attributes := attributes
  inputPorts := (g.incoming op).map (·.inp)
  inputFact port := do g.fact (← g.connectedInput op port)
  inputIsShared := g.inputIsShared op
  outputPorts := (g.outgoing op).map (·.out)

namespace Scene

/-! ### Attributes -/

def attr? (s : Scene) (name : String) : Option Attribute := s.attributes.find? name

/-- An attribute that has to be set. -/
def attr (s : Scene) (name : String) : Except Error Attribute :=
  match s.attr? name with
  | some a => .ok a
  | none => .error (RuleFault.missingAttribute name)

def typed {α : Type} (s : Scene) (name : String) (kind : AttributeKind)
    (read : Attribute → Option α) : Except Error α := do
  let a ← s.attr name
  match read a with
  | some x => return x
  | none => Except.error (RuleFault.attributeKind name kind a.describe)

def int (s : Scene) (name : String) : Except Error Int := s.typed name .integer (·.toInt?)

def bool (s : Scene) (name : String) : Except Error Bool := s.typed name .boolean (·.toBool?)

def ints (s : Scene) (name : String) : Except Error (List Int) :=
  s.typed name .integers (·.toInts?)

def string (s : Scene) (name : String) : Except Error String :=
  s.typed name .string (·.toString?)

/-! ### Inputs -/

def inputCount (s : Scene) : Nat := s.inputPorts.length

/-- The shape of the data on an input port, which has to be known. -/
def inputShape (s : Scene) (port : Nat) : Except Error Shape := do
  match (← s.inputFact port).shape with
  | some shape => return shape
  | none => Except.error (RuleFault.unknownShape port)

/-- The value of the data on an input port, if it is constant. -/
def inputValue (s : Scene) (port : Nat) : Except Error (Option Tensor) := do
  return (← s.inputFact port).value

end Scene

/-- The scene of the operation a rule works on, and the graph around it. -/
structure RuleView extends Scene where
  graph : Graph
  node : NodeId

end TensorGraph
