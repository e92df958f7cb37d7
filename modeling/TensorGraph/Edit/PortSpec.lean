import TensorGraph.Error

/-!
The end of a connection is written as the name of a node, or with a port and a colon: the port
stands behind the name where the connection starts and before it where it leads. A port that is
not written is port zero.
-/

namespace TensorGraph

structure PortSpec where
  name : String
  port : Nat
deriving DecidableEq, Repr

namespace PortSpec

def ofNumeral (name numeral : String) : Except Error PortSpec :=
  match Text.readUnsigned numeral with
  | .ok port => .ok ⟨name, port⟩
  | .error fault => .error (Cause.numeral fault)

/-- Reads where a connection starts: `name` or `name:port`. -/
def readSource (spec : String) : Except Error PortSpec :=
  match spec.splitOn ":" with
  | [name] => .ok ⟨name, 0⟩
  | [name, port] => ofNumeral name port
  | _ => .error (Reference.portSpec spec)

/-- Reads where a connection leads: `name` or `port:name`. -/
def readTarget (spec : String) : Except Error PortSpec :=
  match spec.splitOn ":" with
  | [name] => .ok ⟨name, 0⟩
  | [port, name] => ofNumeral name port
  | _ => .error (Reference.portSpec spec)

end PortSpec

end TensorGraph
