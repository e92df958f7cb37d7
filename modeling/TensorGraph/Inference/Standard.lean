import TensorGraph.Inference.Registry
import TensorGraph.Inference.Rules.Convert
import TensorGraph.Inference.Rules.Elementwise
import TensorGraph.Inference.Rules.Gather
import TensorGraph.Inference.Rules.Product
import TensorGraph.Inference.Rules.Proposals
import TensorGraph.Inference.Rules.Reshape
import TensorGraph.Inference.Rules.Source
import TensorGraph.Inference.Rules.SparseReshape

/-!
The kinds of operations that are understood without further registration.
-/

namespace TensorGraph

def unaryKinds : List (String × Elementwise.Unary) :=
  [("Relu", .relu), ("Tan", .tan), ("Atanh", .atanh), ("Erf", .erf), ("SoftPlus", .softPlus),
    ("Cosh", .cosh), ("Acos", .acos), ("Abs", .abs), ("Exp", .exp)]

def binaryKinds : List (String × Elementwise.Binary) :=
  [("Add", .add), ("Multiply", .multiply), ("Maximum", .maximum),
    ("SquaredDifference", .squaredDifference)]

namespace OpEntry

/-- The entry with further attributes that have to be set. -/
def requiring (e : OpEntry) (names : List String) : OpEntry :=
  { e with required := e.required ++ names }

/-- The entry with a default attribute. -/
def defaulting (e : OpEntry) (name : String) (value : Attribute) : OpEntry :=
  { e with defaults := e.defaults.insert name value }

/-- The entry with output ports that have a meaning. -/
def withFixedOutputs (e : OpEntry) : OpEntry := { e with fixedOutputs := true }

def standard : List OpEntry :=
  [(ofRule "Parameter" Rules.parameter).requiring ["shape"],
    (ofRule "Const" Rules.constant).requiring ["value"],
    ofRule "Result" Rules.output,
    ofRule "Identity" Rules.identity,
    (ofRule "Reshape" Rules.reshape).defaulting "special_zero" (.bool true),
    ofRule "Unsqueeze" Rules.unsqueeze,
    (ofRule "GatherElements" Rules.gather).defaulting "axis" (.int 0),
    (ofRule "SparseReshape" Rules.sparseReshape).withFixedOutputs,
    ((ofRule "MatMul" Rules.product).defaulting "transpose_a" (.bool false)).defaulting
      "transpose_b" (.bool false),
    (ofRule "Convert" Rules.convert).requiring ["destination_type"],
    (ofRule "SimplerNMS" Rules.proposals).requiring ["feat_stride", "post_nms_topn"],
    ofRule "FIFOQueueV2" Rules.queue,
    (ofRule "QueueDequeueUpToV2" Rules.queue).withFixedOutputs] ++
  unaryKinds.map (fun k => ofRule k.1 (Rules.unary k.2)) ++
  binaryKinds.map (fun k => ofRule k.1 (Rules.binary k.2))

end OpEntry

def Registry.standard : Registry :=
  (OpEntry.standard.foldl Registry.insert ∅).nameRule "identity" Rules.identity

end TensorGraph
