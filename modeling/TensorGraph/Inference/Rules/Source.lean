import TensorGraph.Inference.Rule

/-!
Inputs, constants and outputs of a model, and the operation that passes its input on.
-/

namespace TensorGraph.Rules

open RuleM

/-- An input of the model has the shape that its attribute says. -/
def parameter : Rule := do
  setOutputShape 0 (← read (·.ints "shape"))

def constant : Rule := do
  let value ← read fun v => return (v.attr? "value").bind (·.toTensor?)
  match value with
  | some t => setOutputValue 0 t
  | none => RuleM.fail RuleFault.constantValue

/-- An output of the model has no data after it. -/
def output : Rule := pure ()

/-- Shape and value of the input are those of the output. -/
def identity : Rule := do
  setOutputShape 0 (← read (·.inputShape 0))
  setOutputValue? 0 (← read (·.inputValue 0))

def queue : Rule := setOutputsUnknown

end TensorGraph.Rules
