import TensorGraph.Inference.Rule
import TensorGraph.Tensor.Gather

/-!
The rule of gathering along an axis.
-/

namespace TensorGraph.Rules

open RuleM

/-- Fails if data and indices are known to differ on an axis other than the one gathered along. -/
def checkGatherAxes (axis : Nat) (data indices : Shape) : Except Error Unit :=
  (data.zip indices).zipIdx.forM fun ((d, i), at') =>
    ensure (at' = axis ∨ d < 0 ∨ i < 0 ∨ d = i) (RuleFault.gatherAxis at' d i)

def gather : Rule := do
  let data ← read (·.inputShape 0)
  let indices ← read (·.inputShape 1)
  ensure (data.length = indices.length) (RuleFault.ranks data.length indices.length)
  let axis ← Shape.normalizeAxis (← read (·.int "axis")) (Shape.signed data.length)
  checkGatherAxes axis data indices
  setOutputShape 0 indices
  match ← read (·.inputValue 0), ← read (·.inputValue 1) with
  | some x, some i => setOutputValue 0 (← x.gather i axis)
  | _, _ => pure ()

end TensorGraph.Rules
