import TensorGraph.Inference.Rule
import TensorGraph.Tensor.Product

/-!
The rule of matrix products.
-/

namespace TensorGraph.Rules

open RuleM

/-- The product of two operands, either of them transposed on demand. -/
def product : Rule := do
  let transposeA ← read (·.bool "transpose_a")
  let transposeB ← read (·.bool "transpose_b")
  let a ← read (·.inputShape 0)
  let b ← read (·.inputShape 1)
  setOutputShape 0 (← Shape.product a b transposeA transposeB)
  match ← read (·.inputValue 0), ← read (·.inputValue 1) with
  | some x, some y => setOutputValue 0 (← x.product y transposeA transposeB)
  | _, _ => pure ()

end TensorGraph.Rules
