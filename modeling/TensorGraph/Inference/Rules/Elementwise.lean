import TensorGraph.Inference.Rule
import TensorGraph.Shape.Broadcast
import TensorGraph.Tensor.Elementwise

/-!
Rules of operations on elements. One input gives its shape to the output, two inputs the shape both
stretch to. Constants are folded where their element types allow it.
-/

namespace TensorGraph.Rules

open RuleM

def unary (f : Elementwise.Unary) : Rule := do
  setOutputShape 0 (← read (·.inputShape 0))
  setOutputValue? 0 ((← read (·.inputValue 0)).bind (·.foldUnary f))

/-- The function of two constants, if there are two. -/
def foldBoth (f : Elementwise.Binary) (shape : Shape) :
    Option Tensor → Option Tensor → Except Error (Option Tensor)
  | some a, some b => a.foldBinary f b shape
  | _, _ => return none

def binary (f : Elementwise.Binary) : Rule := do
  let a ← read (·.inputShape 0)
  let b ← read (·.inputShape 1)
  let shape ← Shape.broadcast [a, b]
  setOutputShape 0 shape
  let x ← read (·.inputValue 0)
  let y ← read (·.inputValue 1)
  setOutputValue? 0 (← foldBoth f shape x y)

end TensorGraph.Rules
