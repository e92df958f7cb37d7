import TensorGraph.Inference.Rule
import TensorGraph.Shape.Reshape
import TensorGraph.Tensor.SparseIndices

/-!
The rule of sparse reshapes. The inputs are an index matrix, the dense shape and the new shape, the
outputs the new index matrix and the new dense shape.
-/

namespace TensorGraph.Rules

open RuleM

def matrixSize : Shape → Except Error (Int × Int)
  | [rows, columns] => return (rows, columns)
  | shape => Except.error (RuleFault.indicesRank shape)

def vectorSize : Shape → Except Error Int
  | [n] => return n
  | shape => Except.error (RuleFault.newShapeRank shape)

/-- A sparse tensor in a new dense shape. Indices are folded only when no dimension of the new
shape is zero or unknown. -/
def sparseReshape : Rule := do
  let (rows, columns) ← matrixSize (← read (·.inputShape 0))
  let rank ← vectorSize (← read (·.inputShape 2))
  setOutputShape 0 [rows, rank]
  match ← read (·.inputValue 1), ← read (·.inputValue 2) with
  | some input, some new =>
    let input := input.toInts
    ensure (columns < 0 ∨ columns = input.length) (RuleFault.indexColumns columns input.length)
    let output ← Shape.sparseReshape input new.toInts
    setOutputValue 1 (.ofInts output)
    match ← read (·.inputValue 0) with
    | some indices =>
      if output.all (0 < ·) then
        setOutputValue 0 (← SparseIndices.reshape indices input output)
    | none => pure ()
  | _, _ => setOutputShape 1 [rank]

end TensorGraph.Rules
