import TensorGraph.Shape.Broadcast

/-!
The last two dimensions of each operand are those of its matrices, possibly transposed; a vector
is a matrix of one row on the left and of one column on the right, and that dimension does not
appear in the product. The other dimensions broadcast.
-/

namespace TensorGraph.Shape

inductive Side where
  | left
  | right
deriving DecidableEq, Repr

/-- The shape of an operand seen as a stack of matrices: the dimensions of the stack, the rows and
the columns. -/
def matrices? (shape : Shape) (transpose : Bool) (side : Side) : Option (Shape × Int × Int) :=
  match shape.reverse with
  | [] => none
  | [n] =>
    match side with
    | .left => some ([], 1, n)
    | .right => some ([], n, 1)
  | n :: m :: batch => some (if transpose then (batch.reverse, n, m) else (batch.reverse, m, n))

def product (a b : Shape) (transposeA transposeB : Bool) : Except Error Shape := do
  let (some (batchA, rows, innerA), some (batchB, innerB, columns)) :=
    (matrices? a transposeA .left, matrices? b transposeB .right)
    | Except.error ShapeFault.productRank
  ensure (innerA < 0 ∨ innerB < 0 ∨ innerA = innerB)
    (ShapeFault.productOperands a b transposeA transposeB)
  let batch ← broadcast [batchA, batchB]
  return batch ++ (if 1 < a.length then [rows] else []) ++ (if 1 < b.length then [columns] else [])

end TensorGraph.Shape
