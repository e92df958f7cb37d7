import TensorGraph.Shape.Basic
import TensorGraph.Tensor.Basic

/-!
Each row of an index matrix gives the coordinates of one entry of a sparse tensor. Reshaping the
tensor keeps the place of each entry in row-major order.
-/

namespace TensorGraph.SparseIndices

/-- The row-major place of coordinates after the place `acc` of those before. Coordinates outside
their dimension are refused, and so is a place that does not fit 64 bits. -/
def position (shape : Shape) (acc : Int) : List (Int × Int) → Except Error Int
  | [] => .ok acc
  | (i, d) :: rest => do
    ensure (0 ≤ i ∧ i < d) (ShapeFault.sparseIndex i d)
    ensure (Shape.fits (acc * d) ∧ Shape.fits (acc * d + i)) (ShapeFault.sparsePosition shape)
    position shape (acc * d + i) rest

/-- The coordinates of a row-major place, and what the place exceeds the shape by. -/
def split (place : Int) : Shape → List Int × Int
  | [] => ([], place)
  | d :: ds =>
    let (coords, rest) := split place ds
    (rest % d :: coords, rest / d)

def coordinates (shape : Shape) (place : Int) : List Int := (split place shape).1

def rows (g : Grid Int64) : List (List Int) :=
  let width := Grid.count g.shape.tail
  (List.range (g.shape.headD 0)).map fun r =>
    ((g.toList.drop (r * width)).take width).map Int64.toInt

/-- The index matrix after a reshape of the tensor from `input` to `output`. -/
def reshape (indices : Tensor) (input output : Shape) : Except Error Tensor := do
  let rows := rows indices.toI64
  let moved ← rows.mapM fun row => do
    let place ← position input 0 (row.zip input)
    return coordinates output place
  let cells := moved.flatten.map Int64.ofInt
  return .i64 (← Grid.ofCells [rows.length, output.length] cells)

end TensorGraph.SparseIndices
