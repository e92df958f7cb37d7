import TensorGraph.Shape.Basic
import TensorGraph.Sorted

/-!
Axes are places in the resulting shape and may be counted from the right with negative numbers.
-/

namespace TensorGraph.Shape

def ascending (axes : List Nat) : List Nat := sortBy (fun a b => decide (a ≤ b)) axes

def repeated? : List Nat → Option Nat
  | a :: b :: rest => if a = b then some a else repeated? (b :: rest)
  | _ => none

/-- The shape with a dimension of one at each of the ascending axes, and the axes counted from
the left in their given order. -/
def unsqueeze (input : Shape) (axes : List Int) : Except Error (Shape × List Nat) := do
  let normalized ← axes.mapM (normalizeAxis · (signed (input.length + axes.length)))
  let sorted := ascending normalized
  match repeated? sorted with
  | some a => Except.error (ShapeFault.duplicateAxis a axes)
  | none => return (sorted.foldl (fun s a => s.insertIdx a 1) input, normalized)

end TensorGraph.Shape
