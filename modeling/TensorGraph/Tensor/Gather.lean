import TensorGraph.Tensor.Basic

/-!
Gathering elements along an axis.

The element of the result at some coordinates is the element of the data at these coordinates with
the coordinate on the axis replaced by the index found there. Negative indices count from the end.
-/

namespace TensorGraph

namespace Grid

variable {α : Type} [Inhabited α]

/-- The coordinate that an index stands for in a dimension. -/
def gatherCoordinate (dim : Nat) (index : Int) : Nat :=
  (if index < 0 then index + dim else index).toNat

def gather (data : Grid α) (indices : Grid Int64) (axis : Nat) : Except Error (Grid α) :=
  let dim := data.shape.getD axis 0
  match indices.toList.find? fun i => i.toInt < -(dim : Int) || (dim : Int) ≤ i.toInt with
  | some bad => .error (RuleFault.gatherIndex bad.toInt axis dim)
  | none =>
    .ok (ofFn indices.shape indices.fits fun c =>
      data.read (c.set axis (gatherCoordinate dim (indices.read c).toInt)))

end Grid

/-- The elements of a constant that an integer constant of the same rank names along an axis. -/
def Tensor.gather (data indices : Tensor) (axis : Nat) : Except Error Tensor := do
  ensure (data.rank = indices.rank) (RuleFault.ranks data.rank indices.rank)
  match data with
  | .bool g => return .bool (← g.gather indices.toI64 axis)
  | .i64 g => return .i64 (← g.gather indices.toI64 axis)
  | .f32 g => return .f32 (← g.gather indices.toI64 axis)

end TensorGraph
