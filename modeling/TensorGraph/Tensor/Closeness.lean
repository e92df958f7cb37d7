import TensorGraph.Tensor.Basic

/-!
Close constants: floats are compared slice by slice with a tolerance, everything else exactly.
-/

namespace TensorGraph.Tensor

/-- The tolerance, both absolute and relative to the second number. -/
def tolerance : Float32 := 1e-5

def isCloseFloat (x y : Float32) : Bool :=
  decide ((x - y).abs ≤ tolerance + tolerance * y.abs)

/-- Are two constants of one shape equal up to the tolerance? Floats that do not lie in memory as
they are listed are close to nothing. -/
def isClose (a b : Tensor) : Bool :=
  a.shape == b.shape &&
    if a.elementType.isFloat || b.elementType.isFloat then
      match a.toF32.slice?, b.toF32.slice? with
      | some x, some y => (x.zip y).all fun p => isCloseFloat p.1 p.2
      | _, _ => false
    else a == b

end TensorGraph.Tensor
