import TensorGraph.Elementwise.Erf

/-!
The functions that are folded element by element over a constant of 32-bit floats.
-/

namespace TensorGraph.Elementwise

inductive Unary where
  | relu
  | tan
  | atanh
  | erf
  | softPlus
  | cosh
  | acos
  | abs
  | exp
deriving DecidableEq, Repr

/-- The logarithm of `1 + y`, without losing a small `y`. Where the sum is not exact, the logarithm
is scaled by what the rounding took away. -/
def log1p (y : Float) : Float :=
  let u := 1 + y
  if u == 1 then y
  else if u - 1 == y then Float.log u
  else Float.log u * (y / (u - 1))

def log1pSingle (y : Float32) : Float32 := (log1p y.toFloat).toFloat32

/-- The inverse hyperbolic tangent, half the logarithm of `1 + 2 * x / (1 - x)`. Each step is
rounded to single precision, so near `-1` the quotient keeps few digits of the result. -/
def atanh (x : Float32) : Float32 := 0.5 * log1pSingle (2 * x / (1 - x))

def Unary.apply : Unary → Float32 → Float32
  | relu, x => if x > 0 then x else 0
  | tan, x => Float32.tan x
  | atanh, x => Elementwise.atanh x
  | erf, x => Elementwise.erf x
  | softPlus, x => if x > 20 then x else log1pSingle (Float32.exp x)
  | cosh, x => Float32.cosh x
  | acos, x => Float32.acos x
  | abs, x => x.abs
  | exp, x => Float32.exp x

end TensorGraph.Elementwise
