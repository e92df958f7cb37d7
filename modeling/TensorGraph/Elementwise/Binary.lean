/-!
Each function has one meaning on 64-bit integers, where it wraps, and one on 32-bit floats.
-/

namespace TensorGraph.Elementwise

inductive Binary where
  | add
  | multiply
  | maximum
  | squaredDifference
deriving DecidableEq, Repr

/-- The value on integers, modulo `2 ^ 64`. -/
def Binary.onIntegers : Binary → Int64 → Int64 → Int64
  | add, a, b => a + b
  | multiply, a, b => a * b
  | maximum, a, b => if a < b then b else a
  | squaredDifference, a, b => (a - b) * (a - b)

/-- The value on floats. The maximum of two floats that do not compare is the second. -/
def Binary.onFloats : Binary → Float32 → Float32 → Float32
  | add, a, b => a + b
  | multiply, a, b => a * b
  | maximum, a, b => if a ≥ b then a else b
  | squaredDifference, a, b => (a - b) * (a - b)

end TensorGraph.Elementwise
