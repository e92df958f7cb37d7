import TensorGraph.Error

/-!
A shape lists the dimensions of a tensor; `-1` stands for an unknown one. Products of dimensions
are checked: one that leaves 64 signed bits on the way is an error.
-/

namespace TensorGraph

/-- The dimensions of a tensor, `-1` for an unknown one. -/
abbrev Shape := List Int

namespace Shape

def fits (x : Int) : Bool := -0x8000000000000000 ≤ x && x < 0x8000000000000000

def hasUnknown (s : Shape) : Bool := s.any (· < 0)

/-- The product of dimensions taken from the left, unless a partial product does not fit. -/
def checkedProduct (acc : Int) : Shape → Option Int
  | [] => some acc
  | d :: ds => if fits (acc * d) then checkedProduct (acc * d) ds else none

def volume (dims : Shape) : Except Error Int :=
  match checkedProduct 1 dims with
  | some v => .ok v
  | none => .error (ShapeFault.overflow dims)

/-- A count of 64 bits as a signed number, negative from `2 ^ 63` on. -/
def signed (n : Nat) : Int := (n : Int).bmod 0x10000000000000000

/-- The place from the left of an axis that may be counted from the right with negative
numbers. A negative rank, which is a count beyond 63 bits, has no axes. -/
def normalizeAxis (axis rank : Int) : Except Error Nat :=
  if -rank ≤ axis ∧ axis < rank then
    .ok (if axis < 0 then axis + rank else axis).toNat
  else .error (ShapeFault.axis axis rank)

/-- The dimensions as array sizes. A negative dimension, which no array has, becomes one beyond
all arrays. -/
def toSizes (s : Shape) : List Nat := s.map fun d => (d % 0x10000000000000000).toNat

end Shape

end TensorGraph
