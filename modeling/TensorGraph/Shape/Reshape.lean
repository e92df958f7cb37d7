import TensorGraph.Shape.Basic

/-!
A pattern gives the dimensions of the new shape. One of them may be `-1`, which takes what the
others leave; with `copyZero`, a `0` copies the dimension of the input at its index. The sparse
form has no copies and other wording.
-/

namespace TensorGraph.Shape

/-- The dimensions that a pattern asks for, from the axis `i` on; `wild` tells whether a `-1` has
been met. -/
def readPattern (input pattern : Shape) (copyZero : Bool) (wild : Bool) (i : Nat) :
    Shape → Except Error Shape
  | [] => .ok []
  | d :: ds => do
    if d = 0 ∧ copyZero then
      match input[i]? with
      | some e => return e :: (← readPattern input pattern copyZero wild (i + 1) ds)
      | none => Except.error (ShapeFault.patternCopy pattern i input.length)
    else if d = -1 then
      ensure (wild = false) (ShapeFault.patternWildcards pattern)
      return -1 :: (← readPattern input pattern copyZero true (i + 1) ds)
    else
      ensure (0 ≤ d) (ShapeFault.patternDimension d pattern)
      return d :: (← readPattern input pattern copyZero wild (i + 1) ds)

def wildcard? (pattern : Shape) : Option Nat := pattern.findIdx? (· = -1)

/-- The shape that a reshape of `input` by `pattern` gives. When the input has an unknown
dimension a `-1` stays. -/
def reshape (input pattern : Shape) (copyZero : Bool) : Except Error Shape := do
  let shape ← readPattern input pattern copyZero false 0 pattern
  if hasUnknown input then return shape
  let total ← volume input
  match wildcard? pattern with
  | some i =>
    let known ← volume (shape.eraseIdx i)
    ensure (known ≠ 0 ∧ total % known = 0)
      (ShapeFault.patternRemainder input pattern total known)
    return shape.set i (total / known)
  | none =>
    let known ← volume shape
    ensure (known = total) (ShapeFault.patternVolume input total shape known)
    return shape

/-- The dense shape that a sparse tensor of shape `input` gets from the new shape `new`. -/
def sparseReshape (input new : Shape) : Except Error Shape := do
  match new.find? (· < -1) with
  | some bad => Except.error (ShapeFault.sparseDimension bad new)
  | none => pure ()
  ensure (new.count (-1) ≤ 1) (ShapeFault.sparseWildcards new)
  if hasUnknown input then return new
  let total ← volume input
  let known ← volume (new.filter (· ≠ -1))
  match wildcard? new with
  | some i =>
    ensure (known ≠ 0 ∧ total % known = 0) (ShapeFault.sparseRemainder input new)
    return new.set i (total / known)
  | none =>
    ensure (known = total) (ShapeFault.sparseVolume input total new known)
    return new

end TensorGraph.Shape
