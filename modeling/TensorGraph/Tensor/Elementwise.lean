import TensorGraph.Elementwise.Binary
import TensorGraph.Elementwise.Unary
import TensorGraph.Shape.Basic
import TensorGraph.Tensor.Basic

/-!
The result of a function of one or two constants, element by element. Functions of one float apply
to tensors of floats alone. Two tensors of integers give integers, other pairs of numbers floats,
and booleans are not folded.
-/

namespace TensorGraph

/-- The grid stretched to a shape, or a fault that names the shape it has. -/
def Grid.stretch {α : Type} [Inhabited α] (g : Grid α) (target : List Nat) :
    Except Error (Grid α) :=
  match g.stretch? target with
  | some h => .ok h
  | none => .error (TensorFault.stretch g.shape)

theorem Grid.shape_of_stretch {α : Type} [Inhabited α] {g h : Grid α} {target : List Nat}
    (hs : g.stretch target = .ok h) : h.shape = target := by
  unfold stretch at hs
  split at hs
  · next hs' =>
    cases hs
    exact shape_of_stretch? hs'
  · cases hs

def Grid.zipStretched {α : Type} [Inhabited α] (f : α → α → α) (a b : Grid α)
    (target : List Nat) : Except Error (Grid α) := do
  let x ← a.stretch target
  let y ← b.stretch target
  return (ofFn x.shape x.fits fun c => f (x.read c) (y.read c)).laidOut
    ((a.walk target).zip (b.walk target))

namespace Tensor

def foldUnary (f : Elementwise.Unary) : Tensor → Option Tensor
  | f32 g => some (f32 (g.map f.apply))
  | _ => none

/-- The function of two tensors stretched to a shape, when both hold numbers. -/
def foldBinary (f : Elementwise.Binary) (a b : Tensor) (target : Shape) :
    Except Error (Option Tensor) :=
  match a, b with
  | i64 x, i64 y => do
    return some (i64 (← x.zipStretched f.onIntegers y target.toSizes))
  | _, _ =>
    if a.elementType.isNumber && b.elementType.isNumber then do
      return some (f32 (← a.toF32.zipStretched f.onFloats b.toF32 target.toSizes))
    else return none

end Tensor

end TensorGraph
