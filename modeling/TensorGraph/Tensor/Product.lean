import TensorGraph.Shape.Product
import TensorGraph.Tensor.Basic

/-!
Matrix products of constants.

Each element of a product is the sum over the inner dimension of products of a row element and a
column element, added in ascending order from zero. Integers wrap; floats are rounded after each
product and each sum.
-/

namespace TensorGraph

structure Accumulation (α : Type) where
  zero : α
  /-- The sum so far and the product of two numbers. -/
  addProduct : α → α → α → α

def Accumulation.integers : Accumulation Int64 := ⟨0, fun acc a b => acc + a * b⟩

def Accumulation.floats : Accumulation Float32 := ⟨0, fun acc a b => acc + a * b⟩

namespace Grid

variable {α : Type} [Inhabited α]

/-- A vector as a matrix of one row or one column; any other grid with its matrices transposed
when asked. -/
def matrices (g : Grid α) (transpose : Bool) (side : Shape.Side) : Grid α :=
  match h : g.shape with
  | [n] =>
    have hfits : indexable [n] = true := h ▸ g.fits
    match side with
    | .left =>
      ⟨[1, n], g.cells, .rows, by simp [g.size_cells, h], (indexable_cons_one [n]).trans hfits,
        MemoryOrder.settled_rows _⟩
    | .right =>
      ⟨[n, 1], g.cells, .rows, by simp [g.size_cells, h],
        (indexable_swapLast [1, n]).trans ((indexable_cons_one [n]).trans hfits),
        MemoryOrder.settled_rows _⟩
  | _ => if transpose then g.transposeLast else g

/-- The dimensions of the stack of matrices, rows and columns of a grid of rank two or more. -/
def stack (g : Grid α) : List Nat × Nat × Nat :=
  let r := g.rank
  (g.shape.take (r - 2), g.shape.getD (r - 2) 0, g.shape.getD (r - 1) 0)

/-- The grid stretched to a shape, or a fault that names both shapes, that of the grid given. -/
def stretchFrom (g : Grid α) (shape target : List Nat) : Except Error (Grid α) :=
  match g.stretch? target with
  | some h => .ok h
  | none => .error (TensorFault.stretchTo shape target)

/-- The element of a product of two stacks of matrices at coordinates of the product. -/
def productAt (s : Accumulation α) (a b : Grid α) (inner : Nat) (coords : List Nat) : α :=
  let r := coords.length
  (List.range inner).foldl
    (fun acc k => s.addProduct acc (a.read (coords.set (r - 1) k)) (b.read (coords.set (r - 2) k)))
    s.zero

def product (s : Accumulation α) (a b : Grid α) (transposeA transposeB : Bool) :
    Except Error (Grid α) := do
  let shape ← Shape.product (a.shape.map Int.ofNat) (b.shape.map Int.ofNat) transposeA transposeB
  let left := a.matrices transposeA .left
  let right := b.matrices transposeB .right
  let (batchA, rows, inner) := left.stack
  let (batchB, _, columns) := right.stack
  let batch ← Shape.broadcast [batchA.map Int.ofNat, batchB.map Int.ofNat]
  let full (m n : Nat) : List Nat := Shape.toSizes batch ++ [m, n]
  let left ← left.stretchFrom a.shape (full rows inner)
  let right ← right.stretchFrom b.shape (full inner columns)
  if h : indexable (full rows columns) = true then
    (ofFn (full rows columns) h (productAt s left right inner)).reshape (Shape.toSizes shape)
  else .error TensorFault.notIndexable

end Grid

/-- The matrix product of two constants: of floats when either holds floats. -/
def Tensor.product (a b : Tensor) (transposeA transposeB : Bool) : Except Error Tensor :=
  if a.elementType.isFloat || b.elementType.isFloat then do
    return .f32 (← Grid.product .floats a.toF32 b.toF32 transposeA transposeB)
  else
    match a with
    | .bool _ => .error (TensorFault.notNumber .bool)
    | _ => do return .i64 (← Grid.product .integers a.toI64 b.toI64 transposeA transposeB)

end TensorGraph
