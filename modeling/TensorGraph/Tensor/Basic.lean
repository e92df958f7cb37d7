import TensorGraph.Tensor.Grid

/-!
A tensor is a grid of booleans, of 64-bit integers or of 32-bit floats. Two tensors are equal
(`==`) when their element types, shapes and cells are; floats compare as numbers, so a value that
is not a number differs from itself and the two zeros are equal.
-/

namespace TensorGraph

/-- A constant: a grid of one of the three element types. -/
inductive Tensor where
  | bool (grid : Grid Bool)
  | i64 (grid : Grid Int64)
  | f32 (grid : Grid Float32)

namespace Tensor

instance : BEq Tensor where
  beq
    | bool a, bool b => a == b
    | i64 a, i64 b => a == b
    | f32 a, f32 b => a == b
    | _, _ => false

def elementType : Tensor → ElementType
  | bool _ => .bool
  | i64 _ => .i64
  | f32 _ => .f32

def shape : Tensor → List Nat
  | bool g => g.shape
  | i64 g => g.shape
  | f32 g => g.shape

def rank (t : Tensor) : Nat := t.shape.length

def size : Tensor → Nat
  | bool g => g.size
  | i64 g => g.size
  | f32 g => g.size

def dims (t : Tensor) : List Int := t.shape.map Int.ofNat

/-- The tensor of an element type and a shape whose elements are all false or zero. -/
def zero : ElementType → List Nat → Tensor
  | .bool, shape => bool (.fill shape false)
  | .i64, shape => i64 (.fill shape 0)
  | .f32, shape => f32 (.fill shape 0)

/-! ### Access -/

def asBool : Tensor → Except Error (Grid Bool)
  | bool g => .ok g
  | t => .error (TensorFault.elementType t.elementType .bool)

def asI64 : Tensor → Except Error (Grid Int64)
  | i64 g => .ok g
  | t => .error (TensorFault.elementType t.elementType .i64)

def asF32 : Tensor → Except Error (Grid Float32)
  | f32 g => .ok g
  | t => .error (TensorFault.elementType t.elementType .f32)

def ensureSingle (t : Tensor) : Except Error Unit :=
  if t.size = 1 then .ok () else .error (TensorFault.notSingle t.shape)

/-! ### Change of type and shape -/

/-- The elements as integers: false is zero and true one; floats are cut towards zero, clamped
to 64 bits, and zero when not a number. -/
def toI64 : Tensor → Grid Int64
  | bool g => g.map fun b => if b then 1 else 0
  | i64 g => g
  | f32 g => g.map Float32.toInt64

def toF32 : Tensor → Grid Float32
  | bool g => g.map fun b => if b then 1 else 0
  | i64 g => g.map Int64.toFloat32
  | f32 g => g

def toBool : Tensor → Grid Bool
  | bool g => g
  | i64 g => g.map (· != 0)
  | f32 g => g.map (· != 0)

def cast (t : Tensor) : ElementType → Tensor
  | .bool => bool t.toBool
  | .i64 => i64 t.toI64
  | .f32 => f32 t.toF32

/-- The elements as integers, in row-major order. -/
def toInts (t : Tensor) : List Int := t.toI64.toList.map Int64.toInt

/-- The vector of the given integers, modulo `2 ^ 64`. -/
def ofInts (xs : List Int) : Tensor := i64 (.vector (xs.map Int64.ofInt))

def reshape (shape : List Nat) : Tensor → Except Error Tensor
  | bool g => (g.reshape shape).map bool
  | i64 g => (g.reshape shape).map i64
  | f32 g => (g.reshape shape).map f32

end Tensor

end TensorGraph
