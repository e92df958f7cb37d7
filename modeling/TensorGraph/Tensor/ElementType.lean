/-!
The types of number that a constant tensor may hold.
-/

namespace TensorGraph

inductive ElementType where
  | bool
  | i64
  | f32
deriving DecidableEq, Repr

namespace ElementType

/-- The name of the type in models. -/
def name : ElementType → String
  | bool => "bool"
  | i64 => "i64"
  | f32 => "f32"

/-- The label of the type in descriptions of tensors. -/
def label : ElementType → String
  | bool => "Bool"
  | i64 => "I64"
  | f32 => "F32"

def isFloat (t : ElementType) : Bool := t = f32

def isInteger (t : ElementType) : Bool := t = i64

def isNumber (t : ElementType) : Bool := t.isFloat || t.isInteger

end ElementType

end TensorGraph
