import TensorGraph.Dict
import TensorGraph.Shape.Basic
import TensorGraph.Tensor.Text

/-!
An attribute is a number, a text, a list of these, a constant, or the name of an inference rule
that takes the place of the one registered for the operation. Attributes come from models of
several formats, so the readers (`toInt?`, `toBool?`, ...) accept the forms in which the same
thing is written.
-/

namespace TensorGraph

open Text

/-- The value of an attribute. Integers have 64 signed bits. -/
inductive Attribute where
  | int (value : Int)
  | float (value : Float)
  | bool (value : Bool)
  | string (value : String)
  | ints (values : List Int)
  | floats (values : List Float)
  | strings (values : List String)
  | tensor (value : Tensor)
  | rule (name : String)

abbrev Attributes := Dict Attribute

namespace Attribute

instance : BEq Attribute where
  beq
    | int a, int b => a == b
    | float a, float b => a == b
    | bool a, bool b => a == b
    | string a, string b => a == b
    | ints a, ints b => a == b
    | floats a, floats b => a == b
    | strings a, strings b => a == b
    | tensor a, tensor b => a == b
    | rule a, rule b => a == b
    | _, _ => false

def ofCount (n : Nat) : Attribute := int (Shape.signed n)

/-! ### Readers -/

/-- An integer, a boolean as zero or one, or the only element of a constant. -/
def toInt? : Attribute → Option Int
  | int i => some i
  | bool b => some (if b then 1 else 0)
  | tensor t => if t.size = 1 then t.toInts.head? else none
  | _ => none

/-- A float, or the float nearest to an integer. -/
def toFloat? : Attribute → Option Float
  | float x => some x
  | int i => some (Float.ofInt i)
  | _ => none

/-- A boolean, or whether an integer differs from zero. -/
def toBool? : Attribute → Option Bool
  | bool b => some b
  | int i => some (i ≠ 0)
  | _ => none

def toString? : Attribute → Option String
  | string s => some s
  | _ => none

/-- A list of integers, a single one, or the elements of a constant. -/
def toInts? : Attribute → Option (List Int)
  | ints l => some l
  | int i => some [i]
  | tensor t => some t.toInts
  | _ => none

def toStrings? : Attribute → Option (List String)
  | strings l => some l
  | _ => none

def toTensor? : Attribute → Option Tensor
  | tensor t => some t
  | _ => none

def toRule? : Attribute → Option String
  | rule n => some n
  | _ => none

/-! ### Text -/

/-- Floats are written with the digits that identify them, with an exponent from `1e16` on and
below `1e-4`, and with `.0` when whole. -/
def floatStyle : Decimal.Style := ⟨some (-4, 16), true⟩

def floatText (x : Float) : String := floatStyle.render (.ofDouble x)

def describe : Attribute → String
  | int i => toString i
  | float x => floatText x
  | bool b => toString b
  | string s => quoted s
  | ints l => listing l
  | floats l => bracketed (l.map floatText)
  | strings l => bracketed (l.map quoted)
  | tensor t => t.describe
  | rule _ => "<infer>"

end Attribute

end TensorGraph
