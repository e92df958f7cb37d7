import TensorGraph.Decimal.Style
import TensorGraph.Tensor.Basic

/-!
A tensor is described by its dimensions, the label of its element type, and its first elements,
twelve at most.
-/

namespace TensorGraph.Tensor

open Text

/-- Elements are written with the digits that identify them and never with an exponent. -/
def elementStyle : Decimal.Style := .plain

def floatText (x : Float32) : String := elementStyle.render (.ofSingle x)

def elementTexts : Tensor → List String
  | bool g => g.toList.map toString
  | i64 g => g.toList.map fun x => toString x.toInt
  | f32 g => g.toList.map floatText

def shownElements : Nat := 12

def describe (t : Tensor) : String :=
  let texts := t.elementTexts
  let more := if shownElements < texts.length then "..." else ""
  separated "," (t.shape.map toString) ++ "," ++ t.elementType.label ++ " " ++
    separated ", " (texts.take shownElements) ++ more

end TensorGraph.Tensor
