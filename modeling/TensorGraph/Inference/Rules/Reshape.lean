import TensorGraph.Inference.Rule
import TensorGraph.Shape.Reshape
import TensorGraph.Shape.Unsqueeze

/-!
Rules of operations that change a shape. The second input says how; when it is not constant, its own
shape may still tell the rank.
-/

namespace TensorGraph.Rules

open RuleM

def unknownShape (rank : Nat) : Shape := List.replicate rank (-1)

/-- Gives the output the value of the input in a new shape, if the input is constant. -/
def reshapeValue (shape : Shape) : Rule := do
  match ← read (·.inputValue 0) with
  | some t => setOutputValue 0 (← t.reshape shape.toSizes)
  | none => pure ()

/-- The output of a reshape whose pattern is not known, from the shape of the pattern. -/
def reshapeUnknown : Shape → Rule
  | [rank] => if 0 ≤ rank then setOutputShape 0 (unknownShape rank.toNat) else setOutputUnknown 0
  | _ => setOutputUnknown 0

def reshape : Rule := do
  let copyZero ← read (·.bool "special_zero")
  let input ← read (·.inputShape 0)
  match ← read (·.inputValue 1) with
  | none => reshapeUnknown (← read (·.inputShape 1))
  | some pattern =>
    let shape ← Shape.reshape input pattern.toInts copyZero
    setOutputShape 0 shape
    reshapeValue shape

/-- Writes the axes counted from the left over those given, if they differ and no other operation
reads them. -/
def replaceAxes (axes : Tensor) (normalized : List Int) : Rule := do
  if normalized = axes.toInts then pure ()
  else if ← read (·.inputIsShared 1) then pure ()
  else
    let replaced ← (Grid.ofCells axes.shape (normalized.map Int64.ofInt)).map Tensor.i64
    let name ← read fun v => return v.name
    say .trace (name ++ ": axes " ++ Text.listing axes.toInts ++ " rewritten to " ++
      Text.listing normalized)
    setInputValue 1 replaced

/-- The output of an unsqueeze whose axes are not known, from their shape. -/
def unsqueezeUnknown (rank : Nat) (axes : Shape) : Rule := do
  if axes.hasUnknown then setOutputUnknown 0
  else setOutputShape 0 (unknownShape (rank + (← Shape.volume axes).toNat))

def unsqueeze : Rule := do
  let input ← read (·.inputShape 0)
  match ← read (·.inputValue 1) with
  | none => unsqueezeUnknown input.length (← read (·.inputShape 1))
  | some axes =>
    let (shape, normalized) ← Shape.unsqueeze input axes.toInts
    replaceAxes axes (normalized.map Int.ofNat)
    setOutputShape 0 shape
    reshapeValue shape

end TensorGraph.Rules
