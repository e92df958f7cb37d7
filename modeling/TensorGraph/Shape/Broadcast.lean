import TensorGraph.Shape.Basic

/-!
Shapes broadcast when, aligned on the right, their dimensions agree axis by axis; a dimension of
one, or an axis that is missing on the left, agrees with anything, and so does an unknown
dimension, which gives way to a known one other than one.
-/

namespace TensorGraph.Shape

def broadcastDim (a b : Int) : Option Int :=
  if a = b then some a
  else if a = 1 then some b
  else if b = 1 then some a
  else if a = -1 then some b
  else if b = -1 then some a
  else none

/-- The dimension on the axis `i` from the right, one where there is none. -/
def fromRight (s : Shape) (i : Nat) : Int := s.reverse.getD i 1

/-- The dimension that a list of dimensions stretches to, starting from `acc`; the shapes are
those to report. -/
def broadcastAxis (shapes : List Shape) (acc : Int) : List Int → Except Error Int
  | [] => .ok acc
  | d :: ds =>
    match broadcastDim acc d with
    | some e => broadcastAxis shapes e ds
    | none => .error (ShapeFault.broadcast acc d shapes)

@[simp] theorem broadcastDim_one (d : Int) : broadcastDim 1 d = some d := by
  unfold broadcastDim
  split
  · next h => rw [h]
  · exact if_pos rfl

/-- On an axis of two shapes only their own dimensions matter. -/
theorem broadcastAxis_pair {shapes : List Shape} {a b d : Int} :
    broadcastAxis shapes 1 [a, b] = .ok d ↔ broadcastDim a b = some d := by
  rcases h : broadcastDim a b with _ | e <;> simp [broadcastAxis, h]

def maxRank (shapes : List Shape) : Nat := shapes.foldl (fun r s => max r s.length) 0

/-- The shape that all shapes stretch to. Axes are tried from the right. -/
def broadcast (shapes : List Shape) : Except Error Shape := do
  let dims ← (List.range (maxRank shapes)).mapM fun i =>
    broadcastAxis shapes 1 (shapes.map fun s => fromRight s i)
  return dims.reverse

end TensorGraph.Shape
