/-!
A graph is optimized in three stages, one after the other.
-/

namespace TensorGraph

inductive Stage where
  | front
  | middle
  | back
deriving DecidableEq, Repr

namespace Stage

/-- The stages in the order they run. -/
def all : List Stage := [front, middle, back]

/-- The place of a stage in that order. -/
def place : Stage → Nat
  | front => 0
  | middle => 1
  | back => 2

def text : Stage → String
  | front => "front"
  | middle => "middle"
  | back => "back"

end Stage

end TensorGraph
