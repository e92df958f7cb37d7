/-!
Messages write a list between square brackets with commas, and an optional value as `None` or
`Some(...)` around it.
-/

namespace TensorGraph.Text

def separated (separator : String) (items : List String) : String :=
  separator.intercalate items

def bracketed (items : List String) : String := "[" ++ separated ", " items ++ "]"

/-- A list of integers, or of lists of them, in messages. -/
def listing {α : Type} [ToString α] (xs : List α) : String := bracketed (xs.map toString)

def optional {α : Type} (show' : α → String) : Option α → String
  | none => "None"
  | some a => "Some(" ++ show' a ++ ")"

end TensorGraph.Text
