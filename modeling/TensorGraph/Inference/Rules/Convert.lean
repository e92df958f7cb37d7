import TensorGraph.Inference.Rule

/-!
The rule of operations that change the element type.
-/

namespace TensorGraph.Rules

open RuleM

/-- The element type that a model calls by a name. -/
def destinationType (name : String) : Except Error ElementType :=
  match name with
  | "f32" => .ok .f32
  | "i64" => .ok .i64
  | "boolean" => .ok .bool
  | "bool" => .ok .bool
  | _ => .error (RuleFault.destinationType name)

def convert : Rule := do
  let type ← destinationType (← read (·.string "destination_type"))
  setOutputShape 0 (← read (·.inputShape 0))
  setOutputValue? 0 ((← read (·.inputValue 0)).map (·.cast type))

end TensorGraph.Rules
