import TensorGraph.Inference.Standard
import TensorGraph.Pipeline.Schedule
import TensorGraph.Transformation.Standard

/-!
A pipeline is a registry, a list of transformations and options that say which of them run.
-/

namespace TensorGraph

structure Options where
  /-- How often a transformation may be applied until the graph stays as it is. -/
  maxIterations : Nat
  /-- The transformations left out. -/
  disabled : List String
  /-- The stages that run. -/
  stages : List Stage

/-- All stages and transformations, and sixteen applications at most. -/
def Options.standard : Options := ⟨16, [], Stage.all⟩

/-- Transformations with what they need to run. -/
structure Pipeline where
  registry : Registry
  transformations : List Transformation
  options : Options

namespace Pipeline

def standard : Pipeline := ⟨.standard, Transformation.standard, .standard⟩

/-- The standard pipeline, where operations may name the rules of a table. -/
def standardWith (rules : Dict Rule) : Pipeline :=
  { standard with registry := { Registry.standard with rules } }

def enabled (p : Pipeline) : List Transformation :=
  p.transformations.filter fun t => !p.options.disabled.contains t.descriptor.id

def schedule (p : Pipeline) : Except Error (List Transformation) := do
  let order ← Schedule.order (p.enabled.map (·.descriptor))
  return order.filterMap (p.enabled[·]?)

def scheduledNote (t : Transformation) : Message :=
  ⟨.debug, "scheduled " ++ t.descriptor.id ++ " (" ++ t.descriptor.stage.text ++ ")"⟩

def scheduleNotes (p : Pipeline) : List Message :=
  Schedule.notes (p.enabled.map (·.descriptor)) ++
    match p.schedule with
    | .ok ts => ts.map scheduledNote
    | .error _ => []

end Pipeline

end TensorGraph
