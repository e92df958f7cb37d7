import TensorGraph.Inference.Rule

/-!
A proposal layer gives five numbers for each of a fixed number of regions.
-/

namespace TensorGraph.Rules

open RuleM

/-- Scales are written like elements of a tensor, without an exponent. -/
def scaleStyle : Decimal.Style := .plain

/-- A scale, or a list of them, as texts. -/
def scaleTexts : Attribute → Except Error (List String)
  | .strings l => .ok l
  | .ints l => .ok (l.map toString)
  | .floats l => .ok (l.map fun x => scaleStyle.render (.ofDouble x))
  | .int i => .ok [toString i]
  | .float x => .ok [scaleStyle.render (.ofDouble x)]
  | .string s => .ok [s]
  | a => .error (RuleFault.scale a.describe)

def replaceScale : Rule := do
  match ← read fun v => return v.attr? "scale" with
  | some scale => setAttribute "scale" (.strings (← scaleTexts scale))
  | none => pure ()

def supportedStride : Int := 16

def proposals : Rule := do
  let stride ← read (·.int "feat_stride")
  replaceScale
  if stride = supportedStride then
    setOutputShape 0 [← read (·.int "post_nms_topn"), 5]
  else
    let name ← read fun v => return v.name
    say .error (name ++ ": SimplerNMS only supports feat_stride " ++ toString supportedStride ++
      ", got " ++ toString stride)
    setOutputsUnknown

end TensorGraph.Rules
