/-!
What happens to a graph is told in messages of five levels.
-/

namespace TensorGraph

/-- How severe a message is, the most severe first. -/
inductive Level where
  | error
  | warn
  | info
  | debug
  | trace
deriving DecidableEq, Repr

namespace Level

def label : Level → String
  | error => "ERROR"
  | warn => "WARN"
  | info => "INFO"
  | debug => "DEBUG"
  | trace => "TRACE"

/-- Zero for the most severe level, and one more for each level below it. -/
def verbosity : Level → Nat
  | error => 0
  | warn => 1
  | info => 2
  | debug => 3
  | trace => 4

end Level

structure Message where
  level : Level
  text : String
deriving DecidableEq, Repr

end TensorGraph
