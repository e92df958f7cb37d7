import TensorGraph.Inference.Rule

/-!
A registry says for each kind of operation which rule infers its shapes and what attributes it
needs. It also knows, by name, the rules that an attribute of an operation may put in place of
the registered one.
-/

namespace TensorGraph

structure OpEntry where
  kind : String
  rule : Rule
  /-- The attributes that have to be set, in the order they are asked for. -/
  required : List String
  /-- The attributes that hold where the operation sets none. -/
  defaults : Attributes
  /-- Do the output ports have a meaning, so that gaps between them stay? -/
  fixedOutputs : Bool

/-- An entry without attributes whose output ports may be renumbered. -/
def OpEntry.ofRule (kind : String) (rule : Rule) : OpEntry := ⟨kind, rule, [], .empty, false⟩

/-- Kinds of operations, and rules by name. -/
structure Registry where
  entries : Dict OpEntry
  rules : Dict Rule

namespace Registry

def empty : Registry := ⟨.empty, .empty⟩

instance : EmptyCollection Registry := ⟨empty⟩

instance : Inhabited Registry := ⟨empty⟩

def insert (r : Registry) (e : OpEntry) : Registry :=
  { r with entries := r.entries.insert e.kind e }

def nameRule (r : Registry) (name : String) (rule : Rule) : Registry :=
  { r with rules := r.rules.insert name rule }

def find? (r : Registry) (kind : String) : Option OpEntry := r.entries.find? kind

def contains (r : Registry) (kind : String) : Bool := r.entries.contains kind

def lookup (r : Registry) (kind : String) : Except Error OpEntry :=
  match r.find? kind with
  | some e => .ok e
  | none => .error (Cause.unknownOp kind none)

def kinds (r : Registry) : List String := r.entries.keys

/-- Have the output ports of a kind a meaning? -/
def isFixed (r : Registry) (kind : String) : Bool :=
  match r.find? kind with
  | some e => e.fixedOutputs
  | none => false

def register (r : Registry) (e : OpEntry) : Except Error Registry := do
  ensure (r.contains e.kind = false) (Cause.duplicateOp e.kind)
  return r.insert e

/-- What is logged when an entry is registered over another. -/
def overrideNotes (r : Registry) (e : OpEntry) : List Message :=
  if r.contains e.kind then [⟨.debug, "Overriding inference rule of " ++ e.kind⟩] else []

/-- The rule with a name. A name that was given to none stands for the rule that does nothing. -/
def named (r : Registry) (name : String) : Rule := (r.rules.find? name).getD (pure ())

/-- The rule of an operation: the one its attribute `infer` names, or else the one registered. -/
def ruleOf (r : Registry) (e : OpEntry) (attributes : Attributes) : Rule :=
  match (attributes.find? "infer").bind (·.toRule?) with
  | some name => r.named name
  | none => e.rule

end Registry

end TensorGraph
