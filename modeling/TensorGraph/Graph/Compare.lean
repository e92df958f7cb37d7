import TensorGraph.Graph.Neighbours
import TensorGraph.Remaining
import TensorGraph.Tensor.Closeness

/-!
Two graphs are compared from nodes of one name backwards: a search over pairs of nodes that
stand at the same place notes everything in which they differ. The inputs of an operation that
does not depend on their order are paired by what they come from.
-/

namespace TensorGraph

open Text

inductive Difference where
  | contents
  | kind (a b : String)
  | typeName (a b : Option String)
  | attributes (name : String) (a b : Option Attribute)
  | shape (a b : Option Shape)
  | value (a b : Option Tensor)
  | inputCount (a b : Nat)
  | ports (a b : Edge)

def Difference.message : Difference → String
  | contents => "node kinds differ"
  | kind a b => s!"op {a} against {b}"
  | typeName a b => s!"type {optional quoted a} against {optional quoted b}"
  | attributes name a b =>
    s!"attribute {name}: {optional Attribute.describe a} against {optional Attribute.describe b}"
  | shape a b => s!"shape {optional listing a} against {optional listing b}"
  | value a b => s!"value {optional Tensor.describe a} against {optional Tensor.describe b}"
  | inputCount a b => s!"{a} inputs against {b}"
  | ports a b => s!"edge ports differ: {a.out}->{a.inp} against {b.out}->{b.inp}"

structure Finding where
  left : String
  right : String
  difference : Difference

def Finding.message (f : Finding) : String := s!"{f.left} / {f.right}: {f.difference.message}"

/-! ### Nodes -/

/-- The kinds of operations whose inputs may come in any order. -/
def commutativeKinds : List String := ["Add", "Multiply", "Maximum"]

def Node.isCommutative (n : Node) : Bool := commutativeKinds.any n.isOpOf

def attributeNames (a b : Attributes) : List String := (a.union b).keys

/-- The differences between two operations, those of their attributes only on demand. -/
def Operation.differences (a b : Operation) (withAttributes : Bool) : List Difference :=
  (if a.kind = b.kind then [] else [.kind a.kind b.kind]) ++
  (if a.typeName = b.typeName then [] else [.typeName a.typeName b.typeName]) ++
  if withAttributes then
    (attributeNames a.attributes b.attributes).filterMap fun name =>
      match a.attributes.find? name, b.attributes.find? name with
      | some x, some y => if x == y then none else some (.attributes name (some x) (some y))
      | x, y => some (.attributes name x y)
  else []

def valuesAgree : Option Tensor → Option Tensor → Bool
  | none, none => true
  | some x, some y => x.isClose y
  | _, _ => false

def Fact.differences (a b : Fact) : List Difference :=
  (if a.shape = b.shape then [] else [.shape a.shape b.shape]) ++
  if valuesAgree a.value b.value then [] else [.value a.value b.value]

def Content.differences (withAttributes : Bool) : Content → Content → List Difference
  | op x, op y => x.differences y withAttributes
  | data x, data y => x.differences y
  | _, _ => [.contents]

namespace Graph

/-! ### Inputs -/

/-- By what the inputs of an operation that does not depend on their order are paired: the kind
of the operation an input comes from, and its shape. -/
def signature (g : Graph) (e : Edge) : Except Error (Option (String × Option Shape)) := do
  let f ← g.fact e.src
  match ← g.producer e.src with
  | some p => return some ((← g.operation p).kind, f.shape)
  | none => return none

def takeSigned (g : Graph) (sig : Option (String × Option Shape)) :
    List Edge → Except Error (Option (Edge × List Edge))
  | [] => return none
  | e :: es => do
    if (← g.signature e) = sig then return some (e, es)
    else return (← g.takeSigned sig es).map fun r => (r.1, e :: r.2)

/-- Pairs the edges of a list with those of another of the same signature. Gives the pairs and
what is left on either side. -/
def pairSigned (a b : Graph) :
    List Edge → List Edge → Except Error (List (Edge × Edge) × List Edge × List Edge)
  | [], free => return ([], [], free)
  | e :: es, free => do
    match ← b.takeSigned (← a.signature e) free with
    | some (f, free) =>
      let (pairs, left, free) ← a.pairSigned b es free
      return ((e, f) :: pairs, left, free)
    | none =>
      let (pairs, left, free) ← a.pairSigned b es free
      return (pairs, e :: left, free)

/-- Pairs inputs by signature, and what is left in port order. -/
def pairUnordered (a b : Graph) (insA insB : List Edge) : Except Error (List (Edge × Edge)) := do
  let (pairs, left, free) ← a.pairSigned b insA insB
  return pairs ++ left.zip free

def pairInputs (a b : Graph) (commutative : Bool) (insA insB : List Edge) :
    Except Error (List (Edge × Edge)) :=
  if commutative then a.pairUnordered b insA insB else return insA.zip insB

def portsAgree (commutative : Bool) (p : Edge × Edge) : Bool :=
  p.1.out == p.2.out && (commutative || p.1.inp == p.2.inp)

def compareInputs (a b : Graph) (commutative : Bool) (insA insB : List Edge) :
    Except Error (List Difference × List (NodeId × NodeId)) := do
  if insA.length ≠ insB.length then return ([.inputCount insA.length insB.length], [])
  let pairs ← a.pairInputs b commutative insA insB
  let faults := pairs.filter fun p => !portsAgree commutative p
  return (faults.map fun p => .ports p.1 p.2, pairs.map fun p => (p.1.src, p.2.src))

theorem length_pairSigned {a b : Graph} {es free rest left : List Edge}
    {pairs : List (Edge × Edge)} (h : a.pairSigned b es free = .ok (pairs, left, rest)) :
    pairs.length + left.length = es.length := by
  induction es generalizing free rest left pairs with
  | nil => cases h; rfl
  | cons e es ih =>
    simp only [pairSigned, bind, Except.bind, pure, Except.pure] at h
    split at h
    · cases h
    split at h
    · cases h
    split at h
    · split at h
      · cases h
      next v hv =>
        obtain ⟨pairs, left, rest⟩ := v
        have := ih hv
        cases h
        simp only [List.length_cons]
        omega
    · split at h
      · cases h
      next v hv =>
        obtain ⟨pairs, left, rest⟩ := v
        have := ih hv
        cases h
        simp only [List.length_cons]
        omega

theorem length_pairInputs_le {a b : Graph} {commutative : Bool} {insA insB : List Edge}
    {pairs : List (Edge × Edge)} (h : a.pairInputs b commutative insA insB = .ok pairs) :
    pairs.length ≤ insA.length := by
  cases commutative with
  | false =>
    cases h
    simp only [List.length_zip]
    omega
  | true =>
    simp only [pairInputs, pairUnordered, bind, Except.bind, pure, Except.pure, if_true] at h
    split at h
    · cases h
    next v hv =>
      obtain ⟨pairs, left, rest⟩ := v
      have := length_pairSigned hv
      cases h
      simp only [List.length_append, List.length_zip]
      omega

theorem length_compareInputs_le {a b : Graph} {commutative : Bool} {insA insB : List Edge}
    {r : List Difference × List (NodeId × NodeId)}
    (h : a.compareInputs b commutative insA insB = .ok r) : r.2.length ≤ insA.length := by
  simp only [compareInputs, bind, Except.bind, pure, Except.pure] at h
  split at h
  · cases h
    simp
  · split at h
    · cases h
    · have := length_pairInputs_le ‹_›
      cases h
      simpa using this

/-! ### The search -/

def comparePair (a b : Graph) (withAttributes : Bool) (ids : NodeId × NodeId) (x y : Node) :
    Except Error (List Finding × List (NodeId × NodeId)) := do
  let own := Content.differences withAttributes x.content y.content
  let (inputs, next) ← a.compareInputs b x.isCommutative (a.incoming ids.1) (b.incoming ids.2)
  return ((own ++ inputs).map (⟨x.name, y.name, ·⟩), next)

theorem length_comparePair_le {a b : Graph} {withAttributes : Bool} {ids : NodeId × NodeId}
    {x y : Node} {r : List Finding × List (NodeId × NodeId)}
    (h : a.comparePair b withAttributes ids x y = .ok r) :
    r.2.length ≤ (a.incoming ids.1).length := by
  simp only [comparePair, bind, Except.bind, pure, Except.pure] at h
  split at h
  · cases h
  · have := length_compareInputs_le ‹_›
    cases h
    exact this

def nodePairs (a b : Graph) : List (NodeId × NodeId) :=
  a.nodeIds.flatMap fun x => b.nodeIds.map fun y => (x, y)

theorem mem_nodePairs {a b : Graph} {p : NodeId × NodeId} :
    p ∈ a.nodePairs b ↔ p.1 ∈ a.nodeIds ∧ p.2 ∈ b.nodeIds := by
  obtain ⟨x, y⟩ := p
  simp [nodePairs]

/-- Compares the pairs in the queue that have not been seen, and those they lead to. -/
def comparePairs (a b : Graph) (withAttributes : Bool) (seen : List (NodeId × NodeId))
    (found : List Finding) : List (NodeId × NodeId) → Except Error (List Finding)
  | [] => .ok found
  | ids :: queue =>
    if ids ∈ seen then a.comparePairs b withAttributes seen found queue
    else
      match _left : a.node? ids.1, _right : b.node? ids.2 with
      | some x, some y =>
        match _step : a.comparePair b withAttributes ids x y with
        | .ok (findings, next) =>
          a.comparePairs b withAttributes (ids :: seen) (found ++ findings) (queue ++ next)
        | .error e => .error e
      | none, _ => .error (Reference.node ids.1)
      | _, none => .error (Reference.node ids.2)
termination_by queue =>
  remaining (fun ids => (a.incoming ids.1).length) seen (a.nodePairs b) + queue.length
decreasing_by
  · simp
  · have hmem : ids ∈ a.nodePairs b :=
      mem_nodePairs.2 ⟨mem_nodeIds.2 (by simp [_left]), mem_nodeIds.2 (by simp [_right])⟩
    have := remaining_cons_add_lt (fun ids => (a.incoming ids.1).length) hmem ‹ids ∉ seen›
    have hnext : next.length ≤ (a.incoming ids.1).length := length_comparePair_le _step
    simp only [List.length_append, List.length_cons]
    omega

/-- Everything in which two graphs differ, seen from the nodes of a name backwards. -/
def compare (a b : Graph) (last : String) (withAttributes : Bool) :
    Except Error (List Finding) := do
  a.comparePairs b withAttributes [] [] [(← a.nodeId last, ← b.nodeId last)]

def report (found : List Finding) : String := separated "\n" (found.map (·.message))

/-- Whether two graphs match, seen from the nodes of a name backwards, and the report of everything
in which they differ. -/
def matchReport (a b : Graph) (last : String) (withAttributes : Bool) :
    Except Error (Bool × String) := do
  let found ← a.compare b last withAttributes
  return (found.isEmpty, report found)

end Graph

end TensorGraph
