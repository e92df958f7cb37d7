import TensorGraph.Graph.Basic
import TensorGraph.Sorted

/-!
The edges at a node come in an order that does not depend on how the graph was built: edges
that enter it by input port, edges that leave it by output port and then by where they lead.
-/

namespace TensorGraph.Graph

def inOrder (a b : Edge) : Bool := decide (a.inp ≤ b.inp)

def outOrder (a b : Edge) : Bool :=
  decide (a.out < b.out ∨ a.out = b.out ∧
    (a.dst.index < b.dst.index ∨ a.dst.index = b.dst.index ∧ a.inp ≤ b.inp))

/-- The edges of the numbers in a list, where they are there. -/
def edgesOf (g : Graph) (ids : List EdgeId) : List Edge := ids.filterMap g.edge?

/-- The edges into a node, by input port. -/
def incoming (g : Graph) (id : NodeId) : List Edge :=
  match g.record? id with
  | some r => sortBy inOrder (g.edgesOf r.inputs)
  | none => []

/-- The edges out of a node, by output port, then destination. -/
def outgoing (g : Graph) (id : NodeId) : List Edge :=
  match g.record? id with
  | some r => sortBy outOrder (g.edgesOf r.outputs)
  | none => []

def sources (g : Graph) (id : NodeId) : List NodeId := (g.incoming id).map (·.src)

def targets (g : Graph) (id : NodeId) : List NodeId := (g.outgoing id).map (·.dst)

/-! ### Neighbours of a node that has to be there -/

def inEdges (g : Graph) (id : NodeId) : Except Error (List Edge) := do
  let ⟨r, _⟩ ← g.record id
  return sortBy inOrder (← r.inputs.mapM g.edge)

def outEdges (g : Graph) (id : NodeId) : Except Error (List Edge) := do
  let ⟨r, _⟩ ← g.record id
  return sortBy outOrder (← r.outputs.mapM g.edge)

/-- The nodes that edges into a node come from, by input port. -/
def inputs (g : Graph) (id : NodeId) : Except Error (List NodeId) := do
  return (← g.inEdges id).map (·.src)

def outputs (g : Graph) (id : NodeId) : Except Error (List NodeId) := do
  return (← g.outEdges id).map (·.dst)

/-- The data connected to an input port of an operation. -/
def inputData (g : Graph) (op : NodeId) (port : Nat) : Except Error (Option NodeId) := do
  return ((← g.inEdges op).find? fun e => e.inp == port).map (·.src)

def outputData (g : Graph) (op : NodeId) (port : Nat) : Except Error (Option NodeId) := do
  return ((← g.outEdges op).find? fun e => e.out == port).map (·.dst)

def producer (g : Graph) (data : NodeId) : Except Error (Option NodeId) := do
  return (← g.inputs data).head?

def consumers (g : Graph) (data : NodeId) : Except Error (List Edge) := g.outEdges data

/-- The operation that an input port of an operation is fed from. -/
def producerOp (g : Graph) (op : NodeId) (port : Nat) : Except Error (Option NodeId) := do
  match ← g.inputData op port with
  | some data => g.producer data
  | none => return none

def sinks (g : Graph) : List NodeId :=
  (g.records.entries.filter fun e => e.2.outputs.isEmpty).map (·.2.id)

/-! ### The edges at a node, found in the table of edges -/

variable {g : Graph} {id : NodeId} {r : Record}

/-- The edges of the numbers of some edges are these. -/
theorem edgesOf_ids {l : List Edge} (hl : ∀ e ∈ l, e ∈ g.edges) : g.edgesOf (l.map (·.id)) = l := by
  induction l with
  | nil => rfl
  | cons e l ih =>
    rw [edgesOf, List.map_cons, List.filterMap_cons_some (mem_edges.1 (hl e (.head _)))]
    exact congrArg (e :: ·) (ih fun f hf => hl f (.tail _ hf))

theorem edgesOf_inputs (hr : g.record? id = some r) :
    g.edgesOf r.inputs = g.edges.filter fun e => e.dst = id := by
  rw [g.balanced.inputs hr]
  exact edgesOf_ids fun e he => (List.mem_filter.1 he).1

theorem edgesOf_outputs (hr : g.record? id = some r) :
    g.edgesOf r.outputs = g.edges.filter fun e => e.src = id := by
  rw [g.balanced.outputs hr]
  exact edgesOf_ids fun e he => (List.mem_filter.1 he).1

/-- There are no edges at a node that is not there. -/
theorem not_at_of_record?_eq_none (hnone : g.record? id = none) {e : Edge} (he : e ∈ g.edges) :
    e.src ≠ id ∧ e.dst ≠ id := by
  obtain ⟨hsrc, hdst⟩ := g.balanced.live_of_mem he
  rw [record?] at hnone
  exact ⟨fun heq => by simp [heq, hnone] at hsrc, fun heq => by simp [heq, hnone] at hdst⟩

theorem incoming_eq : g.incoming id = sortBy inOrder (g.edges.filter fun e => e.dst = id) := by
  unfold incoming
  split
  · next hr => rw [edgesOf_inputs hr]
  · next hnone =>
    rw [List.filter_eq_nil_iff.2 fun e he => by simpa using (not_at_of_record?_eq_none hnone he).2]
    rfl

theorem outgoing_eq : g.outgoing id = sortBy outOrder (g.edges.filter fun e => e.src = id) := by
  unfold outgoing
  split
  · next hr => rw [edgesOf_outputs hr]
  · next hnone =>
    rw [List.filter_eq_nil_iff.2 fun e he => by simpa using (not_at_of_record?_eq_none hnone he).1]
    rfl

theorem mapM_edge {ids : List EdgeId} (h : ∀ i ∈ ids, (g.edge? i).isSome) :
    ids.mapM g.edge = .ok (g.edgesOf ids) := by
  induction ids with
  | nil => rfl
  | cons i ids ih =>
    obtain ⟨e, he⟩ := Option.isSome_iff_exists.1 (h i (.head _))
    have hedge : g.edge i = .ok e := by rw [edge, he]
    have hcons : g.edgesOf (i :: ids) = e :: g.edgesOf ids := List.filterMap_cons_some he
    rw [List.mapM_cons, hedge, ih fun j hj => h j (.tail _ hj), hcons]
    rfl

theorem edge?_isSome_of_mem {p : Edge → Bool} {i : EdgeId}
    (hi : i ∈ (g.edges.filter p).map (·.id)) : (g.edge? i).isSome := by
  obtain ⟨e, he, rfl⟩ := List.mem_map.1 hi
  rw [mem_edges.1 (List.mem_filter.1 he).1]
  rfl

theorem inEdges_eq : g.inEdges id = (do
    let _ ← g.node id
    return g.incoming id) := by
  rcases Option.eq_none_or_eq_some (g.record? id) with hr | ⟨r, hr⟩
  · rw [inEdges, node_eq_map_record, record_eq_error hr]
    rfl
  · have hall : ∀ i ∈ r.inputs, (g.edge? i).isSome := by
      rw [g.balanced.inputs hr]
      exact fun i hi => edge?_isSome_of_mem hi
    have hat : g.incoming id = sortBy inOrder (g.edgesOf r.inputs) := by rw [incoming, hr]
    rw [inEdges, node_eq_map_record, record_eq hr, hat]
    show (do return sortBy inOrder (← r.inputs.mapM g.edge)) = _
    rw [mapM_edge hall]
    rfl

theorem outEdges_eq : g.outEdges id = (do
    let _ ← g.node id
    return g.outgoing id) := by
  rcases Option.eq_none_or_eq_some (g.record? id) with hr | ⟨r, hr⟩
  · rw [outEdges, node_eq_map_record, record_eq_error hr]
    rfl
  · have hall : ∀ i ∈ r.outputs, (g.edge? i).isSome := by
      rw [g.balanced.outputs hr]
      exact fun i hi => edge?_isSome_of_mem hi
    have hat : g.outgoing id = sortBy outOrder (g.edgesOf r.outputs) := by rw [outgoing, hr]
    rw [outEdges, node_eq_map_record, record_eq hr, hat]
    show (do return sortBy outOrder (← r.outputs.mapM g.edge)) = _
    rw [mapM_edge hall]
    rfl

theorem inputs_eq_nil_iff (hr : g.record? id = some r) : r.inputs = [] ↔ g.incoming id = [] := by
  rw [incoming_eq, sortBy_eq_nil, g.balanced.inputs hr, List.map_eq_nil_iff,
    edges]

theorem outputs_eq_nil_iff (hr : g.record? id = some r) :
    r.outputs = [] ↔ g.outgoing id = [] := by
  rw [outgoing_eq, sortBy_eq_nil, g.balanced.outputs hr, List.map_eq_nil_iff,
    edges]

theorem isEmpty_inputs (hr : g.record? id = some r) :
    r.inputs.isEmpty = (g.incoming id).isEmpty := by
  rw [Bool.eq_iff_iff, List.isEmpty_iff, List.isEmpty_iff, inputs_eq_nil_iff hr]

theorem isEmpty_outputs (hr : g.record? id = some r) :
    r.outputs.isEmpty = (g.outgoing id).isEmpty := by
  rw [Bool.eq_iff_iff, List.isEmpty_iff, List.isEmpty_iff, outputs_eq_nil_iff hr]

theorem sinks_eq : g.sinks = g.nodeIds.filter fun id => (g.outgoing id).isEmpty := by
  rw [sinks, nodeIds, List.filter_map]
  refine congrArg _ (List.filter_congr fun e he => ?_)
  rw [isEmpty_outputs (record?_of_mem_entries he), Function.comp_apply]

end TensorGraph.Graph
