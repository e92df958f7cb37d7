import TensorGraph.Error
import TensorGraph.Graph.Ledger
import TensorGraph.Stage

/-!
A graph is a ledger whose tables fit together, with a count of the changes and the stage of
optimization. Whoever makes an entry shows that the tables still fit, so what is stored twice is
read off wherever it is at hand, and what the tables say of each other is found below.
-/

namespace TensorGraph

/-- Operations and data with the connections between them. -/
structure Graph extends Ledger where
  revision : Nat
  stage : Stage
  balanced : toLedger.Balanced

namespace Graph

def empty : Graph := { Ledger.empty with revision := 0, stage := .front, balanced := .empty }

instance : EmptyCollection Graph := ⟨empty⟩

instance : Inhabited Graph := ⟨empty⟩

/-! ### Nodes -/

def record? (g : Graph) (id : NodeId) : Option Record := g.records.get? id.index

def node? (g : Graph) (id : NodeId) : Option Node := (g.record? id).map (·.toNode)

/-- The numbers of the nodes, ascending. -/
def nodeIds (g : Graph) : List NodeId := g.records.entries.map (·.2.id)

/-- The nodes with their numbers, by number. -/
def entries (g : Graph) : List (NodeId × Node) :=
  g.records.entries.map fun e => (e.2.id, e.2.toNode)

def size (g : Graph) : Nat := g.names.entries.length

/-- The number of the node of a name. -/
def find? (g : Graph) (name : String) : Option NodeId := g.names.find? name

def contains (g : Graph) (name : String) : Bool := g.names.contains name

/-- What is stored of a node that has to be there. -/
def record (g : Graph) (id : NodeId) : Except Error { r : Record // g.record? id = some r } :=
  if h : (g.record? id).isSome then .ok ⟨(g.record? id).get h, (Option.some_get h).symm⟩
  else .error (Reference.node id)

def node (g : Graph) (id : NodeId) : Except Error Node :=
  match g.node? id with
  | some n => .ok n
  | none => .error (Reference.node id)

def nodeId (g : Graph) (name : String) : Except Error NodeId :=
  match g.find? name with
  | some id => .ok id
  | none => .error (Reference.name name)

def operation (g : Graph) (id : NodeId) : Except Error Operation := do
  let n ← g.node id
  match n.operation? with
  | some o => return o
  | none => Except.error (GraphFault.notOp (n.describe id))

def fact (g : Graph) (id : NodeId) : Except Error Fact := do
  let n ← g.node id
  match n.fact? with
  | some f => return f
  | none => Except.error (GraphFault.notData (n.describe id))

/-- The operations, by number. -/
def opNodes (g : Graph) : List NodeId :=
  (g.entries.filter fun e => e.2.isOp).map (·.1)

def opNodesOf (g : Graph) (kind : String) : List NodeId :=
  (g.entries.filter fun e => e.2.isOpOf kind).map (·.1)

/-! ### Edges -/

/-- The edges, by number. -/
def edges (g : Graph) : List Edge := g.toLedger.edges

def edge? (g : Graph) (id : EdgeId) : Option Edge := g.connections.get? id.index

def edge (g : Graph) (id : EdgeId) : Except Error Edge :=
  match g.edge? id with
  | some e => .ok e
  | none => .error (Reference.edge id)

/-! ### What the tables say of each other -/

/-- The nodes, without what is stored of them twice. -/
def nodes (g : Graph) : Slots Node := g.toLedger.nodes

/-- The edges, without their numbers. -/
def links (g : Graph) : Slots Link := g.toLedger.links

variable {g : Graph} {id : NodeId}

theorem node?_eq_get? : g.node? id = g.nodes.get? id.index := (Slots.get?_map ..).symm

theorem next_nodes : g.nodes.next = g.records.next := Slots.next_map ..

theorem next_links : g.links.next = g.connections.next := Slots.next_map ..

theorem record?_isSome : (g.record? id).isSome = (g.node? id).isSome := Option.isSome_map.symm

theorem node?_of_record? {r : Record} (hr : g.record? id = some r) : g.node? id = some r.toNode :=
  Option.map_eq_some_iff.2 ⟨r, hr, rfl⟩

theorem node?_isSome {r : Record} (hr : g.record? id = some r) : (g.node? id).isSome := by
  rw [← record?_isSome, hr]
  rfl

theorem record_eq {r : Record} (hr : g.record? id = some r) : g.record id = .ok ⟨r, hr⟩ := by
  rw [record, dif_pos (by simp [hr])]
  simp [hr]

theorem record_eq_error (hnone : g.record? id = none) :
    g.record id = .error (Reference.node id) := by
  rw [record, dif_neg (by simp [hnone])]

theorem node_eq_map_record : g.node id = (g.record id).map (·.1.toNode) := by
  rcases Option.eq_none_or_eq_some (g.record? id) with hr | ⟨r, hr⟩
  · have hn : g.node? id = none := by rw [node?, hr, Option.map_none]
    rw [record_eq_error hr, node, hn]
    rfl
  · have hn : g.node? id = some r.toNode := by rw [node?, hr, Option.map_some]
    rw [record_eq hr, node, hn]
    rfl

theorem id_of_mem_entries {i : Nat} {r : Record} (hr : (i, r) ∈ g.records.entries) : r.id = ⟨i⟩ :=
  g.balanced.numbered (Slots.mem_entries.1 hr)

theorem record?_of_mem_entries {e : Nat × Record} (he : e ∈ g.records.entries) :
    g.record? e.2.id = some e.2 := by
  rw [id_of_mem_entries he]
  exact Slots.mem_entries.1 he

theorem entries_eq : g.entries = g.nodes.entries.map fun e => (⟨e.1⟩, e.2) := by
  rw [nodes, Ledger.nodes, Slots.entries_map, List.map_map]
  exact List.map_congr_left fun e he => by simp [id_of_mem_entries he]

theorem nodeIds_eq : g.nodeIds = g.entries.map (·.1) := by
  rw [entries, List.map_map]
  rfl

theorem mem_entries {n : Node} : (id, n) ∈ g.entries ↔ g.node? id = some n := by
  simp only [entries_eq, node?_eq_get?, List.mem_map, Prod.exists, Prod.mk.injEq]
  constructor
  · rintro ⟨i, m, h, rfl, rfl⟩
    exact Slots.mem_entries.1 h
  · exact fun h => ⟨id.index, n, Slots.mem_entries.2 h, rfl, rfl⟩

theorem mem_nodeIds : id ∈ g.nodeIds ↔ (g.node? id).isSome := by
  rw [nodeIds_eq, Option.isSome_iff_exists]
  constructor
  · intro h
    obtain ⟨⟨i, n⟩, hn, rfl⟩ := List.mem_map.1 h
    exact ⟨n, mem_entries.1 hn⟩
  · rintro ⟨n, hn⟩
    exact List.mem_map.2 ⟨(id, n), mem_entries.2 hn, rfl⟩

theorem find?_eq_some {name : String} :
    g.find? name = some id ↔ ∃ n, g.node? id = some n ∧ n.name = name := by
  rw [find?, g.balanced.named]
  constructor
  · rintro ⟨r, hr, hname⟩
    exact ⟨r.toNode, Option.map_eq_some_iff.2 ⟨r, hr, rfl⟩, hname⟩
  · rintro ⟨n, hn, hname⟩
    obtain ⟨r, hr, rfl⟩ := Option.map_eq_some_iff.1 hn
    exact ⟨r, hr, hname⟩

theorem edge?_eq (id : EdgeId) :
    g.edge? id = (g.links.get? id.index).map fun l => { l with id := id } := by
  rw [edge?, links, Ledger.links, Slots.get?_map, Option.map_map]
  rcases he : g.connections.get? id.index with _ | e
  · rfl
  · have hid : e.id = id := g.balanced.edge_numbered he
    rw [Option.map_some, Function.comp_apply, ← hid]

theorem edges_eq : g.edges = g.links.entries.map fun e => { e.2 with id := ⟨e.1⟩ } := by
  rw [edges, Ledger.edges, links, Ledger.links, Slots.entries_map, List.map_map]
  refine List.map_congr_left fun e he => ?_
  rw [Function.comp_apply, ← g.balanced.edge_numbered (Slots.mem_entries.1 he)]

theorem mem_edges {e : Edge} : e ∈ g.edges ↔ g.edge? e.id = some e := g.balanced.mem_edges

/-! ### Changes

These keep the revision; what counts as one change is said where the changes are made. -/

/-- Adds a node of a name that is free. -/
def pushNode (g : Graph) (n : Node) (hfree : g.contains n.name = false) : Graph :=
  { g with
    toLedger := g.addRecord n
    balanced := g.balanced.addRecord (by simpa [contains, Dict.contains] using hfree) }

def eraseNode (g : Graph) (id : NodeId) : Graph :=
  { g with
    toLedger := (g.detach id).dropRecord id
    balanced := by
      obtain ⟨hbalanced, hedges⟩ := g.balanced.detach id
      refine hbalanced.dropRecord fun e he => ?_
      rw [hedges] at he
      simpa using (List.mem_filter.1 he).2 }

/-- Applies a function to the operation that a node is, if it is one. -/
def modifyOp (g : Graph) (id : NodeId) (f : Operation → Operation) : Graph :=
  { g with
    toLedger := g.reviseRecord id (·.mapOperation f)
    balanced := g.balanced.reviseRecord id (Node.name_mapOperation f) }

/-- Applies a function to the fact that a node holds, if it is a data node. -/
def modifyFact (g : Graph) (id : NodeId) (f : Fact → Fact) : Graph :=
  { g with
    toLedger := g.reviseRecord id (·.mapFact f)
    balanced := g.balanced.reviseRecord id (Node.name_mapFact f) }

/-- Adds a link between two nodes that are there. -/
def pushLink (g : Graph) (l : Link) (hsrc : (g.node? l.src).isSome)
    (hdst : (g.node? l.dst).isSome) : Graph :=
  { g with
    toLedger := g.addConnection l
    balanced := g.balanced.addConnection (record?_isSome.trans hsrc) (record?_isSome.trans hdst) }

def eraseEdge (g : Graph) (id : EdgeId) : Graph :=
  { g with toLedger := g.dropConnection id, balanced := g.balanced.dropConnection id }

def setOutPort (g : Graph) (id : EdgeId) (port : Nat) : Graph :=
  { g with toLedger := g.moveConnection id port, balanced := g.balanced.moveConnection id port }

/-! ### The nodes and edges after each change -/

/-- Only the node itself goes if there are no edges left at it. -/
theorem toLedger_eraseNode (hfree : ∀ e ∈ g.edges, e.src ≠ id ∧ e.dst ≠ id) :
    (g.eraseNode id).toLedger = g.dropRecord id :=
  congrArg (Ledger.dropRecord · id) (g.balanced.detach_of_free hfree)

@[simp] theorem nodes_pushNode {n : Node} (hfree : g.contains n.name = false) :
    (g.pushNode n hfree).nodes = g.nodes.push n := Ledger.nodes_addRecord n

@[simp] theorem nodes_eraseNode (id : NodeId) : (g.eraseNode id).nodes = g.nodes.erase id.index :=
  (Ledger.nodes_dropRecord id).trans (congrArg (Slots.erase · id.index) (Ledger.nodes_detach id))

@[simp] theorem nodes_modifyOp (f : Operation → Operation) :
    (g.modifyOp id f).nodes = g.nodes.modify id.index (·.mapOperation f) :=
  Ledger.nodes_reviseRecord ..

@[simp] theorem nodes_modifyFact (f : Fact → Fact) :
    (g.modifyFact id f).nodes = g.nodes.modify id.index (·.mapFact f) :=
  Ledger.nodes_reviseRecord ..

section pushLink

variable {l : Link} (hsrc : (g.node? l.src).isSome) (hdst : (g.node? l.dst).isSome)

@[simp] theorem nodes_pushLink : (g.pushLink l hsrc hdst).nodes = g.nodes :=
  Ledger.nodes_addConnection l

@[simp] theorem links_pushLink : (g.pushLink l hsrc hdst).links = g.links.push l :=
  Ledger.links_addConnection l

end pushLink

@[simp] theorem nodes_eraseEdge (i : EdgeId) : (g.eraseEdge i).nodes = g.nodes :=
  Ledger.nodes_dropConnection i

@[simp] theorem nodes_setOutPort (i : EdgeId) (port : Nat) :
    (g.setOutPort i port).nodes = g.nodes := rfl

@[simp] theorem links_eraseEdge (i : EdgeId) : (g.eraseEdge i).links = g.links.erase i.index :=
  Ledger.links_dropConnection i

@[simp] theorem links_setOutPort (i : EdgeId) (port : Nat) : (g.setOutPort i port).links =
    g.links.modify i.index fun l => { l with out := port } := Ledger.links_moveConnection ..

@[simp] theorem node?_empty (id : NodeId) : empty.node? id = none :=
  Option.map_eq_none_iff.2 (Slots.get?_empty id.index)

@[simp] theorem edge?_empty (id : EdgeId) : empty.edge? id = none := Slots.get?_empty id.index

theorem node?_pushNode {n : Node} (hfree : g.contains n.name = false) (id : NodeId) :
    (g.pushNode n hfree).node? id = if id.index = g.nodes.next then some n else g.node? id := by
  rw [node?_eq_get?, nodes_pushNode, Slots.get?_push, node?_eq_get?]

@[simp] theorem node?_eraseNode (i j : NodeId) :
    (g.eraseNode i).node? j = if j = i then none else g.node? j := by
  rw [node?_eq_get?, nodes_eraseNode, Slots.get?_erase, node?_eq_get?]
  obtain ⟨i⟩ := i
  obtain ⟨j⟩ := j
  simp only [NodeId.mk.injEq]

@[simp] theorem node?_modifyOp (i j : NodeId) (f : Operation → Operation) :
    (g.modifyOp i f).node? j = if j = i then (g.node? i).map (·.mapOperation f) else g.node? j := by
  rw [node?_eq_get?, nodes_modifyOp, Slots.get?_modify, node?_eq_get?, node?_eq_get?]
  obtain ⟨i⟩ := i
  obtain ⟨j⟩ := j
  simp only [NodeId.mk.injEq]

@[simp] theorem node?_modifyFact (i j : NodeId) (f : Fact → Fact) :
    (g.modifyFact i f).node? j = if j = i then (g.node? i).map (·.mapFact f) else g.node? j := by
  rw [node?_eq_get?, nodes_modifyFact, Slots.get?_modify, node?_eq_get?, node?_eq_get?]
  obtain ⟨i⟩ := i
  obtain ⟨j⟩ := j
  simp only [NodeId.mk.injEq]

theorem node?_congr {g h : Graph} (hn : g.nodes = h.nodes) : g.node? = h.node? := by
  funext id
  rw [node?_eq_get?, node?_eq_get?, hn]

@[simp] theorem node?_pushLink {l : Link} (hsrc : (g.node? l.src).isSome)
    (hdst : (g.node? l.dst).isSome) : (g.pushLink l hsrc hdst).node? = g.node? :=
  node?_congr (nodes_pushLink hsrc hdst)

@[simp] theorem node?_eraseEdge (i : EdgeId) : (g.eraseEdge i).node? = g.node? :=
  node?_congr (nodes_eraseEdge i)

@[simp] theorem node?_setOutPort (i : EdgeId) (port : Nat) :
    (g.setOutPort i port).node? = g.node? :=
  rfl

theorem edge?_pushLink {l : Link} {hsrc : (g.node? l.src).isSome} {hdst : (g.node? l.dst).isSome}
    (id : EdgeId) : (g.pushLink l hsrc hdst).edge? id =
      if id.index = g.links.next then some { l with id := id } else g.edge? id := by
  rw [edge?_eq, links_pushLink, Slots.get?_push, edge?_eq]
  split <;> rfl

@[simp] theorem edge?_eraseEdge (i j : EdgeId) :
    (g.eraseEdge i).edge? j = if j = i then none else g.edge? j := by
  rw [edge?_eq, links_eraseEdge, Slots.get?_erase, edge?_eq]
  obtain ⟨i⟩ := i
  obtain ⟨j⟩ := j
  by_cases h : j = i <;> simp [h]

@[simp] theorem edge?_setOutPort (i j : EdgeId) (port : Nat) :
    (g.setOutPort i port).edge? j =
      if j = i then (g.edge? i).map fun e => { e with out := port } else g.edge? j := by
  obtain ⟨i⟩ := i
  obtain ⟨j⟩ := j
  show (Slots.modify g.connections i _).get? j = _
  rw [Slots.get?_modify]
  by_cases h : j = i <;> simp [edge?, h]

@[simp] theorem edge?_pushNode {n : Node} (hfree : g.contains n.name = false) :
    (g.pushNode n hfree).edge? = g.edge? := rfl

@[simp] theorem edge?_modifyOp (i : NodeId) (f : Operation → Operation) :
    (g.modifyOp i f).edge? = g.edge? := rfl

@[simp] theorem edge?_modifyFact (i : NodeId) (f : Fact → Fact) :
    (g.modifyFact i f).edge? = g.edge? := rfl

theorem edges_eraseNode_of_free (hfree : ∀ e ∈ g.edges, e.src ≠ id ∧ e.dst ≠ id) :
    (g.eraseNode id).edges = g.edges := by
  rw [edges, toLedger_eraseNode hfree]
  exact Ledger.edges_dropRecord id

end Graph

end TensorGraph
