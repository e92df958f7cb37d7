import Mathlib.Data.List.Nodup
import Mathlib.Data.List.Sort
import Mathlib.Tactic.Common
import TensorGraph.Graph.Neighbours

/-!
What the views of a graph say: which nodes a listing holds, which edges stand at a node, and
what each change does to the edges.
-/

namespace TensorGraph

variable {α : Type}

lemma Slots.indices_entries (s : Slots α) : s.entries.map (·.1) = s.indices := by
  unfold Slots.entries Slots.indices
  induction List.range s.next with
  | nil => rfl
  | cons i l ih =>
    rcases hi : s.get? i with _ | a <;> simp [hi, ih]

lemma Slots.nodup_entries (s : Slots α) : (s.entries.map (·.1)).Nodup :=
  s.indices_entries ▸ s.nodup_indices

/-- Maps that give the same are the same. -/
lemma Dict.ext_find? {α : Type} {d e : Dict α} (h : ∀ k, d.find? k = e.find? k) : d = e := by
  have : Std.Irrefl fun a b : String × α => a.1 < b.1 := ⟨fun a => String.lt_irrefl a.1⟩
  have : Std.Antisymm fun a b : String × α => a.1 < b.1 :=
    ⟨fun a b hab hba => absurd hba (String.lt_asymm hab)⟩
  have hentries : d.entries = e.entries := by
    refine d.sorted.eq_of_mem_iff e.sorted fun ⟨k, v⟩ => ?_
    rw [← Dict.find?_eq_some_iff, ← Dict.find?_eq_some_iff, h]
  cases d
  cases e
  simpa using hentries

lemma sortBy_nodup {le : α → α → Bool} {l : List α} : (sortBy le l).Nodup ↔ l.Nodup :=
  (sortBy_perm le l).nodup_iff

lemma Node.isData_eq (n : Node) : n.isData = !n.isOp := rfl

namespace Graph

variable {g : Graph} {id : NodeId} {n : Node} {e : Edge}

lemma nodeIds_eq_indices (g : Graph) : g.nodeIds = g.nodes.indices.map NodeId.mk := by
  rw [nodeIds_eq, entries_eq, ← Slots.indices_entries, List.map_map, List.map_map]
  rfl

lemma nodup_nodeIds (g : Graph) : g.nodeIds.Nodup := by
  rw [nodeIds_eq_indices]
  exact g.nodes.nodup_indices.map fun _ _ h => NodeId.mk.inj h

lemma nodup_entryIds (g : Graph) : (g.entries.map (·.1)).Nodup := nodeIds_eq ▸ g.nodup_nodeIds

lemma find?_eq_none {name : String} :
    g.find? name = none ↔ ∀ id n, g.node? id = some n → n.name ≠ name := by
  rw [Option.eq_none_iff_forall_ne_some]
  constructor
  · exact fun h id n hn hname => h id (find?_eq_some.2 ⟨n, hn, hname⟩)
  · intro h id hid
    obtain ⟨n, hn, hname⟩ := find?_eq_some.1 hid
    exact h id n hn hname

lemma contains_eq_false {name : String} :
    g.contains name = false ↔ ∀ id n, g.node? id = some n → n.name ≠ name := by
  rw [← find?_eq_none, contains, Dict.contains, Option.isSome_eq_false_iff,
    Option.isNone_iff_eq_none, find?]

@[simp] lemma node_eq_ok : g.node id = .ok n ↔ g.node? id = some n := by
  unfold node
  rcases g.node? id with _ | m <;> simp

@[simp] lemma edge_eq_ok {i : EdgeId} : g.edge i = .ok e ↔ g.edge? i = some e := by
  unfold edge
  rcases g.edge? i with _ | m <;> simp

@[simp] lemma nodeId_eq_ok {name : String} : g.nodeId name = .ok id ↔ g.find? name = some id := by
  unfold nodeId
  rcases g.find? name with _ | m <;> simp

lemma id_of_edge? {i : EdgeId} (h : g.edge? i = some e) : e.id = i :=
  g.balanced.edge_numbered h

lemma edge?_eq_some {i : EdgeId} : g.edge? i = some e ↔ e ∈ g.edges ∧ e.id = i := by
  constructor
  · intro h
    have hi := id_of_edge? h
    refine ⟨mem_edges.2 ?_, hi⟩
    rw [hi]
    exact h
  · rintro ⟨he, rfl⟩
    exact mem_edges.1 he

lemma eq_of_mem_edges {f : Edge} (he : e ∈ g.edges) (hf : f ∈ g.edges) (h : e.id = f.id) :
    e = f := by
  have he' := mem_edges.1 he
  rw [h, mem_edges.1 hf] at he'
  exact (Option.some.inj he').symm

lemma nodup_edgeIds (g : Graph) : (g.edges.map (·.id)).Nodup := by
  have h : g.edges.map (·.id) = (g.links.entries.map (·.1)).map EdgeId.mk := by
    simp [edges_eq, List.map_map, Function.comp_def]
  rw [h]
  refine List.Nodup.map ?_ g.links.nodup_entries
  intro a b hab
  exact EdgeId.mk.inj hab

lemma nodup_edges (g : Graph) : g.edges.Nodup := List.Nodup.of_map _ g.nodup_edgeIds

/-- The nodes and the links determine the tables. -/
lemma toLedger_eq {h : Graph} (hnodes : g.nodes = h.nodes) (hlinks : g.links = h.links) :
    g.toLedger = h.toLedger := by
  have hnode (id : NodeId) : g.node? id = h.node? id := by
    rw [node?_eq_get?, node?_eq_get?, hnodes]
  have hedges : g.toLedger.edges = h.toLedger.edges := edges_eq.trans (hlinks ▸ edges_eq.symm)
  have hrecords : g.records = h.records := by
    refine Slots.ext_get? (by rw [← next_nodes, hnodes, next_nodes]) fun i => ?_
    have hi : (g.records.get? i).map (·.toNode) = (h.records.get? i).map (·.toNode) := hnode ⟨i⟩
    rcases hr : g.records.get? i with _ | r <;> rcases hs : h.records.get? i with _ | s <;>
      rw [hr, hs] at hi
    · cases hi
    · cases hi
    · obtain ⟨n, rid, rin, rout⟩ := r
      obtain ⟨m, sid, sin, sout⟩ := s
      obtain rfl : n = m := Option.some.inj hi
      obtain rfl : rid = ⟨i⟩ := g.balanced.numbered hr
      obtain rfl : sid = ⟨i⟩ := h.balanced.numbered hs
      obtain rfl : rin = _ := g.balanced.inputs hr
      obtain rfl : rout = _ := g.balanced.outputs hr
      obtain rfl : sin = _ := h.balanced.inputs hs
      obtain rfl : sout = _ := h.balanced.outputs hs
      rw [hedges]
  have hconnections : g.connections = h.connections := by
    refine Slots.ext_get? (by rw [← next_links, hlinks, next_links]) fun i => ?_
    exact (edge?_eq (g := g) ⟨i⟩).trans (hlinks ▸ (edge?_eq (g := h) ⟨i⟩).symm)
  have hnames : g.names = h.names := Dict.ext_find? fun name => Option.ext fun id => by
    show g.find? name = some id ↔ h.find? name = some id
    simp only [find?_eq_some, hnode]
  rcases hg : g.toLedger with ⟨_, _, _⟩
  rcases hh : h.toLedger with ⟨_, _, _⟩
  simp_all

lemma eq_of_views {h : Graph} (hnodes : g.nodes = h.nodes) (hlinks : g.links = h.links)
    (hrevision : g.revision = h.revision) (hstage : g.stage = h.stage) : g = h := by
  have hledger := toLedger_eq hnodes hlinks
  obtain ⟨_, _, _, _⟩ := g
  obtain ⟨_, _, _, _⟩ := h
  cases hledger
  cases hrevision
  cases hstage
  rfl

/-! ### Edges at a node -/

@[simp] lemma mem_incoming : e ∈ g.incoming id ↔ e ∈ g.edges ∧ e.dst = id := by
  simp [incoming_eq]

@[simp] lemma mem_outgoing : e ∈ g.outgoing id ↔ e ∈ g.edges ∧ e.src = id := by
  simp [outgoing_eq]

section record

variable {r : Record} (hr : g.record? id = some r)

include hr

lemma mem_edgesOf_inputs : e ∈ g.edgesOf r.inputs ↔ e ∈ g.incoming id := by
  rw [edgesOf_inputs hr, incoming_eq, mem_sortBy]

lemma mem_edgesOf_outputs : e ∈ g.edgesOf r.outputs ↔ e ∈ g.outgoing id := by
  rw [edgesOf_outputs hr, outgoing_eq, mem_sortBy]

/-- The numbers stored with a node are those of the edges at it. -/
lemma mem_stored {i : EdgeId} :
    i ∈ r.inputs ++ r.outputs ↔ ∃ e ∈ g.edges, (e.src = id ∨ e.dst = id) ∧ e.id = i := by
  rw [List.mem_append, g.balanced.inputs hr, g.balanced.outputs hr]
  simp only [List.mem_map, List.mem_filter, decide_eq_true_eq]
  constructor
  · rintro (⟨e, ⟨he, hdst⟩, hi⟩ | ⟨e, ⟨he, hsrc⟩, hi⟩)
    · exact ⟨e, he, .inr hdst, hi⟩
    · exact ⟨e, he, .inl hsrc, hi⟩
  · rintro ⟨e, he, hsrc | hdst, hi⟩
    · exact .inr ⟨e, ⟨he, hsrc⟩, hi⟩
    · exact .inl ⟨e, ⟨he, hdst⟩, hi⟩

end record

lemma nodup_incoming (g : Graph) (id : NodeId) : (g.incoming id).Nodup :=
  incoming_eq ▸ sortBy_nodup.2 (g.nodup_edges.filter _)

lemma nodup_outgoing (g : Graph) (id : NodeId) : (g.outgoing id).Nodup :=
  outgoing_eq ▸ sortBy_nodup.2 (g.nodup_edges.filter _)

lemma mem_sources {d : NodeId} : d ∈ g.sources id ↔ ∃ e ∈ g.edges, e.dst = id ∧ e.src = d := by
  simp only [sources, List.mem_map, mem_incoming, and_assoc]

lemma mem_targets {d : NodeId} : d ∈ g.targets id ↔ ∃ e ∈ g.edges, e.src = id ∧ e.dst = d := by
  simp only [targets, List.mem_map, mem_outgoing, and_assoc]

/-- The listings at the nodes depend on the links only. -/
lemma edges_congr {h : Graph} (hl : g.links = h.links) : g.edges = h.edges := by
  rw [edges_eq, edges_eq, hl]

lemma incoming_congr {h : Graph} (hl : g.links = h.links) : g.incoming id = h.incoming id := by
  rw [incoming_eq, incoming_eq, edges_congr hl]

lemma outgoing_congr {h : Graph} (hl : g.links = h.links) : g.outgoing id = h.outgoing id := by
  rw [outgoing_eq, outgoing_eq, edges_congr hl]

/-! ### The edges after each change -/

variable {l : Link} {hsrc : (g.node? l.src).isSome} {hdst : (g.node? l.dst).isSome}

@[simp] lemma edges_pushNode (g : Graph) {n : Node} (hfree : g.contains n.name = false) :
    (g.pushNode n hfree).edges = g.edges := rfl

@[simp] lemma edges_modifyOp (g : Graph) (id : NodeId) (f : Operation → Operation) :
    (g.modifyOp id f).edges = g.edges := rfl

@[simp] lemma edges_modifyFact (g : Graph) (id : NodeId) (f : Fact → Fact) :
    (g.modifyFact id f).edges = g.edges := rfl

lemma mem_edges_of_push {h : Graph} (hlinks : h.links = g.links.push l) :
    e ∈ h.edges ↔ e ∈ g.edges ∨ e = { l with id := ⟨g.links.next⟩ } := by
  rw [edges_eq, hlinks, Slots.entries_push, List.map_append, ← edges_eq, List.mem_append,
    List.map_singleton, List.mem_singleton]

lemma mem_edges_pushLink : e ∈ (g.pushLink l hsrc hdst).edges ↔
    e ∈ g.edges ∨ e = { l with id := ⟨g.links.next⟩ } :=
  mem_edges_of_push (links_pushLink hsrc hdst)

@[simp] lemma mem_edges_eraseEdge {i : EdgeId} :
    e ∈ (g.eraseEdge i).edges ↔ e ∈ g.edges ∧ e.id ≠ i := by
  rw [mem_edges, edge?_eraseEdge, mem_edges]
  by_cases h : e.id = i <;> simp [h]

lemma mem_edges_setOutPort {i : EdgeId} {port : Nat} :
    e ∈ (g.setOutPort i port).edges ↔
      (e ∈ g.edges ∧ e.id ≠ i) ∨ ∃ f ∈ g.edges, f.id = i ∧ e = { f with out := port } := by
  rw [mem_edges, edge?_setOutPort]
  by_cases h : e.id = i
  · simp only [h, if_true, ne_eq, not_true_eq_false, and_false, false_or, Option.map_eq_some_iff]
    constructor
    · rintro ⟨f, hf, rfl⟩
      obtain ⟨hmem, hid⟩ := edge?_eq_some.1 hf
      exact ⟨f, hmem, hid, rfl⟩
    · rintro ⟨f, hmem, hid, rfl⟩
      exact ⟨f, edge?_eq_some.2 ⟨hmem, hid⟩, rfl⟩
  · simp only [ne_eq, h, not_false_eq_true, and_true, if_false, mem_edges]
    refine ⟨Or.inl, fun h' => h'.resolve_right ?_⟩
    rintro ⟨f, _, hf, rfl⟩
    exact h hf

/-! ### The nodes after a node is added -/

section pushNode

variable {m : Node} (hfree : g.contains m.name = false)

include hfree

lemma node?_pushNode_of_some (h : g.node? id = some n) :
    (g.pushNode m hfree).node? id = some n := by
  have hlt : id.index < g.nodes.next := Slots.lt_next_of_get?_eq_some (node?_eq_get? ▸ h)
  rw [node?_pushNode, if_neg (Nat.ne_of_lt hlt)]
  exact h

lemma node?_pushNode_eq_some : (g.pushNode m hfree).node? id = some n ↔
    (id = ⟨g.nodes.next⟩ ∧ n = m) ∨ g.node? id = some n := by
  constructor
  · intro h
    rw [node?_pushNode] at h
    split at h
    · next hi => exact Or.inl ⟨congrArg NodeId.mk hi, (Option.some.inj h).symm⟩
    · exact Or.inr h
  · rintro (⟨rfl, rfl⟩ | h)
    · simp [node?_pushNode]
    · exact node?_pushNode_of_some hfree h

end pushNode

/-! ### The nodes after an operation is added with its data -/

/-- The number of the next operation that is added with its data. -/
def freshOp (g : Graph) : NodeId := ⟨g.nodes.next⟩

/-- The number of the data node that the next operation is added with. -/
def freshData (g : Graph) : NodeId := ⟨g.nodes.next + 1⟩

lemma freshOp_ne_freshData (g : Graph) : g.freshOp ≠ g.freshData := by
  simp [freshOp, freshData]

lemma node?_freshOp (g : Graph) : g.node? g.freshOp = none :=
  node?_eq_get?.trans (Slots.get?_eq_none_of_next_le (Nat.le_refl _))

lemma node?_freshData (g : Graph) : g.node? g.freshData = none :=
  node?_eq_get?.trans (Slots.get?_eq_none_of_next_le (Nat.le_succ _))

lemma node?_of_push {h : Graph} {op data : Node}
    (hnodes : h.nodes = (g.nodes.push op).push data) (j : NodeId) :
    h.node? j = if j = g.freshData then some data else
      if j = g.freshOp then some op else g.node? j := by
  have hindex {n : Nat} : j.index = n ↔ j = ⟨n⟩ := ⟨congrArg NodeId.mk, congrArg NodeId.index⟩
  rw [node?_eq_get?, hnodes, Slots.get?_push, Slots.get?_push, Slots.next_push, node?_eq_get?]
  simp only [hindex]
  rfl

end Graph

end TensorGraph
