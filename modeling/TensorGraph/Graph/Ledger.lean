import TensorGraph.Node
import TensorGraph.Slots

/-!
The tables of a graph.

Nodes and edges are kept in numbered slots, so that removing one never renumbers another. Each node
is stored with its number and with the numbers of the edges at it, and a table leads from names to
nodes. A ledger therefore says most things twice, and nothing in it makes the tables fit together:
it is `Balanced` if they do. Each entry that is made in the books below comes with the condition
under which they stay balanced.
-/

namespace TensorGraph

/-- A node as it is stored: with its number, and with the numbers of the edges that enter it and of
those that leave it. -/
structure Record extends Node where
  id : NodeId
  inputs : List EdgeId
  outputs : List EdgeId

/-- The tables of a graph. -/
structure Ledger where
  records : Slots Record
  connections : Slots Edge
  names : Dict NodeId

namespace Ledger

def empty : Ledger := ⟨∅, ∅, ∅⟩

/-- The edges by number. -/
def edges (l : Ledger) : List Edge := l.connections.entries.map (·.2)

/-- The nodes, without what is stored of them twice. -/
def nodes (l : Ledger) : Slots Node := l.records.map (·.toNode)

/-- The edges, without their numbers. -/
def links (l : Ledger) : Slots Link := l.connections.map (·.toLink)

/-- The tables fit together. -/
structure Balanced (l : Ledger) : Prop where
  numbered : ∀ {i r}, l.records.get? i = some r → r.id = ⟨i⟩
  edge_numbered : ∀ {i e}, l.connections.get? i = some e → e.id = ⟨i⟩
  live : ∀ {i e}, l.connections.get? i = some e →
    (l.records.get? e.src.index).isSome ∧ (l.records.get? e.dst.index).isSome
  inputs : ∀ {i r}, l.records.get? i = some r →
    r.inputs = (l.edges.filter (·.dst = ⟨i⟩)).map (·.id)
  outputs : ∀ {i r}, l.records.get? i = some r →
    r.outputs = (l.edges.filter (·.src = ⟨i⟩)).map (·.id)
  named : ∀ {name id}, l.names.find? name = some id ↔
    ∃ r, l.records.get? id.index = some r ∧ r.name = name

/-! ### Entries -/

/-- A new node goes to the end and into the table of names. -/
def addRecord (l : Ledger) (n : Node) : Ledger :=
  let id : NodeId := ⟨l.records.next⟩
  { l with
    records := l.records.push { n with id, inputs := [], outputs := [] }
    names := l.names.insert n.name id }

/-- A node is taken out, and its name out of the table of names. -/
def dropRecord (l : Ledger) (id : NodeId) : Ledger :=
  match l.records.get? id.index with
  | some r => { l with records := l.records.erase id.index, names := l.names.erase r.name }
  | none => l

/-- Applies a function to what is stored of a node beside its edges and number. -/
def reviseRecord (l : Ledger) (id : NodeId) (f : Node → Node) : Ledger :=
  { l with records := l.records.modify id.index fun r => { r with toNode := f r.toNode } }

/-- A new edge goes to the end, and its number to the end of the lists at its two nodes. -/
def addConnection (l : Ledger) (k : Link) : Ledger :=
  let id : EdgeId := ⟨l.connections.next⟩
  { l with
    connections := l.connections.push { k with id }
    records := (l.records.modify k.src.index fun r =>
      { r with outputs := r.outputs ++ [id] }).modify
      k.dst.index fun r => { r with inputs := r.inputs ++ [id] } }

/-- An edge is taken out, and its number out of the lists at its two nodes. -/
def dropConnection (l : Ledger) (id : EdgeId) : Ledger :=
  match l.connections.get? id.index with
  | some e =>
    { l with
      connections := l.connections.erase id.index
      records := (l.records.modify e.src.index fun r =>
        { r with outputs := r.outputs.filter (· ≠ id) }).modify e.dst.index fun r =>
        { r with inputs := r.inputs.filter (· ≠ id) } }
  | none => l

/-- Moves the source end of an edge to another output port. -/
def moveConnection (l : Ledger) (id : EdgeId) (port : Nat) : Ledger :=
  { l with connections := l.connections.modify id.index fun e => { e with out := port } }

/-- Takes out the edges that are stored with a node. -/
def detach (l : Ledger) (id : NodeId) : Ledger :=
  match l.records.get? id.index with
  | some r => (r.inputs ++ r.outputs).foldl dropConnection l
  | none => l

/-! ### The tables after each entry -/

variable {l : Ledger}

@[simp] theorem edges_addRecord (n : Node) : (l.addRecord n).edges = l.edges := rfl

@[simp] theorem edges_dropRecord (id : NodeId) : (l.dropRecord id).edges = l.edges := by
  unfold dropRecord
  split <;> rfl

@[simp] theorem edges_reviseRecord (id : NodeId) (f : Node → Node) :
    (l.reviseRecord id f).edges = l.edges := rfl

@[simp] theorem nodes_addRecord (n : Node) : (l.addRecord n).nodes = l.nodes.push n :=
  Slots.map_push ..

@[simp] theorem links_addRecord (n : Node) : (l.addRecord n).links = l.links := rfl

@[simp] theorem nodes_dropRecord (id : NodeId) :
    (l.dropRecord id).nodes = l.nodes.erase id.index := by
  unfold dropRecord
  split
  · exact Slots.map_erase ..
  · next hnone =>
    refine Slots.ext_get? (by simp) fun i => ?_
    by_cases hi : i = id.index <;> simp [nodes, hi, hnone]

@[simp] theorem links_dropRecord (id : NodeId) : (l.dropRecord id).links = l.links := by
  unfold dropRecord
  split <;> rfl

@[simp] theorem nodes_reviseRecord (id : NodeId) (f : Node → Node) :
    (l.reviseRecord id f).nodes = l.nodes.modify id.index f :=
  Slots.map_modify _ _ _ _ fun _ => rfl

@[simp] theorem links_reviseRecord (id : NodeId) (f : Node → Node) :
    (l.reviseRecord id f).links = l.links := rfl

@[simp] theorem nodes_addConnection (k : Link) : (l.addConnection k).nodes = l.nodes := by
  simp only [nodes, addConnection]
  rw [Slots.map_modify_of_eq, Slots.map_modify_of_eq]
  · exact fun _ => rfl
  · exact fun _ => rfl

@[simp] theorem links_addConnection (k : Link) : (l.addConnection k).links = l.links.push k :=
  Slots.map_push ..

@[simp] theorem nodes_dropConnection (id : EdgeId) : (l.dropConnection id).nodes = l.nodes := by
  unfold dropConnection
  split
  · simp only [nodes]
    rw [Slots.map_modify_of_eq, Slots.map_modify_of_eq]
    · exact fun _ => rfl
    · exact fun _ => rfl
  · rfl

@[simp] theorem links_dropConnection (id : EdgeId) :
    (l.dropConnection id).links = l.links.erase id.index := by
  unfold dropConnection
  split
  · exact Slots.map_erase ..
  · next hnone =>
    refine Slots.ext_get? (by simp) fun i => ?_
    by_cases hi : i = id.index <;> simp [links, hi, hnone]

@[simp] theorem nodes_moveConnection (id : EdgeId) (port : Nat) :
    (l.moveConnection id port).nodes = l.nodes := rfl

@[simp] theorem links_moveConnection (id : EdgeId) (port : Nat) :
    (l.moveConnection id port).links = l.links.modify id.index fun k => { k with out := port } :=
  Slots.map_modify _ _ _ _ fun _ => rfl

theorem nodes_dropConnections (ids : List EdgeId) :
    (ids.foldl dropConnection l).nodes = l.nodes := by
  induction ids generalizing l with
  | nil => rfl
  | cons i ids ih => exact (ih (l := l.dropConnection i)).trans (nodes_dropConnection i)

@[simp] theorem nodes_detach (id : NodeId) : (l.detach id).nodes = l.nodes := by
  unfold detach
  split
  · exact nodes_dropConnections _
  · rfl

theorem edges_addConnection (k : Link) :
    (l.addConnection k).edges = l.edges ++ [{ k with id := ⟨l.connections.next⟩ }] := by
  simp [edges, addConnection, Slots.entries_push]

theorem record_addConnection (k : Link) (i : Nat) : (l.addConnection k).records.get? i =
    (l.records.get? i).map fun r =>
      { r with
        inputs := if i = k.dst.index then r.inputs ++ [⟨l.connections.next⟩] else r.inputs
        outputs :=
          if i = k.src.index then r.outputs ++ [⟨l.connections.next⟩] else r.outputs } := by
  simp only [addConnection, Slots.get?_modify_eq_map, Option.map_map]
  congr 1
  funext r
  by_cases hs : i = k.src.index <;> by_cases hd : i = k.dst.index
  · simp only [Function.comp_apply, if_pos hs, if_pos hd]
  · simp only [Function.comp_apply, if_pos hs, if_neg hd]
  · simp only [Function.comp_apply, if_neg hs, if_pos hd]
  · simp only [Function.comp_apply, if_neg hs, if_neg hd]

theorem record_dropConnection {id : EdgeId} {e : Edge}
    (he : l.connections.get? id.index = some e) (i : Nat) :
    (l.dropConnection id).records.get? i = (l.records.get? i).map fun r =>
      { r with
        inputs := if i = e.dst.index then r.inputs.filter (· ≠ id) else r.inputs
        outputs := if i = e.src.index then r.outputs.filter (· ≠ id) else r.outputs } := by
  simp only [dropConnection, he, Slots.get?_modify_eq_map, Option.map_map]
  congr 1
  funext r
  by_cases hs : i = e.src.index <;> by_cases hd : i = e.dst.index
  · simp only [Function.comp_apply, if_pos hs, if_pos hd]
  · simp only [Function.comp_apply, if_pos hs, if_neg hd]
  · simp only [Function.comp_apply, if_neg hs, if_pos hd]
  · simp only [Function.comp_apply, if_neg hs, if_neg hd]

/-! ### Balance after each entry -/

namespace Balanced

theorem empty : Ledger.empty.Balanced where
  numbered h := by cases (Slots.get?_empty _).symm.trans h
  edge_numbered h := by cases (Slots.get?_empty _).symm.trans h
  live h := by cases (Slots.get?_empty _).symm.trans h
  inputs h := by cases (Slots.get?_empty _).symm.trans h
  outputs h := by cases (Slots.get?_empty _).symm.trans h
  named {name id} := by
    constructor
    · intro h
      cases h
    · rintro ⟨r, hr, -⟩
      cases (Slots.get?_empty _).symm.trans hr

variable (hl : l.Balanced)

include hl

theorem mem_edges {e : Edge} : e ∈ l.edges ↔ l.connections.get? e.id.index = some e := by
  simp only [edges, List.mem_map, Prod.exists, exists_eq_right]
  constructor
  · rintro ⟨i, hi⟩
    have he := Slots.mem_entries.1 hi
    rwa [hl.edge_numbered he]
  · exact fun he => ⟨e.id.index, Slots.mem_entries.2 he⟩

theorem edges_dropConnection (id : EdgeId) :
    (l.dropConnection id).edges = l.edges.filter (·.id ≠ id) := by
  obtain ⟨i⟩ := id
  have hsame : l.edges.filter (·.id ≠ ⟨i⟩) = (l.connections.erase i).entries.map (·.2) := by
    rw [Slots.entries_erase, edges, List.filter_map]
    congr 1
    refine List.filter_congr fun p hp => ?_
    simp [hl.edge_numbered (Slots.mem_entries.1 hp)]
  rw [hsame, dropConnection]
  split
  · rfl
  · next hnone =>
    have hsame : l.connections.erase i = l.connections := by
      refine Slots.ext_get? (Slots.next_erase ..) fun j => ?_
      rw [Slots.get?_erase]
      split
      · next hj => exact hj ▸ hnone.symm
      · rfl
    rw [hsame]
    rfl

/-- The ends of an edge are there. -/
theorem live_of_mem {e : Edge} (he : e ∈ l.edges) :
    (l.records.get? e.src.index).isSome ∧ (l.records.get? e.dst.index).isSome :=
  hl.live (hl.mem_edges.1 he)

theorem addRecord {n : Node} (hfree : l.names.find? n.name = none) :
    (l.addRecord n).Balanced := by
  -- a record is the new one, at which there are no edges, or was there
  have hcases {i : Nat} {r : Record} : (l.addRecord n).records.get? i = some r ↔
      i = l.records.next ∧ r = ⟨n, ⟨i⟩, [], []⟩ ∨ l.records.get? i = some r := by
    rw [Ledger.addRecord, Slots.get?_push]
    split
    · next hi =>
      subst hi
      simp [Slots.get?_eq_none_of_next_le (Nat.le_refl _), eq_comm]
    · next hi => simp [hi]
  have hnew {e : Edge} (he : e ∈ l.edges) :
      e.src ≠ ⟨l.records.next⟩ ∧ e.dst ≠ ⟨l.records.next⟩ := by
    obtain ⟨hsrc, hdst⟩ := hl.live_of_mem he
    have hnone := Slots.get?_eq_none_of_next_le (Nat.le_refl l.records.next)
    refine ⟨fun heq => ?_, fun heq => ?_⟩
    · simp [heq, hnone] at hsrc
    · simp [heq, hnone] at hdst
  have hlive {i : Nat} (hi : (l.records.get? i).isSome) :
      ((l.addRecord n).records.get? i).isSome := by
    obtain ⟨r, hr⟩ := Option.isSome_iff_exists.1 hi
    rw [hcases.2 (.inr hr)]
    rfl
  constructor
  · intro i r hr
    rcases hcases.1 hr with ⟨rfl, rfl⟩ | hr
    · rfl
    · exact hl.numbered hr
  · exact hl.edge_numbered
  · exact fun he => ⟨hlive (hl.live he).1, hlive (hl.live he).2⟩
  · intro i r hr
    rcases hcases.1 hr with ⟨rfl, rfl⟩ | hr
    · have hnil : l.edges.filter (·.dst = ⟨l.records.next⟩) = [] :=
        List.filter_eq_nil_iff.2 fun e he => by simpa using (hnew he).2
      rw [edges_addRecord, hnil]
      rfl
    · exact hl.inputs hr
  · intro i r hr
    rcases hcases.1 hr with ⟨rfl, rfl⟩ | hr
    · have hnil : l.edges.filter (·.src = ⟨l.records.next⟩) = [] :=
        List.filter_eq_nil_iff.2 fun e he => by simpa using (hnew he).1
      rw [edges_addRecord, hnil]
      rfl
    · exact hl.outputs hr
  · intro name ⟨i⟩
    show (l.names.insert n.name ⟨l.records.next⟩).find? name = _ ↔ _
    simp only [Dict.find?_insert, hcases]
    split
    · next hname =>
      subst hname
      constructor
      · intro h
        cases h
        exact ⟨_, .inl ⟨rfl, rfl⟩, rfl⟩
      · rintro ⟨r, ⟨rfl, -⟩ | hr, heq⟩
        · rfl
        · have := hl.named.2 ⟨r, hr, heq⟩
          rw [hfree] at this
          cases this
    · next hname =>
      rw [hl.named]
      constructor
      · rintro ⟨r, hr, heq⟩
        exact ⟨r, .inr hr, heq⟩
      · rintro ⟨r, ⟨-, rfl⟩ | hr, heq⟩
        · exact absurd heq.symm hname
        · exact ⟨r, hr, heq⟩

/-- An entry that leaves the names of the nodes, and moves the lists at them along with the
edges. -/
theorem of_records {m : Ledger} (f : Nat → Record → Record)
    (hrecords : ∀ i, m.records.get? i = (l.records.get? i).map (f i))
    (hnames : m.names = l.names) (hid : ∀ i r, (f i r).id = r.id)
    (hname : ∀ i r, (f i r).name = r.name)
    (hconnections : ∀ {i e}, m.connections.get? i = some e → e.id = ⟨i⟩ ∧
      (l.records.get? e.src.index).isSome ∧ (l.records.get? e.dst.index).isSome)
    (hinputs : ∀ {i r}, l.records.get? i = some r →
      (f i r).inputs = (m.edges.filter (·.dst = ⟨i⟩)).map (·.id))
    (houtputs : ∀ {i r}, l.records.get? i = some r →
      (f i r).outputs = (m.edges.filter (·.src = ⟨i⟩)).map (·.id)) : m.Balanced := by
  have hcases {i : Nat} {r : Record} :
      m.records.get? i = some r ↔ ∃ r', l.records.get? i = some r' ∧ f i r' = r := by
    rw [hrecords, Option.map_eq_some_iff]
  have hlive {i : Nat} (hi : (l.records.get? i).isSome) : (m.records.get? i).isSome := by
    rwa [hrecords, Option.isSome_map]
  constructor
  · intro i r hr
    obtain ⟨r', hr', rfl⟩ := hcases.1 hr
    rw [hid, hl.numbered hr']
  · exact fun he => (hconnections he).1
  · exact fun he => ⟨hlive (hconnections he).2.1, hlive (hconnections he).2.2⟩
  · intro i r hr
    obtain ⟨r', hr', rfl⟩ := hcases.1 hr
    exact hinputs hr'
  · intro i r hr
    obtain ⟨r', hr', rfl⟩ := hcases.1 hr
    exact houtputs hr'
  · intro name id
    rw [hnames, hl.named]
    constructor
    · rintro ⟨r, hr, heq⟩
      exact ⟨_, hcases.2 ⟨r, hr, rfl⟩, (hname ..).trans heq⟩
    · rintro ⟨r, hr, heq⟩
      obtain ⟨r', hr', rfl⟩ := hcases.1 hr
      exact ⟨r', hr', (hname ..).symm.trans heq⟩

theorem reviseRecord (id : NodeId) {f : Node → Node} (hf : ∀ n, (f n).name = n.name) :
    (l.reviseRecord id f).Balanced := by
  refine hl.of_records (fun i r => if i = id.index then { r with toNode := f r.toNode } else r)
    (fun i => Slots.get?_modify_eq_map ..) rfl ?_ ?_ ?_ ?_ ?_
  · intro i r
    split <;> rfl
  · intro i r
    split
    · exact hf _
    · rfl
  · exact fun he => ⟨hl.edge_numbered he, hl.live he⟩
  · intro i r hr
    exact (show Record.inputs (ite ..) = r.inputs by split <;> rfl).trans (hl.inputs hr)
  · intro i r hr
    exact (show Record.outputs (ite ..) = r.outputs by split <;> rfl).trans (hl.outputs hr)

theorem addConnection {k : Link} (hsrc : (l.records.get? k.src.index).isSome)
    (hdst : (l.records.get? k.dst.index).isSome) : (l.addConnection k).Balanced := by
  refine hl.of_records _ (record_addConnection k) rfl (fun _ _ => rfl) (fun _ _ => rfl) ?_ ?_ ?_
  · intro i e he
    rw [Ledger.addConnection, Slots.get?_push] at he
    split at he
    · next hi =>
      cases he
      exact ⟨by rw [hi], hsrc, hdst⟩
    · exact ⟨hl.edge_numbered he, hl.live he⟩
  · intro i r hr
    rw [edges_addConnection, List.filter_append, List.map_append, ← hl.inputs hr]
    by_cases hi : i = k.dst.index
    · simp [hi]
    · have hne : k.dst ≠ ⟨i⟩ := fun heq => hi (heq ▸ rfl)
      simp [hi, hne]
  · intro i r hr
    rw [edges_addConnection, List.filter_append, List.map_append, ← hl.outputs hr]
    by_cases hi : i = k.src.index
    · simp [hi]
    · have hne : k.src ≠ ⟨i⟩ := fun heq => hi (heq ▸ rfl)
      simp [hi, hne]

theorem dropConnection (id : EdgeId) : (l.dropConnection id).Balanced := by
  rcases he : l.connections.get? id.index with _ | e
  · rw [Ledger.dropConnection, he]
    exact hl
  have hfilter (p : Edge → Bool) : ((l.dropConnection id).edges.filter p).map (·.id) =
      ((l.edges.filter p).map (·.id)).filter (· ≠ id) := by
    rw [hl.edges_dropConnection, List.filter_filter, List.filter_map, List.filter_filter]
    congr 1
    exact List.filter_congr fun f _ => Bool.and_comm ..
  -- the number stands in the lists of its own two nodes only
  have hother {i : Nat} {r : Record} (hr : l.records.get? i = some r) :
      (i ≠ e.dst.index → ∀ j ∈ r.inputs, j ≠ id) ∧ (i ≠ e.src.index → ∀ j ∈ r.outputs, j ≠ id) := by
    have hsame {f : Edge} (hf : f ∈ l.edges) (hid : f.id = id) : f = e := by
      rw [hl.mem_edges, hid, he] at hf
      exact (Option.some.inj hf).symm
    rw [hl.inputs hr, hl.outputs hr]
    constructor
    · rintro hne j hj rfl
      obtain ⟨f, hf, hid⟩ := List.mem_map.1 hj
      obtain ⟨hmem, hdst⟩ := List.mem_filter.1 hf
      rw [hsame hmem hid, decide_eq_true_eq] at hdst
      exact hne (hdst ▸ rfl)
    · rintro hne j hj rfl
      obtain ⟨f, hf, hid⟩ := List.mem_map.1 hj
      obtain ⟨hmem, hsrc⟩ := List.mem_filter.1 hf
      rw [hsame hmem hid, decide_eq_true_eq] at hsrc
      exact hne (hsrc ▸ rfl)
  refine hl.of_records _ (record_dropConnection he) ?_ (fun _ _ => rfl) (fun _ _ => rfl) ?_ ?_ ?_
  · rw [Ledger.dropConnection, he]
  · intro i f hf
    rw [Ledger.dropConnection, he, Slots.get?_erase] at hf
    split at hf
    · cases hf
    · exact ⟨hl.edge_numbered hf, hl.live hf⟩
  · intro i r hr
    rw [hfilter, ← hl.inputs hr]
    show (if i = e.dst.index then _ else _) = _
    split
    · rfl
    · next hi => exact (List.filter_eq_self.2 fun j hj => by simpa using (hother hr).1 hi j hj).symm
  · intro i r hr
    rw [hfilter, ← hl.outputs hr]
    show (if i = e.src.index then _ else _) = _
    split
    · rfl
    · next hi => exact (List.filter_eq_self.2 fun j hj => by simpa using (hother hr).2 hi j hj).symm

theorem edges_moveConnection (id : EdgeId) (port : Nat) : (l.moveConnection id port).edges =
    l.edges.map fun e => if e.id = id then { e with out := port } else e := by
  rw [edges, edges, Ledger.moveConnection, Slots.entries_modify, List.map_map, List.map_map]
  refine List.map_congr_left fun p hp => ?_
  have hid := hl.edge_numbered (Slots.mem_entries.1 hp)
  obtain ⟨i⟩ := id
  by_cases h : p.1 = i <;> simp [h, hid]

theorem moveConnection (id : EdgeId) (port : Nat) : (l.moveConnection id port).Balanced := by
  -- neither the numbers of the edges nor their ends change
  have hfilter (p : NodeId → NodeId → Bool) :
      ((l.moveConnection id port).edges.filter fun e => p e.src e.dst).map (·.id) =
        (l.edges.filter fun e => p e.src e.dst).map (·.id) := by
    rw [hl.edges_moveConnection, List.filter_map, List.map_map]
    congr 1
    · funext e
      simp only [Function.comp_apply]
      split <;> rfl
    · refine List.filter_congr fun e _ => ?_
      simp only [Function.comp_apply]
      split <;> rfl
  refine hl.of_records (fun _ r => r) (fun i => by simp [Ledger.moveConnection]) rfl
    (fun _ _ => rfl) (fun _ _ => rfl) ?_ ?_ ?_
  · intro i e he
    rw [Ledger.moveConnection, Slots.get?_modify_eq_map] at he
    obtain ⟨f, hf, rfl⟩ := Option.map_eq_some_iff.1 he
    have hnumbered := hl.edge_numbered hf
    have hlive := hl.live hf
    split <;> exact ⟨hnumbered, hlive⟩
  · exact fun hr => (hl.inputs hr).trans (hfilter fun _ dst => dst = ⟨_⟩).symm
  · exact fun hr => (hl.outputs hr).trans (hfilter fun src _ => src = ⟨_⟩).symm

/-- A node may be taken out once there are no edges at it. -/
theorem dropRecord {id : NodeId} (hfree : ∀ e ∈ l.edges, e.src ≠ id ∧ e.dst ≠ id) :
    (l.dropRecord id).Balanced := by
  rcases hr : l.records.get? id.index with _ | r
  · rw [Ledger.dropRecord, hr]
    exact hl
  have hcases {i : Nat} {s : Record} : (l.dropRecord id).records.get? i = some s ↔
      i ≠ id.index ∧ l.records.get? i = some s := by
    rw [Ledger.dropRecord, hr, Slots.get?_erase]
    split
    · next hi => simp [hi]
    · next hi => simp [hi]
  have hlive {j : NodeId} (hj : j ≠ id) (hsome : (l.records.get? j.index).isSome) :
      ((l.dropRecord id).records.get? j.index).isSome := by
    obtain ⟨s, hs⟩ := Option.isSome_iff_exists.1 hsome
    have hne : j.index ≠ id.index := fun heq => hj (congrArg NodeId.mk heq)
    rw [hcases.2 ⟨hne, hs⟩]
    rfl
  have hconnections : (l.dropRecord id).connections = l.connections := by
    rw [Ledger.dropRecord, hr]
  constructor
  · exact fun hs => hl.numbered (hcases.1 hs).2
  · exact fun he => hl.edge_numbered (hconnections ▸ he)
  · intro i e he
    rw [hconnections] at he
    have hmem : e ∈ l.edges := hl.mem_edges.2 (by rwa [hl.edge_numbered he])
    exact ⟨hlive (hfree e hmem).1 (hl.live he).1, hlive (hfree e hmem).2 (hl.live he).2⟩
  · intro i s hs
    rw [edges_dropRecord]
    exact hl.inputs (hcases.1 hs).2
  · intro i s hs
    rw [edges_dropRecord]
    exact hl.outputs (hcases.1 hs).2
  · intro name j
    have hnames : (l.dropRecord id).names = l.names.erase r.name := by
      rw [Ledger.dropRecord, hr]
    simp only [hnames, Dict.find?_erase, hcases]
    split
    · next hname =>
      -- the name was that of the node alone
      subst hname
      simp only [reduceCtorEq, false_iff]
      rintro ⟨s, ⟨hne, hs⟩, heq⟩
      have hj := hl.named.2 ⟨s, hs, heq⟩
      have hid := hl.named.2 ⟨r, hr, rfl⟩
      exact hne (congrArg NodeId.index (Option.some.inj (hj.symm.trans hid)))
    · next hname =>
      rw [hl.named]
      constructor
      · rintro ⟨s, hs, heq⟩
        refine ⟨s, ⟨fun hj => hname ?_, hs⟩, heq⟩
        rw [hj, hr] at hs
        cases hs
        exact heq.symm
      · rintro ⟨s, ⟨-, hs⟩, heq⟩
        exact ⟨s, hs, heq⟩

theorem dropConnections (ids : List EdgeId) : (ids.foldl Ledger.dropConnection l).Balanced ∧
    (ids.foldl Ledger.dropConnection l).edges = l.edges.filter (·.id ∉ ids) := by
  induction ids generalizing l with
  | nil => exact ⟨hl, (List.filter_eq_self.2 fun e _ => by simp).symm⟩
  | cons id ids ih =>
    obtain ⟨hbalanced, hedges⟩ := ih (hl.dropConnection id)
    refine ⟨hbalanced, hedges.trans ?_⟩
    rw [hl.edges_dropConnection, List.filter_filter]
    exact List.filter_congr fun e _ => by simp [Bool.and_comm]

theorem detach_of_free {id : NodeId} (hfree : ∀ e ∈ l.edges, e.src ≠ id ∧ e.dst ≠ id) :
    l.detach id = l := by
  unfold Ledger.detach
  split
  · next r hr =>
    have hin : r.inputs = [] := by
      rw [hl.inputs hr, List.map_eq_nil_iff, List.filter_eq_nil_iff]
      exact fun e he => by simpa using (hfree e he).2
    have hout : r.outputs = [] := by
      rw [hl.outputs hr, List.map_eq_nil_iff, List.filter_eq_nil_iff]
      exact fun e he => by simpa using (hfree e he).1
    rw [hin, hout]
    rfl
  · rfl

theorem detach (id : NodeId) : (l.detach id).Balanced ∧
    (l.detach id).edges = l.edges.filter fun e => e.src ≠ id ∧ e.dst ≠ id := by
  unfold Ledger.detach
  split
  · next r hr =>
    obtain ⟨hbalanced, hedges⟩ := hl.dropConnections (r.inputs ++ r.outputs)
    refine ⟨hbalanced, hedges.trans (List.filter_congr fun e he => ?_)⟩
    rw [hl.inputs hr, hl.outputs hr]
    have hsame {f : Edge} (hf : f ∈ l.edges) (hid : f.id = e.id) : f = e := by
      rw [hl.mem_edges, hid, hl.mem_edges.1 he] at hf
      exact (Option.some.inj hf).symm
    simp only [List.mem_append, List.mem_map, List.mem_filter, decide_eq_true_eq, not_or,
      not_exists, not_and, decide_eq_decide]
    constructor
    · exact fun ⟨hdst, hsrc⟩ => ⟨fun heq => hsrc e ⟨he, heq⟩ rfl, fun heq => hdst e ⟨he, heq⟩ rfl⟩
    · rintro ⟨hsrc, hdst⟩
      exact ⟨fun f ⟨hf, heq⟩ hid => hdst (hsame hf hid ▸ heq),
        fun f ⟨hf, heq⟩ hid => hsrc (hsame hf hid ▸ heq)⟩
  · next hnone =>
    refine ⟨hl, (List.filter_eq_self.2 fun e he => ?_).symm⟩
    obtain ⟨hsrc, hdst⟩ := hl.live_of_mem he
    rw [decide_eq_true_eq]
    exact ⟨fun heq => by simp [heq, hnone] at hsrc, fun heq => by simp [heq, hnone] at hdst⟩

end Balanced

end Ledger

end TensorGraph
