import TensorGraph.Proofs.Revisions
import TensorGraph.Proofs.Transformations

/-!
What can be done to a graph, and what stays true whatever is done.

A `Mutation` is one of the ways to change a graph from outside, with its arguments. Mutations are
run one after the other, whether each succeeds or fails halfway. All graphs that come up this way
are well-formed. Their tables, which say most things twice, are made by entries of which each could
break them (`entered_of_mutations`), and are consistent (`consistent_of_mutations`). The revision
tells whether anything was changed (`revision_detects_changes`).
-/

namespace TensorGraph

open Edit

/-! ### Mutations -/

/-- A change of a graph from outside. The contents of nodes may be written in any way, the
registries may hold any rules, and a pipeline may run any of the standard transformations. -/
inductive Mutation where
  | addNode (name : String) (content : Content)
  | addEdge (src dst : NodeId) (out inp : Nat)
  | removeEdge (id : EdgeId)
  | removeNode (id : NodeId) (cascade : Bool)
  | removeNamed (name : String) (cascade : Bool)
  | touch (id : NodeId)
  | modifyOp (id : NodeId) (f : Operation → Operation)
  | modifyFact (id : NodeId) (f : Fact → Fact)
  | rewireInput (op : NodeId) (port : Nat) (data : NodeId)
  | mergeData (keep drop : NodeId)
  | splitData (data : NodeId) (edges : List EdgeId) (name : String)
  | mark (id : NodeId)
  | enter (s : Stage)
  | addOpWithData (name : String) (o : Operation)
  | addParameter (name : String) (shape : Shape)
  | addConst (name : String) (value : Tensor)
  | addResult (name : String) (input : NodeId)
  | wire (name : String) (o : Operation) (inputs : List NodeId)
  | connect (src dst : String)
  | setConstValue (op : NodeId) (value : Tensor)
  | markNeighbourhood (op : NodeId)
  | cleanUp (r : Registry)
  | inferNode (r : Registry) (id : NodeId)
  | inferNamed (r : Registry) (name : String)
  | inferMarked (r : Registry)
  | inferAll (r : Registry)
  | transform (t : Transformation) (ht : t ∈ Transformation.standard)
  | runOne (p : Pipeline) (count : Nat) (t : Transformation) (ht : t ∈ p.transformations)
    (hp : p.transformations ⊆ Transformation.standard)
  | optimize (p : Pipeline) (hp : p.transformations ⊆ Transformation.standard)

namespace Mutation

def edit : Mutation → Edit Unit
  | addNode name content => discard (Edit.addNode name content)
  | addEdge src dst out inp => discard (Edit.addEdge src dst out inp)
  | removeEdge id => discard (Edit.removeEdge id)
  | removeNode id cascade => Edit.removeNode id cascade
  | removeNamed name cascade => Edit.removeNamed name cascade
  | touch id => discard (Edit.touch id)
  | modifyOp id f => Edit.modifyOp id f
  | modifyFact id f => Edit.modifyFact id f
  | rewireInput op port data => Edit.rewireInput op port data
  | mergeData keep drop => Edit.mergeData keep drop
  | splitData data edges name => discard (Edit.splitData data edges name)
  | mark id => Edit.mark id
  | enter s => Edit.enter s
  | addOpWithData name o => discard (Edit.addOpWithData name o)
  | addParameter name shape => discard (Edit.addParameter name shape)
  | addConst name value => discard (Edit.addConst name value)
  | addResult name input => discard (Edit.addResult name input)
  | wire name o inputs => discard (Edit.wire name o inputs)
  | connect src dst => Edit.connect src dst
  | setConstValue op value => Edit.setConstValue op value
  | markNeighbourhood op => Edit.markNeighbourhood op
  | cleanUp r => discard (Edit.cleanUp r.isFixed)
  | inferNode r id => discard (r.inferNode id)
  | inferNamed r name => discard (r.inferNamed name)
  | inferMarked r => discard r.inferMarked
  | inferAll r => discard r.inferAll
  | transform t _ => t.apply
  | runOne p count t _ _ => discard ((p.runOne t).run count)
  | optimize p _ => p.optimize

/-- What mutations leave of a graph, one after the other. -/
def runAll (ms : List Mutation) (g : Graph) : Graph := ms.foldl (fun g m => (m.edit.run g).graph) g

end Mutation

namespace Mutation

/-- What the mutation itself writes of data is shaped, if what it changes is. -/
def Truthful : Mutation → Prop
  | addNode _ (.data f) => f.Shaped
  | modifyFact _ f => ∀ d, d.Shaped → (f d).Shaped
  | _ => True

/-- A truthful mutation keeps what such changes keep and does not depend on the stage, also when
it fails. -/
lemma keeps_edit_of_truthful {P : Graph → Prop} (hP : Graph.ShapedInvariant P)
    (henter : ∀ s, Keeps P (Edit.enter s)) {m : Mutation} (hm : m.Truthful) : Keeps P m.edit := by
  have hinfer : Graph.Annotated P := hP.annotated
  cases m with
  | addNode name c =>
    cases c with
    | op o => exact keeps_discard (hP.addOp name o)
    | data f => exact keeps_discard ((structural_addData name hm).keeps hP)
  | addEdge => exact keeps_discard (hP.addEdge _ _ _ _)
  | removeEdge => exact keeps_discard (hP.removeEdge _)
  | removeNode => exact hP.removeNode _ _
  | removeNamed => exact (structural_removeNamed _ _).keeps hP
  | touch => exact keeps_discard (hP.touch _)
  | modifyOp => exact hP.modifyOp _ _
  | modifyFact => exact (structural_modifyFact _ hm).keeps hP
  | rewireInput => exact (structural_rewireInput _ _ _).keeps hP
  | mergeData => exact (structural_mergeData _ _).keeps hP
  | splitData => exact keeps_discard ((structural_splitData _ _ _).keeps hP)
  | mark => exact (annotating_mark _).keeps hinfer
  | enter s => exact henter s
  | addOpWithData => exact keeps_discard ((structural_addOpWithData _ _).keeps hP)
  | addParameter => exact keeps_discard ((structural_addParameter _ _).keeps hP)
  | addConst => exact keeps_discard ((structural_addConst _ _).keeps hP)
  | addResult => exact keeps_discard ((structural_addResult _ _).keeps hP)
  | wire => exact keeps_discard ((structural_wire _ _ _).keeps hP)
  | connect => exact (structural_connect _ _).keeps hP
  | setConstValue => exact (annotating_setConstValue _ _).keeps hinfer
  | markNeighbourhood => exact (annotating_markNeighbourhood _).keeps hinfer
  | cleanUp => exact keeps_discard ((structural_cleanUp _).keeps hP)
  | inferNode r => exact keeps_discard ((r.inferring_inferNode _).keeps hinfer.toImmune)
  | inferNamed r => exact keeps_discard ((r.annotating_inferNamed _).keeps hinfer)
  | inferMarked r => exact keeps_discard (r.inferring_inferMarked.keeps hinfer.toImmune)
  | inferAll r => exact keeps_discard (r.annotating_inferAll.keeps hinfer)
  | transform t ht => exact (structural_standard ht).keeps hP
  | runOne p count t ht hp =>
    exact keeps_discard (Pipeline.keeps_runOne (keeps_pipeline_of hP henter hp) ht count)
  | optimize p hp => exact Pipeline.keeps_optimize (keeps_pipeline_of hP henter hp)

/-- A mutation keeps what is invariant and does not depend on the stage, also when it fails. -/
lemma keeps_edit {P : Graph → Prop} (hP : Graph.Invariant P) (henter : ∀ s, Keeps P (Edit.enter s))
    (m : Mutation) : Keeps P m.edit := by
  cases m with
  | addNode => exact keeps_discard (hP.addNode _ _)
  | modifyFact => exact hP.modifyFact _ _
  | _ => exact keeps_edit_of_truthful hP.shaped henter trivial

lemma runAll_of_keeps {P : Graph → Prop} {ms : List Mutation} (hms : ∀ m ∈ ms, Keeps P m.edit)
    {g : Graph} (hg : P g) : P (runAll ms g) := by
  induction ms generalizing g with
  | nil => exact hg
  | cons m ms ih =>
    exact ih (fun m' hm' => hms m' (.tail _ hm')) (hms m (.head _) g hg)

/-- The run of a list keeps what every mutation keeps. -/
lemma runAll_of_invariant {P : Graph → Prop} (hP : Graph.Invariant P)
    (henter : ∀ s, Keeps P (Edit.enter s)) (ms : List Mutation) {g : Graph} (hg : P g) :
    P (runAll ms g) := runAll_of_keeps (fun m _ => m.keeps_edit hP henter) hg

/-- The invariant of a run: every mutation of a list leaves a well-formed graph well-formed. -/
lemma wellFormed_runAll (ms : List Mutation) {g : Graph} (hg : g.WellFormed) :
    (runAll ms g).WellFormed := runAll_of_invariant invariant_wellFormed keeps_enter ms hg

end Mutation

/-! ### Entries in the tables -/

/-- The tables come from empty ones by entries alone, whether they fit together or not. -/
inductive Ledger.Entered : Ledger → Prop
  | empty : Entered .empty
  | addRecord {l : Ledger} (n : Node) : Entered l → Entered (l.addRecord n)
  | dropRecord {l : Ledger} (id : NodeId) : Entered l → Entered (l.dropRecord id)
  | reviseRecord {l : Ledger} (id : NodeId) (f : Node → Node) :
    Entered l → Entered (l.reviseRecord id f)
  | addConnection {l : Ledger} (k : Link) : Entered l → Entered (l.addConnection k)
  | dropConnection {l : Ledger} (id : EdgeId) : Entered l → Entered (l.dropConnection id)
  | moveConnection {l : Ledger} (id : EdgeId) (port : Nat) :
    Entered l → Entered (l.moveConnection id port)

/-- An entry may leave an edge between nodes that are not there. -/
example : let l := Ledger.empty.addConnection ⟨⟨0⟩, ⟨1⟩, 0, 0⟩
    l.Entered ∧ (l.connections.get? 0).isSome ∧ l.records.get? 0 = none :=
  ⟨.addConnection _ .empty, rfl, rfl⟩

lemma Graph.elementary_entered : Graph.Elementary fun g => g.toLedger.Entered where
  touch hg := hg
  pushNode {_ n} _ hg := hg.addRecord n
  modifyOp id _ hg := hg.reviseRecord id _
  modifyFact id _ hg := hg.reviseRecord id _
  pushLink {_ l} _ _ hg := hg.addConnection l
  eraseEdge i hg := hg.dropConnection i
  setOutPort i port hg := hg.moveConnection i port
  eraseNode {g id} hfree hg := by
    show (g.eraseNode id).toLedger.Entered
    rw [Graph.toLedger_eraseNode hfree]
    exact hg.dropRecord id

/-- Whatever mutations are run on the empty graph, its tables are what entries have made of empty
ones. -/
theorem entered_of_mutations (ms : List Mutation) : (Mutation.runAll ms ∅).toLedger.Entered :=
  Mutation.runAll_of_invariant Graph.elementary_entered.invariant (fun _ _ hg => hg) ms .empty

/-! ### Consistency of the tables -/

/-- The tables say the same of the nodes and edges, and the edges stand where edges may. -/
structure Ledger.Consistent (l : Ledger) : Prop where
  /-- The table of names is a bijection with the nodes. -/
  names : ∀ {name : String} {id : NodeId},
    l.names.find? name = some id ↔ ∃ r, l.records.get? id.index = some r ∧ r.name = name
  /-- Nodes and edges are in the slots of their numbers. -/
  slots : ∀ {i : Nat} {r : Record}, l.records.get? i = some r → r.id = ⟨i⟩
  edge_slots : ∀ {i : Nat} {e : Edge}, l.connections.get? i = some e → e.id = ⟨i⟩
  /-- An edge joins two nodes that are there, one operation and one data node. -/
  alternate : ∀ {i : Nat} {e : Edge}, l.connections.get? i = some e →
    ∃ s d, l.records.get? e.src.index = some s ∧ l.records.get? e.dst.index = some d ∧
      s.isOp ≠ d.isOp
  /-- The lists of a node hold the numbers of the edges at it, each once. -/
  entering : ∀ {i : Nat} {r : Record} {j : EdgeId}, l.records.get? i = some r →
    (j ∈ r.inputs ↔ ∃ e, l.connections.get? j.index = some e ∧ e.dst = ⟨i⟩)
  leaving : ∀ {i : Nat} {r : Record} {j : EdgeId}, l.records.get? i = some r →
    (j ∈ r.outputs ↔ ∃ e, l.connections.get? j.index = some e ∧ e.src = ⟨i⟩)
  entering_once : ∀ {i : Nat} {r : Record}, l.records.get? i = some r → r.inputs.Nodup
  leaving_once : ∀ {i : Nat} {r : Record}, l.records.get? i = some r → r.outputs.Nodup
  /-- Edges at an operation stand on ports of their own. -/
  inputs_apart : ∀ {i j : Nat} {e f : Edge} {d : Record}, l.connections.get? i = some e →
    l.connections.get? j = some f → l.records.get? e.dst.index = some d → d.isOp = true →
    e.dst = f.dst → e.inp = f.inp → i = j
  outputs_apart : ∀ {i j : Nat} {e f : Edge} {s : Record}, l.connections.get? i = some e →
    l.connections.get? j = some f → l.records.get? e.src.index = some s → s.isOp = true →
    e.src = f.src → e.out = f.out → i = j
  /-- A data node has one producer at most. -/
  one_producer : ∀ {i : Nat} {r : Record}, l.records.get? i = some r → r.isOp = false →
    r.inputs.length ≤ 1
  /-- The port on the side of the data node is zero. -/
  data_inp : ∀ {i : Nat} {e : Edge} {d : Record}, l.connections.get? i = some e →
    l.records.get? e.dst.index = some d → d.isOp = false → e.inp = 0
  data_out : ∀ {i : Nat} {e : Edge} {s : Record}, l.connections.get? i = some e →
    l.records.get? e.src.index = some s → s.isOp = false → e.out = 0

namespace Graph

variable {g : Graph} {i : Nat} {r : Record}

lemma mem_edges_of_get? {e : Edge} (he : g.connections.get? i = some e) : e ∈ g.edges := by
  rw [mem_edges, g.balanced.edge_numbered he]
  exact he

lemma node?_of_get? {id : NodeId} (hr : g.records.get? id.index = some r) :
    g.node? id = some r.toNode := node?_of_record? hr

/-- The numbers of some of the edges, each once. -/
lemma mem_ids {p : Edge → Prop} [DecidablePred p] {j : EdgeId} :
    j ∈ (g.edges.filter p).map (·.id) ↔ ∃ e, g.connections.get? j.index = some e ∧ p e := by
  simp only [List.mem_map, List.mem_filter, decide_eq_true_eq]
  constructor
  · rintro ⟨e, ⟨he, hp⟩, rfl⟩
    exact ⟨e, mem_edges.1 he, hp⟩
  · rintro ⟨e, he, hp⟩
    exact ⟨e, ⟨mem_edges_of_get? he, hp⟩, g.balanced.edge_numbered he⟩

lemma nodup_ids (p : Edge → Bool) : ((g.edges.filter p).map (·.id)).Nodup :=
  g.nodup_edgeIds.sublist (List.filter_sublist.map _)

/-- Two edges into a data node would share its only port. -/
lemma WellFormed.length_inputs_le_one (hg : g.WellFormed) (hr : g.records.get? i = some r)
    (hdata : r.isOp = false) : r.inputs.length ≤ 1 := by
  have hnode : g.node? ⟨i⟩ = some r.toNode := node?_of_get? hr
  have hsame {e f : Edge} (he : e ∈ g.edges) (hdst : e.dst = ⟨i⟩) (hf : f ∈ g.edges)
      (hfdst : f.dst = ⟨i⟩) : e.id = f.id := by
    have hinp := hg.inp_of_data he (hdst ▸ hnode) hdata
    have hfinp := hg.inp_of_data hf (hfdst ▸ hnode) hdata
    exact congrArg Edge.id (hg.inp_unique he hf (hdst.trans hfdst.symm) (hinp.trans hfinp.symm))
  have honce : r.inputs.Nodup := g.balanced.inputs hr ▸ nodup_ids _
  have hmem {j : EdgeId} (hj : j ∈ r.inputs) : ∃ e ∈ g.edges, e.dst = ⟨i⟩ ∧ e.id = j := by
    rw [g.balanced.inputs hr] at hj
    obtain ⟨e, he, hdst⟩ := mem_ids.1 hj
    exact ⟨e, mem_edges_of_get? he, hdst, g.balanced.edge_numbered he⟩
  rcases hl : r.inputs with _ | ⟨j, _ | ⟨k, l⟩⟩
  · exact Nat.zero_le _
  · exact Nat.le_refl _
  · obtain ⟨e, he, hdst, rfl⟩ := hmem (hl ▸ List.mem_cons_self ..)
    obtain ⟨f, hf, hfdst, rfl⟩ := hmem (hl ▸ List.mem_cons_of_mem _ (List.mem_cons_self ..))
    rw [hl, hsame he hdst hf hfdst] at honce
    simp at honce

lemma WellFormed.consistent (hg : g.WellFormed) : g.Consistent where
  names := g.balanced.named
  slots := g.balanced.numbered
  edge_slots := g.balanced.edge_numbered
  alternate := by
    intro i e he
    obtain ⟨s, d, hs, hd, hne⟩ := hg.ends (mem_edges_of_get? he)
    obtain ⟨s', hs', rfl⟩ := Option.map_eq_some_iff.1 hs
    obtain ⟨d', hd', rfl⟩ := Option.map_eq_some_iff.1 hd
    exact ⟨s', d', hs', hd', hne⟩
  entering hr := g.balanced.inputs hr ▸ mem_ids
  leaving hr := g.balanced.outputs hr ▸ mem_ids
  entering_once hr := g.balanced.inputs hr ▸ nodup_ids _
  leaving_once hr := g.balanced.outputs hr ▸ nodup_ids _
  inputs_apart := by
    intro i j e f d he hf _ _ hdst hinp
    have heq := hg.inp_unique (mem_edges_of_get? he) (mem_edges_of_get? hf) hdst hinp
    have hid := congrArg Edge.id heq
    rw [g.balanced.edge_numbered he, g.balanced.edge_numbered hf] at hid
    exact congrArg EdgeId.index hid
  outputs_apart := by
    intro i j e f s he hf hs hop hsrc hout
    have heq := hg.out_unique (mem_edges_of_get? he) (mem_edges_of_get? hf) (node?_of_get? hs) hop
      hsrc hout
    have hid := congrArg Edge.id heq
    rw [g.balanced.edge_numbered he, g.balanced.edge_numbered hf] at hid
    exact congrArg EdgeId.index hid
  one_producer := hg.length_inputs_le_one
  data_inp he hd hdata := hg.inp_of_data (mem_edges_of_get? he) (node?_of_get? hd) hdata
  data_out he hs hdata := hg.out_of_data (mem_edges_of_get? he) (node?_of_get? hs) hdata

end Graph

/-- **Consistency**: whatever mutations are run on the empty graph, whether they succeed or not,
the tables of the graph they leave fit together. -/
theorem consistent_of_mutations (ms : List Mutation) :
    (Mutation.runAll ms ∅).toLedger.Consistent :=
  (Mutation.wellFormed_runAll ms Graph.WellFormed.empty).consistent

/-! ### Change detection -/

namespace Graph

variable {g h : Graph}

/-- The graph came from another: its revision has moved on, or its nodes and links are the same. -/
def Since (g h : Graph) : Prop :=
  g.revision < h.revision ∨ h.revision = g.revision ∧ h.nodes = g.nodes ∧ h.links = g.links

lemma Since.le (hs : g.Since h) : g.revision ≤ h.revision := by
  rcases hs with hlt | ⟨heq, -⟩ <;> omega

lemma Since.contents (hs : g.Since h) (hr : h.revision = g.revision) :
    (∀ id, h.node? id = g.node? id) ∧ h.edges = g.edges ∧ ∀ name, h.find? name = g.find? name := by
  obtain ⟨-, hnodes, hlinks⟩ := hs.resolve_left (by omega)
  refine ⟨fun id => ?_, ?_, fun name => ?_⟩
  · rw [node?_congr hnodes]
  · exact edges_congr hlinks
  · rw [find?, find?, toLedger_eq hnodes hlinks]

lemma invariant_since (g : Graph) : Invariant g.Since :=
  invariant_of_moves fun hs _ hlt => .inl (Nat.lt_of_le_of_lt hs.le hlt)

end Graph

/-- **Change detection**: whatever mutations are run on a graph, whether they succeed or not, its
revision never goes back, and if it is what it was then so are the nodes with their contents, the
edges with their ports and the names. -/
theorem revision_detects_changes (ms : List Mutation) (g : Graph) :
    g.revision ≤ (Mutation.runAll ms g).revision ∧
      ((Mutation.runAll ms g).revision = g.revision →
        (∀ id, (Mutation.runAll ms g).node? id = g.node? id) ∧
          (Mutation.runAll ms g).edges = g.edges ∧
          ∀ name, (Mutation.runAll ms g).find? name = g.find? name) := by
  have hs : g.Since (Mutation.runAll ms g) :=
    Mutation.runAll_of_invariant (Graph.invariant_since g) (fun _ _ hk => hk) ms
      (.inr ⟨rfl, rfl, rfl⟩)
  exact ⟨hs.le, hs.contents⟩

end TensorGraph
