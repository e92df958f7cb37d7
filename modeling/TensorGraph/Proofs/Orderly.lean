import TensorGraph.Edit.Builder
import TensorGraph.Edit.Cleanup
import TensorGraph.Inference.View
import TensorGraph.Proofs.Edits

/-!
Edits that stay within the changes a graph offers.

An edit is orderly when it keeps every property of graphs that some basic changes keep, and fails
for other reasons than that a transformation never settles. Programs of orderly edits are orderly,
so an invariant needs to be shown for the basic changes only: `Graph.Invariant` lists those of the
structure, and `Graph.ShapedInvariant` asks less of what is written of data, which is all that the
edits made of these write. They are here.
-/

namespace TensorGraph

variable {α β : Type}

/-! ### Ordinary errors -/

/-- The error is not that of a transformation that never settles. -/
def Error.Ordinary (e : Error) : Prop := ∀ n, e.cause ≠ .noFixedPoint n

/-- The computation fails with ordinary errors only. -/
def Plain (x : Except Error α) : Prop := ∀ e, x = .error e → e.Ordinary

lemma plain_ok (a : α) : Plain (.ok a) := nofun

lemma plain_pure (a : α) : Plain (pure a : Except Error α) := nofun

lemma plain_error {e : Error} (he : e.Ordinary) : Plain (.error e : Except Error α) := by
  rintro _ ⟨⟩
  exact he

lemma plain_bind {x : Except Error α} {f : α → Except Error β} (hx : Plain x)
    (hf : ∀ a, Plain (f a)) : Plain (x >>= f) := by
  cases x with
  | error e => exact plain_error (hx e rfl)
  | ok a => exact hf a

lemma plain_ensure {p : Prop} [Decidable p] {e : Error} (he : e.Ordinary) :
    Plain (ensure p e) := by
  unfold ensure
  split
  · exact plain_ok ()
  · exact plain_error he

lemma plain_ite {c : Prop} [Decidable c] {x y : Except Error α} (hx : Plain x) (hy : Plain y) :
    Plain (if c then x else y) := by
  split
  · exact hx
  · exact hy

lemma plain_mapM {l : List α} {f : α → Except Error β} (hf : ∀ a, Plain (f a)) :
    Plain (l.mapM f) := by
  induction l with
  | nil => exact plain_pure []
  | cons a l ih =>
    rw [List.mapM_cons]
    exact plain_bind (hf a) fun _ => plain_bind ih fun _ => plain_pure _

/-! ### Questions to a graph -/

namespace Graph

variable (g : Graph)

lemma plain_node (id : NodeId) : Plain (g.node id) := by
  unfold node
  split
  · exact plain_ok _
  · exact plain_error nofun

lemma plain_nodeId (name : String) : Plain (g.nodeId name) := by
  unfold nodeId
  split
  · exact plain_ok _
  · exact plain_error nofun

lemma plain_edge (id : EdgeId) : Plain (g.edge id) := by
  unfold edge
  split
  · exact plain_ok _
  · exact plain_error nofun

lemma plain_operation (id : NodeId) : Plain (g.operation id) := by
  refine plain_bind (g.plain_node id) fun n => ?_
  split
  · exact plain_pure _
  · exact plain_error nofun

lemma plain_fact (id : NodeId) : Plain (g.fact id) := by
  refine plain_bind (g.plain_node id) fun n => ?_
  split
  · exact plain_pure _
  · exact plain_error nofun

lemma plain_record (id : NodeId) : Plain (g.record id) := by
  unfold record
  split
  · exact plain_ok _
  · exact plain_error nofun

lemma plain_inEdges (id : NodeId) : Plain (g.inEdges id) :=
  plain_bind (g.plain_record id) fun _ => plain_bind (plain_mapM g.plain_edge) fun _ => plain_pure _

lemma plain_outEdges (id : NodeId) : Plain (g.outEdges id) :=
  plain_bind (g.plain_record id) fun _ => plain_bind (plain_mapM g.plain_edge) fun _ => plain_pure _

lemma plain_inputs (id : NodeId) : Plain (g.inputs id) :=
  plain_bind (g.plain_inEdges id) fun _ => plain_pure _

lemma plain_outputs (id : NodeId) : Plain (g.outputs id) :=
  plain_bind (g.plain_outEdges id) fun _ => plain_pure _

lemma plain_inputData (op : NodeId) (port : Nat) : Plain (g.inputData op port) :=
  plain_bind (g.plain_inEdges op) fun _ => plain_pure _

lemma plain_outputData (op : NodeId) (port : Nat) : Plain (g.outputData op port) :=
  plain_bind (g.plain_outEdges op) fun _ => plain_pure _

lemma plain_producer (data : NodeId) : Plain (g.producer data) :=
  plain_bind (g.plain_inputs data) fun _ => plain_pure _

lemma plain_consumers (data : NodeId) : Plain (g.consumers data) := g.plain_outEdges data

lemma plain_producerOp (op : NodeId) (port : Nat) : Plain (g.producerOp op port) := by
  refine plain_bind (g.plain_inputData op port) fun data => ?_
  split
  · exact g.plain_producer _
  · exact plain_pure _

lemma plain_connectedInput (op : NodeId) (port : Nat) : Plain (g.connectedInput op port) := by
  refine plain_bind (g.plain_inputData op port) fun data => ?_
  split
  · exact plain_pure _
  · exact plain_error nofun

lemma plain_inputIsShared (op : NodeId) (port : Nat) : Plain (g.inputIsShared op port) :=
  plain_bind (g.plain_connectedInput op port) fun data =>
    plain_bind (g.plain_consumers data) fun _ => plain_pure _

end Graph

namespace PortSpec

lemma plain_ofNumeral (name numeral : String) : Plain (ofNumeral name numeral) := by
  unfold ofNumeral
  split
  · exact plain_ok _
  · exact plain_error nofun

lemma plain_readSource (spec : String) : Plain (readSource spec) := by
  unfold readSource
  split
  · exact plain_ok _
  · exact plain_ofNumeral _ _
  · exact plain_error nofun

lemma plain_readTarget (spec : String) : Plain (readTarget spec) := by
  unfold readTarget
  split
  · exact plain_ok _
  · exact plain_ofNumeral _ _
  · exact plain_error nofun

end PortSpec

/-! ### Orderly edits -/

namespace Edit

variable {C : (Graph → Prop) → Prop} {g h : Graph}

/-- The edit keeps the properties of a class, and fails with ordinary errors only. -/
structure Orderly (C : (Graph → Prop) → Prop) (x : Edit α) : Prop where
  keeps : ∀ {P}, C P → Keeps P x
  fails : ∀ {g e}, Fails x g e → e.Ordinary

/-- An edit of which only the errors are known. -/
abbrev Tame (x : Edit α) : Prop := Orderly (fun _ => False) x

lemma Orderly.of_imp {C' : (Graph → Prop) → Prop} {x : Edit α} (hx : Orderly C x)
    (hc : ∀ {P}, C' P → C P) : Orderly C' x := ⟨fun hP => hx.keeps (hc hP), hx.fails⟩

/-- An edit that keeps the properties by assumption. -/
lemma Tame.orderly {x : Edit α} (hx : Tame x) (hk : ∀ {P}, C P → Keeps P x) : Orderly C x :=
  ⟨hk, hx.fails⟩

lemma orderly_pure (a : α) : Orderly C (pure a) := ⟨fun _ => keeps_pure a, nofun⟩

lemma orderly_fail {e : Error} (he : e.Ordinary) : Orderly C (fail e : Edit α) where
  keeps _ := keeps_fail e
  fails := by
    rintro _ _ ⟨⟩
    exact he

lemma orderly_current : Orderly C current := ⟨fun _ => keeps_current, nofun⟩

lemma orderly_query {f : Graph → Except Error α} (hf : ∀ g, Plain (f g)) : Orderly C (query f) :=
  ⟨fun _ => keeps_query f, hf _ _⟩

lemma orderly_lift {x : Except Error α} (hx : Plain x) : Orderly C (liftM x : Edit α) :=
  ⟨fun _ => keeps_lift x, hx _⟩

lemma orderly_note (level : Level) (text : String) : Orderly C (note level text) :=
  ⟨fun _ => keeps_note level text, nofun⟩

lemma tame_change (f : Graph → Graph) : Tame (change f) := ⟨nofun, nofun⟩

lemma orderly_bind {x : Edit α} {f : α → Edit β} (hx : Orderly C x) (hf : ∀ a, Orderly C (f a)) :
    Orderly C (x >>= f) where
  keeps hP := keeps_bind (hx.keeps hP) fun a => (hf a).keeps hP
  fails he := by
    rcases fails_bind.1 he with he | ⟨a, _, -, he⟩
    · exact hx.fails he
    · exact (hf a).fails he

lemma orderly_discard {x : Edit α} (hx : Orderly C x) : Orderly C (discard x) where
  keeps hP := keeps_discard (hx.keeps hP)
  fails {g e} he := by
    have hmap : Fails (discard x) g e ↔ Fails x g e := by
      show ((_ <$> x).run g).result = _ ↔ _
      rw [run_map, map_eq_error]
      rfl
    exact hx.fails (hmap.1 he)

lemma orderly_within {context : String} {x : Edit α} (hx : Orderly C x) :
    Orderly C (within context x) where
  keeps hP := keeps_within (hx.keeps hP)
  fails {g e} he := by
    unfold Fails at he
    rw [run_within] at he
    rcases hr : (x.run g).result with e' | a <;> rw [hr] at he <;> cases he
    exact fun n => hx.fails (show Fails x g e' from hr) n

/-- An attempt does not fail, whatever the edit fails with. -/
lemma orderly_attempt {x : Edit α} (hx : ∀ {P}, C P → Keeps P x) : Orderly C x.attempt :=
  ⟨fun hP => keeps_attempt (hx hP), nofun⟩

lemma orderly_ite {c : Prop} [Decidable c] {x y : Edit α} (hx : c → Orderly C x)
    (hy : ¬ c → Orderly C y) : Orderly C (if c then x else y) := by
  split
  · exact hx ‹_›
  · exact hy ‹_›

lemma orderly_forM {l : List α} {f : α → Edit Unit} (hf : ∀ a, Orderly C (f a)) :
    Orderly C (l.forM f) := by
  induction l with
  | nil => exact orderly_pure ()
  | cons a l ih => exact orderly_bind (hf a) fun _ => ih

lemma orderly_mapM {l : List α} {f : α → Edit β} (hf : ∀ a, Orderly C (f a)) :
    Orderly C (l.mapM f) := by
  induction l with
  | nil => exact orderly_pure []
  | cons a l ih =>
    rw [List.mapM_cons]
    exact orderly_bind (hf a) fun _ => orderly_bind ih fun _ => orderly_pure _

/-! ### The structure of a graph -/

lemma tame_addNode (name : String) (c : Content) : Tame (addNode name c) := by
  refine orderly_bind orderly_current fun g => ?_
  split
  · exact orderly_bind (tame_change _) fun _ => orderly_pure _
  · exact orderly_fail nofun

lemma tame_touch (id : NodeId) : Tame (touch id) :=
  orderly_bind (tame_change _) fun _ => orderly_query fun g => g.plain_node id

lemma tame_modifyOp (id : NodeId) (f : Operation → Operation) : Tame (modifyOp id f) :=
  orderly_bind (tame_change _) fun _ =>
    orderly_bind (orderly_query fun g => g.plain_operation id) fun _ => orderly_pure _

lemma tame_modifyFact (id : NodeId) (f : Fact → Fact) : Tame (modifyFact id f) :=
  orderly_bind (tame_change _) fun _ =>
    orderly_bind (orderly_query fun g => g.plain_fact id) fun _ => orderly_pure _

lemma tame_addEdge (src dst : NodeId) (out inp : Nat) : Tame (addEdge src dst out inp) := by
  have hensure {p : Prop} [Decidable p] {f : GraphFault} : Tame (ensure p f : Edit Unit) :=
    orderly_lift (plain_ensure nofun)
  refine orderly_bind orderly_current fun g => orderly_bind (orderly_lift (g.plain_record src))
    fun s => orderly_bind (orderly_lift (g.plain_record dst)) fun d => ?_
  refine orderly_bind hensure fun _ => orderly_ite (fun _ => ?_) fun _ => ?_
  · refine orderly_bind hensure fun _ => orderly_bind hensure fun _ => ?_
    refine orderly_bind hensure fun _ => ?_
    exact orderly_bind (tame_change _) fun _ => orderly_pure _
  · refine orderly_bind hensure fun _ => orderly_bind hensure fun _ => ?_
    exact orderly_bind (tame_change _) fun _ => orderly_pure _

lemma tame_removeEdge (i : EdgeId) : Tame (removeEdge i) :=
  orderly_bind (orderly_query fun g => g.plain_edge i) fun _ =>
    orderly_bind (tame_change _) fun _ => orderly_pure _

lemma tame_removeNode (id : NodeId) (cascade : Bool) : Tame (removeNode id cascade) :=
  orderly_bind orderly_current fun g => orderly_bind (orderly_lift (g.plain_record id)) fun _ =>
    orderly_bind (orderly_lift (plain_ensure nofun)) fun _ =>
      orderly_bind (orderly_forM fun i => orderly_discard (tame_removeEdge i)) fun _ =>
        tame_change _

lemma tame_compactOutputs (op : NodeId) : Tame (compactOutputs op) :=
  orderly_bind (orderly_query fun g => g.plain_outEdges op) fun _ =>
    orderly_bind (orderly_forM fun e => orderly_bind (orderly_query fun g => g.plain_edge e.id)
      fun _ => tame_change _) fun _ => orderly_pure _

end Edit

open Edit

/-! ### Values with their shapes -/

/-- A value that is known has the shape that is known. -/
def Fact.Shaped (f : Fact) : Prop := ∀ t, f.value = some t → f.shape = some t.dims

lemma Fact.shaped_ofShape (a : Shape) : (Fact.ofShape a).Shaped := fun _ h => by cases h

lemma Fact.shaped_unknown : Fact.unknown.Shaped := fun _ h => by cases h

lemma Fact.shaped_ofValue (t : Tensor) : (Fact.ofValue t).Shaped := by
  intro t' h
  cases h
  rfl

/-! ### The changes of a graph -/

/-- The changes of the structure of a graph and of the contents of its nodes keep the property,
also when they fail. -/
structure Graph.Invariant (P : Graph → Prop) : Prop where
  addNode : ∀ name c, Keeps P (addNode name c)
  touch : ∀ id, Keeps P (touch id)
  modifyOp : ∀ id f, Keeps P (Edit.modifyOp id f)
  modifyFact : ∀ id f, Keeps P (Edit.modifyFact id f)
  addEdge : ∀ src dst out inp, Keeps P (addEdge src dst out inp)
  removeEdge : ∀ i, Keeps P (removeEdge i)
  removeNode : ∀ id cascade, Keeps P (removeNode id cascade)
  compactOutputs : ∀ op, Keeps P (compactOutputs op)

/-- The changes keep the property as long as what is written of data is shaped. A data node may be
added as a copy of another, and a fact changed to what is shaped if it was. -/
structure Graph.ShapedInvariant (P : Graph → Prop) : Prop where
  addOp : ∀ name o, Keeps P (addOp name o)
  addData : ∀ {g : Graph} name f, P g → (f.Shaped ∨ ∃ d, g.fact d = .ok f) →
    P ((addData name f).run g).graph
  touch : ∀ id, Keeps P (touch id)
  modifyOp : ∀ id f, Keeps P (Edit.modifyOp id f)
  modifyFact : ∀ {g : Graph} id f, P g → (∀ d, g.fact id = .ok d → d.Shaped → (f d).Shaped) →
    P ((Edit.modifyFact id f).run g).graph
  addEdge : ∀ src dst out inp, Keeps P (addEdge src dst out inp)
  removeEdge : ∀ i, Keeps P (removeEdge i)
  removeNode : ∀ id cascade, Keeps P (removeNode id cascade)
  compactOutputs : ∀ op, Keeps P (compactOutputs op)

namespace Graph

variable {P : Graph → Prop}

lemma Invariant.shaped (hP : Invariant P) : ShapedInvariant P where
  addOp name o := hP.addNode name (.op o)
  addData name f hg _ := hP.addNode name (.data f) _ hg
  touch := hP.touch
  modifyOp := hP.modifyOp
  modifyFact id f hg _ := hP.modifyFact id f _ hg
  addEdge := hP.addEdge
  removeEdge := hP.removeEdge
  removeNode := hP.removeNode
  compactOutputs := hP.compactOutputs

lemma ShapedInvariant.setFact (hP : ShapedInvariant P) (id : NodeId) {f : Fact} (hf : f.Shaped) :
    Keeps P (Edit.modifyFact id fun _ => f) := fun _ hg => hP.modifyFact id _ hg fun _ _ _ => hf

end Graph

namespace Edit

/-- The edit is made of the changes of a graph, and writes of data what is shaped. -/
abbrev Structural (x : Edit α) : Prop := Orderly Graph.ShapedInvariant x

lemma structural_addOp (name : String) (o : Operation) : Structural (addOp name o) :=
  (tame_addNode name _).orderly fun hP => hP.addOp name o

lemma structural_addData (name : String) {f : Fact} (hf : f.Shaped) :
    Structural (addData name f) :=
  (tame_addNode name _).orderly fun hP _ hg => hP.addData name f hg (.inl hf)

lemma structural_touch (id : NodeId) : Structural (touch id) :=
  (tame_touch id).orderly fun hP => hP.touch id

lemma structural_modifyFact (id : NodeId) {f : Fact → Fact} (hf : ∀ d, d.Shaped → (f d).Shaped) :
    Structural (modifyFact id f) :=
  (tame_modifyFact id f).orderly fun hP _ hg => hP.modifyFact id f hg fun d _ => hf d

lemma structural_setFact (id : NodeId) {f : Fact} (hf : f.Shaped) :
    Structural (modifyFact id fun _ => f) := structural_modifyFact id fun _ _ => hf

lemma structural_addEdge (src dst : NodeId) (out inp : Nat) :
    Structural (addEdge src dst out inp) :=
  (tame_addEdge src dst out inp).orderly fun hP => hP.addEdge src dst out inp

lemma structural_removeEdge (i : EdgeId) : Structural (removeEdge i) :=
  (tame_removeEdge i).orderly fun hP => hP.removeEdge i

lemma structural_removeNode (id : NodeId) (cascade : Bool) : Structural (removeNode id cascade) :=
  (tame_removeNode id cascade).orderly fun hP => hP.removeNode id cascade

lemma structural_compactOutputs (op : NodeId) : Structural (compactOutputs op) :=
  (tame_compactOutputs op).orderly fun hP => hP.compactOutputs op

lemma structural_removeNamed (name : String) (cascade : Bool) :
    Structural (removeNamed name cascade) :=
  orderly_bind (orderly_query fun g => g.plain_nodeId name) fun id =>
    structural_removeNode id cascade

/-! ### Moving edges and marking -/

lemma structural_rewireInput (op : NodeId) (port : Nat) (data : NodeId) :
    Structural (rewireInput op port data) := by
  have hadd : Structural (discard (addEdge data op 0 port)) :=
    orderly_discard (structural_addEdge data op 0 port)
  refine orderly_bind (orderly_query fun g => g.plain_inEdges op) fun edges => ?_
  split
  · exact orderly_bind (orderly_discard (structural_removeEdge _)) fun _ => hadd
  · exact hadd

lemma structural_moveConsumer (data : NodeId) (e : Edge) : Structural (moveConsumer data e) :=
  orderly_bind (structural_removeEdge _) fun _ => orderly_discard (structural_addEdge _ _ _ _)

lemma structural_mergeData (keep drop : NodeId) : Structural (mergeData keep drop) := by
  refine orderly_bind (orderly_lift (plain_ensure nofun)) fun _ => ?_
  refine orderly_bind (orderly_query fun g => g.plain_fact keep) fun _ => ?_
  refine orderly_bind (orderly_query fun g => g.plain_fact drop) fun _ => ?_
  refine orderly_bind (orderly_query fun g => g.plain_consumers drop) fun edges => ?_
  refine orderly_bind (orderly_forM fun e => structural_moveConsumer keep e) fun _ => ?_
  exact structural_removeNode drop true

/-- The copy of a data node is as shaped as the node is. -/
lemma structural_splitData (data : NodeId) (edges : List EdgeId) (name : String) :
    Structural (splitData data edges name) := by
  have hmoves (copy : NodeId) (moved : List Edge) : Structural (do
      moved.forM (moveConsumer copy)
      return copy) :=
    orderly_bind (orderly_forM fun e => structural_moveConsumer copy e) fun _ => orderly_pure _
  have hrest (f : Fact) (moved : List Edge) : Tame (do
      let copy ← addData name f
      moved.forM (moveConsumer copy)
      return copy) :=
    orderly_bind (tame_addNode _ _) fun copy => (hmoves copy moved).of_imp False.elim
  have htame : Tame (splitData data edges name) := by
    refine orderly_bind (orderly_query fun g => g.plain_fact data) fun f => ?_
    refine orderly_bind (orderly_query fun g => plain_mapM g.plain_edge) fun moved => ?_
    split
    · exact orderly_bind (orderly_fail nofun) fun _ => hrest f moved
    · exact hrest f moved
  refine htame.orderly fun hP g hg => ?_
  refine graph_reads_bind_of (reads_query _) hg fun f hf => ?_
  refine graph_reads_bind_of (reads_query _) hg fun moved _ => ?_
  split
  · exact hg
  · refine graph_bind_of (hP.addData name f hg (.inr ⟨data, hf⟩)) fun copy h hx => ?_
    exact (hmoves copy moved).keeps hP _ (hx.2 ▸ hP.addData name f hg (.inr ⟨data, hf⟩))

/-! ### Building -/

lemma structural_addOpWithData (name : String) (o : Operation) :
    Structural (addOpWithData name o) :=
  orderly_bind (structural_addOp _ _) fun _ =>
    orderly_bind (structural_addData _ Fact.shaped_unknown) fun _ =>
      orderly_bind (structural_addEdge _ _ _ _) fun _ => orderly_pure _

lemma structural_addConst (name : String) (value : Tensor) : Structural (addConst name value) :=
  orderly_bind (structural_addOpWithData _ _) fun _ =>
    orderly_bind (structural_setFact _ (Fact.shaped_ofValue value)) fun _ => orderly_pure _

lemma structural_addResult (name : String) (input : NodeId) : Structural (addResult name input) :=
  orderly_bind (structural_addOp _ _) fun _ =>
    orderly_bind (structural_addEdge _ _ _ _) fun _ => orderly_pure _

lemma structural_wireInputs (name : String) (op : NodeId) (port : Nat) (inputs : List NodeId) :
    Structural (wireInputs name op port inputs) := by
  induction inputs generalizing port with
  | nil => exact orderly_pure ()
  | cons input rest ih =>
    exact orderly_bind (orderly_within (structural_addEdge _ _ _ _)) fun _ => ih (port + 1)

lemma structural_wire (name : String) (o : Operation) (inputs : List NodeId) :
    Structural (wire name o inputs) :=
  orderly_bind (structural_addOpWithData _ _) fun p =>
    orderly_bind (structural_wireInputs name p.1 0 inputs) fun _ => orderly_pure _

lemma structural_dataOn (spec : PortSpec) (id : NodeId) : Structural (dataOn spec id) := by
  refine orderly_bind (orderly_query fun g => g.plain_node id) fun n =>
    orderly_ite (fun _ => orderly_pure _) fun _ => ?_
  refine orderly_bind (orderly_query fun g => g.plain_outputData id spec.port) fun data => ?_
  split
  · exact orderly_pure _
  · exact orderly_bind (structural_addData _ Fact.shaped_unknown) fun _ =>
      orderly_bind (structural_addEdge _ _ _ _) fun _ => orderly_pure _

lemma structural_connect (src dst : String) : Structural (connect src dst) := by
  refine orderly_bind (orderly_lift (PortSpec.plain_readSource src)) fun source => ?_
  refine orderly_bind (orderly_lift (PortSpec.plain_readTarget dst)) fun target => ?_
  refine orderly_bind (orderly_query fun g => g.plain_nodeId _) fun s => ?_
  refine orderly_bind (orderly_query fun g => g.plain_nodeId _) fun d => ?_
  refine orderly_bind (orderly_query fun g => g.plain_node d) fun n =>
    orderly_ite (fun _ => ?_) fun _ => ?_
  · exact orderly_discard (structural_addEdge _ _ _ _)
  · exact orderly_bind (structural_dataOn _ _) fun _ =>
      orderly_discard (structural_addEdge _ _ _ _)

/-! ### Cleaning up -/

lemma structural_removeNodes (ids : List NodeId) : Structural (removeNodes ids) :=
  orderly_mapM fun id => orderly_bind (orderly_query fun g => g.plain_node id) fun _ =>
    orderly_bind (structural_removeNode id true) fun _ => orderly_pure _

lemma structural_cleanUp (fixed : String → Bool) : Structural (cleanUp fixed) := by
  refine orderly_bind orderly_current fun g => ?_
  refine orderly_bind (structural_removeNodes _) fun dead => ?_
  refine orderly_bind orderly_current fun g =>
    orderly_bind (structural_removeNodes _) fun isolated => ?_
  refine orderly_bind orderly_current fun g => ?_
  refine orderly_bind (orderly_mapM structural_compactOutputs) fun moved => ?_
  refine orderly_ite (fun _ => orderly_pure _) fun _ => ?_
  exact orderly_bind (orderly_note _ _) fun _ => orderly_pure _

end Edit

end TensorGraph
