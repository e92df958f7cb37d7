import TensorGraph.Proofs.Replacements

/-!
What a graph is after a queue has been replaced.

Its edges are old ones or stand in the place of old ones (`Graph.Replaced.edge_cases`), so what
stays reads what it read, but for what was discarded and for the first tensor, in whose place it
reads the data of the input (`Graph.Replaced.inSource_eq_some`). The pass over a graph with one
queue is that replacement (`replaceQueues_replaced`).
-/

namespace TensorGraph

open Edit Relation

namespace Graph

variable {g h k : Graph} {dequeue queue image i j d : NodeId} {name : String} {shape : Shape}
  {e : Edge} {o : Operation} {p : Nat}

/-! ### After a replacement -/

section

variable (hn : (h.node? j).map (·.unmarked) = (g.node? j).map (·.unmarked))

include hn

lemma kind?_eq_of_unmarked : h.kind? j = g.kind? j ∧ h.attributes? j = g.attributes? j := by
  unfold kind? attributes? op?
  rcases hh : h.node? j with _ | ⟨a, b | f⟩ <;> rcases hg : g.node? j with _ | ⟨a', b' | f'⟩ <;>
    rw [hh, hg] at hn <;> simp_all [Node.unmarked, Node.mapOperation, Node.operation?]

lemma fact?_eq_of_unmarked : h.fact? j = g.fact? j := by
  unfold fact?
  rcases hh : h.node? j with _ | ⟨a, b | f⟩ <;> rcases hg : g.node? j with _ | ⟨a', b' | f'⟩ <;>
    rw [hh, hg] at hn <;> simp_all [Node.unmarked, Node.mapOperation, Node.fact?]

lemma exists_op_of_unmarked (ho : h.op? j = some o) : ∃ o', g.op? j = some o' := by
  have hkind : g.kind? j = some o.kind :=
    (kind?_eq_of_unmarked hn).1.symm.trans (Graph.kind?_eq_some.2 ⟨o, ho, rfl⟩)
  obtain ⟨o', ho', -⟩ := Graph.kind?_eq_some.1 hkind
  exact ⟨o', ho'⟩

end

lemma exists_node_of_kind {kind : String} (hkind : g.kind? j = some kind) :
    ∃ n, g.node? j = some n := by
  obtain ⟨o, ho, -⟩ := Graph.kind?_eq_some.1 hkind
  obtain ⟨s, hn⟩ := op?_eq_some.1 ho
  exact ⟨_, hn⟩

lemma live_of_origin {kind : String} {r : NodeId} (hg : g.WellFormed)
    (hkind : g.kind? j = some kind) (hin : g.origin? j p = some r) : (g.node? r).isSome := by
  obtain ⟨kind', hkind'⟩ := exists_kind_of_origin hg hkind hin
  obtain ⟨n, hn⟩ := exists_node_of_kind hkind'
  exact hn ▸ rfl

namespace Replaced

variable (hr : g.Replaced h dequeue image name shape)

include hr

/-- What is left is an old node that was not discarded, or new. -/
lemma kept_of_live (hj : (h.node? j).isSome) (hop : j ≠ g.freshOp) (hdata : j ≠ g.freshData) :
    ¬ g.Discarded dequeue image j ∧
      (h.node? j).map (·.unmarked) = (g.node? j).map (·.unmarked) := by
  have hnot : ¬ g.Discarded dequeue image j := fun hgone => by
    rw [hr.gone hgone] at hj
    cases hj
  exact ⟨hnot, hr.kept hnot hop hdata⟩

lemma live_of_live (hj : (h.node? j).isSome) (hop : j ≠ g.freshOp) (hdata : j ≠ g.freshData) :
    (g.node? j).isSome := by
  have hsame := (hr.kept_of_live hj hop hdata).2
  rwa [← Option.isSome_map (f := (·.unmarked)), ← hsame, Option.isSome_map]

/-- An old node that is left is as it was, but for its mark. -/
lemma same_of_live (hj : (h.node? j).isSome) (hold : (g.node? j).isSome) :
    ¬ g.Discarded dequeue image j ∧
      (h.node? j).map (·.unmarked) = (g.node? j).map (·.unmarked) := by
  have hop : j ≠ g.freshOp := fun heq => by simp [heq, node?_freshOp] at hold
  have hdata : j ≠ g.freshData := fun heq => by simp [heq, node?_freshData] at hold
  exact hr.kept_of_live hj hop hdata

lemma kind?_freshOp : h.kind? g.freshOp = some "Parameter" := by
  unfold kind? op?
  rw [hr.op]
  rfl

lemma fact?_freshData : h.fact? g.freshData = some (.ofShape shape) := fact?_eq_some.2 ⟨_, hr.data⟩

/-- The other operations are old, and not discarded. -/
lemma kind?_eq_some {kind : String} (hkind : h.kind? j = some kind) (hne : kind ≠ "Parameter") :
    g.kind? j = some kind ∧ ¬ g.Discarded dequeue image j ∧ h.attributes? j = g.attributes? j := by
  obtain ⟨o, ho, -⟩ := Graph.kind?_eq_some.1 hkind
  obtain ⟨s, hn⟩ := op?_eq_some.1 ho
  have hop : j ≠ g.freshOp := by
    rintro rfl
    exact hne (Option.some.inj (hkind.symm.trans hr.kind?_freshOp))
  have hdata : j ≠ g.freshData := by
    rintro rfl
    cases (op?_eq_none_of_fact hr.fact?_freshData).symm.trans ho
  have hkept := hr.kept_of_live (hn ▸ rfl) hop hdata
  have hsame := kind?_eq_of_unmarked hkept.2
  exact ⟨hsame.1 ▸ hkind, hkept.1, hsame.2⟩

/-- An edge of the new graph is old, leads from the input to its data, or from this to what read the
first tensor. -/
lemma edge_cases (hg : g.WellFormed) (hh : h.WellFormed) (he : e ∈ h.edges) :
    (e.src = g.freshOp ∧ e.dst = g.freshData) ∨
    (e.src = g.freshData ∧ ∃ c ∈ g.edges, c.src = image ∧ c.dst = e.dst ∧ c.inp = e.inp) ∨
    (e ∈ g.edges ∧ ¬ g.Discarded dequeue image e.src ∧ ¬ g.Discarded dequeue image e.dst) := by
  by_cases hop : e.src = g.freshOp
  · obtain ⟨i, hwritten⟩ := hr.written
    have heq := (hwritten e hop).1 he
    exact .inl ⟨hop, congrArg (·.dst) heq⟩
  by_cases hdata : e.src = g.freshData
  · have hin : h.inSource e.dst e.inp = some g.freshData := hdata ▸ inSource_of_edge hh he
    obtain ⟨c, hc, hdst, hinp, hsrc⟩ := (inSource_eq_some hg).1 (hr.read.1 hin)
    exact .inr (.inl ⟨hdata, c, hc, hsrc, hdst, hinp⟩)
  · exact .inr (.inr ((hr.others hop hdata).1 he))

section

variable (hg : g.WellFormed) (hh : h.WellFormed)

include hg hh

/-- An operation that is left reads on each port what it read, unless that was discarded, and the
data of the input instead of the first tensor. -/
theorem inSource_eq_some (ho : h.op? j = some o) : h.inSource j p = some d ↔
    (d = g.freshData ∧ g.inSource j p = some image) ∨
      (g.inSource j p = some d ∧ ¬ g.Discarded dequeue image d) := by
  obtain ⟨s, hn⟩ := op?_eq_some.1 ho
  constructor
  · intro hin
    obtain ⟨e, he, rfl, rfl, rfl⟩ := (Graph.inSource_eq_some hh).1 hin
    rcases hr.edge_cases hg hh he with ⟨-, hdst⟩ | ⟨hsrc, -⟩ | ⟨he, hstay, -⟩
    · rw [hdst, op?_eq_none_of_fact hr.fact?_freshData] at ho
      cases ho
    · exact .inl ⟨hsrc, hr.read.1 (hsrc ▸ hin)⟩
    · exact .inr ⟨inSource_of_edge hg he, hstay⟩
  · rintro (⟨rfl, hin⟩ | ⟨hin, hstay⟩)
    · exact hr.read.2 hin
    · obtain ⟨e, he, rfl, rfl, rfl⟩ := (Graph.inSource_eq_some hg).1 hin
      have hdst : ¬ g.Discarded dequeue image e.dst := fun hgone => by
        cases (hr.gone hgone).symm.trans hn
      have hop := (hg.apart_of_none g.node?_freshOp he).1
      have hdata := (hg.apart_of_none g.node?_freshData he).1
      exact inSource_of_edge hh ((hr.others hop hdata).2 ⟨he, hstay, hdst⟩)

/-- What is written is the data of the input, or was written before. -/
lemma written_cases {f : Fact} (he : e ∈ h.edges) (hf : h.fact? e.dst = some f) :
    (e.src = g.freshOp ∧ e.dst = g.freshData) ∨ e ∈ g.edges := by
  obtain ⟨o, ho⟩ := ends_of_fact_dst hh he hf
  rcases hr.edge_cases hg hh he with hnew | ⟨hsrc, -⟩ | ⟨he, -⟩
  · exact .inl hnew
  · rw [hsrc, op?_eq_none_of_fact hr.fact?_freshData] at ho
    cases ho
  · exact .inr he

/-- A port that reads the first tensor is fed from the input, another one from where it was. -/
lemma origin_cases {kind : String} {r : NodeId} (hkind : h.kind? j = some kind)
    (hkind' : g.kind? j = some kind) (hin : h.origin? j p = some r) :
    (r = g.freshOp ∧ g.inSource j p = some image) ∨ g.origin? j p = some r := by
  obtain ⟨e, he, rfl, rfl, c, hc, rfl, hcdst⟩ := (origin?_eq_some hh hkind).1 hin
  obtain ⟨o, ho, -⟩ := Graph.kind?_eq_some.1 hkind
  obtain ⟨f, hf⟩ := ends_of_op_dst hh he ho
  have hsource := (hr.inSource_eq_some hg hh ho).1 (inSource_of_edge hh he)
  rcases hr.written_cases hg hh hc (hcdst ▸ hf) with ⟨hcsrc, hfresh⟩ | hc
  · refine .inl ⟨hcsrc, ?_⟩
    rcases hsource with ⟨-, himage⟩ | ⟨hsource, -⟩
    · exact himage
    · -- no port of `g` reads the new data
      obtain ⟨a, ha, -, -, hasrc⟩ := (Graph.inSource_eq_some hg).1 hsource
      exact absurd (hasrc.trans (hcdst.symm.trans hfresh))
        (hg.apart_of_none g.node?_freshData ha).1
  · refine .inr ((origin?_eq_some hg hkind').2 ?_)
    rcases hsource with ⟨hfresh, -⟩ | ⟨hsource, -⟩
    · exact absurd (hcdst.trans hfresh) (hg.apart_of_none g.node?_freshData hc).2
    · obtain ⟨a, ha, hadst, hainp, hasrc⟩ := (Graph.inSource_eq_some hg).1 hsource
      exact ⟨a, ha, hadst, hainp, c, hc, rfl, hcdst.trans hasrc.symm⟩

/-- A queue whose shape is known was known before, unless it is given by the input. -/
lemma dequeues_of {i queue' image' : NodeId} {shape' : Shape}
    (hd : h.Dequeues i queue' image' shape') (hport : g.inSource i 0 ≠ some image) :
    ∃ shape'', g.Dequeues i queue' image' shape'' := by
  obtain ⟨hkind, -, -⟩ := hr.kind?_eq_some hd.kind (by decide)
  obtain ⟨hqueue, -, hattributes⟩ := hr.kind?_eq_some hd.queueKind (by decide)
  have horigin : g.origin? i 1 = some queue' := by
    rcases hr.origin_cases hg hh hd.kind hkind hd.origin with ⟨rfl, -⟩ | horigin
    · exact absurd (hd.queueKind.symm.trans hr.kind?_freshOp) (by decide)
    · exact horigin
  have himage : g.outTarget i 0 = some image' := by
    obtain ⟨o, ho, -⟩ := Graph.kind?_eq_some.1 hd.kind
    obtain ⟨o', ho', -⟩ := Graph.kind?_eq_some.1 hkind
    obtain ⟨e, he, rfl, hout, rfl⟩ := (outTarget_eq_some hh ho).1 hd.image
    obtain ⟨f, hf⟩ := ends_of_op_src hh he ho
    rcases hr.written_cases hg hh he hf with ⟨hsrc, -⟩ | he
    · exact absurd (hr.kind?_freshOp.symm.trans (hsrc ▸ hd.kind)) (by decide)
    · exact (outTarget_eq_some hg ho').2 ⟨e, he, rfl, hout, rfl⟩
  have hshape : (g.batchShape? i queue').isSome := by
    have hbefore : (h.batchShape? i queue').isSome := hd.shape ▸ rfl
    rw [isSome_batchShape?] at hbefore ⊢
    refine hbefore.imp (fun hdeclared => ?_) fun hqueue => ?_
    · -- what declares the shape was there before
      rcases hin : h.origin? i 0 with _ | r
      · simp [declaredShape?, hin] at hdeclared
      have hin' : g.origin? i 0 = some r :=
        (hr.origin_cases hg hh hd.kind hkind hin).resolve_left fun hnew => hport hnew.2
      have hsame := kind?_eq_of_unmarked
        (hr.same_of_live (live_of_origin hh hd.kind hin) (live_of_origin hg hkind hin')).2
      unfold declaredShape? at hdeclared ⊢
      rw [hin, Option.bind_some, hsame.2] at hdeclared
      rwa [hin', Option.bind_some]
    · unfold queueShape? at hqueue ⊢
      rwa [← hattributes]
  obtain ⟨shape'', hshape⟩ := Option.isSome_iff_exists.1 hshape
  exact ⟨shape'', hkind, horigin, hqueue, himage, hshape⟩

end

end Replaced

lemma gives_replaceQueues : Gives Transformation.replaceQueues.apply g () h ↔
    Gives ((g.opNodesOf "QueueDequeueUpToV2").forM replaceQueue) g () h := by
  show Gives (current >>= fun g => (g.opNodesOf "QueueDequeueUpToV2").forM replaceQueue) g () h ↔ _
  simp

/-- A pass that finds no queue to replace does nothing. -/
lemma gives_replaceQueues_of_idle (hg : g.WellFormed) (hidle : ∀ i, g.LeftInPlace i) :
    Gives Transformation.replaceQueues.apply g () g :=
  gives_replaceQueues.2 (gives_forM_self fun i hi =>
    gives_replaceQueue_of_idle hg (mem_opNodesOf.1 hi) (hidle i))

lemma fails_replaceQueues {err : Error} : Fails Transformation.replaceQueues.apply g err ↔
    Fails ((g.opNodesOf "QueueDequeueUpToV2").forM replaceQueue) g err := by
  show Fails (current >>= fun g => (g.opNodesOf "QueueDequeueUpToV2").forM replaceQueue) g err ↔ _
  simp

end Graph

/-! ### A single queue -/

section

variable {g : Graph} {dequeue queue image : NodeId} {name : String} {shape : Shape} {n : Node}

/-- **A single queue is replaced**: in a graph without cycles with one operation that takes batches
out of a queue, the pass succeeds. What goes with the queue is removed, and an input of the model is
read in the place of the first tensor. It has the first name that is not in use then, and its data
another one that is not. -/
theorem replaceQueues_replaced (hg : g.WellFormed) (ha : g.Acyclic)
    (hd : g.Dequeues dequeue queue image shape) (honly : ∀ i, g.IsDequeue i → i = dequeue)
    (hn : g.node? queue = some n)
    (hname : FirstFree (g.InUse (g.Discarded dequeue image)) n.name name)
    (hfree : ¬ g.InUse (g.Discarded dequeue image) (dataName name 0)) :
    ∃ h, Gives Transformation.replaceQueues.apply g () h ∧
      g.Replaced h dequeue image name shape := by
  obtain ⟨name', hname', hreplaced, -⟩ := exists_gives_replaceQueue hd hg ha hn
  obtain rfl := hname.unique hname'
  obtain ⟨h, hx, hr⟩ := hreplaced hfree
  have hlist : g.opNodesOf "QueueDequeueUpToV2" = [dequeue] := by
    have hperm : (g.opNodesOf "QueueDequeueUpToV2").Perm [dequeue] :=
      (List.perm_ext_iff_of_nodup (g.nodup_opNodesOf _) (List.nodup_singleton _)).2 fun i => by
        rw [Graph.mem_opNodesOf, List.mem_singleton]
        exact ⟨honly i, fun heq => heq ▸ hd.kind⟩
    exact List.perm_singleton.1 hperm
  refine ⟨h, Graph.gives_replaceQueues.2 ?_, hr⟩
  rw [hlist]
  exact gives_bind.2 ⟨(), h, hx, gives_pure.2 ⟨rfl, rfl⟩⟩

/-- Images and labels out of one queue. -/
def labelledImages : Edit Unit := do
  let size ← addParameter "size" [1]
  let (_, handle) ← addOpWithData "queue" ((Operation.ofKind "FIFOQueueV2").withAttribute "shapes"
    (.ints [2, 3]))
  let (batch, images) ← addOpWithData "batch" (.ofKind "QueueDequeueUpToV2")
  discard (addEdge size batch 0 0)
  discard (addEdge handle batch 0 1)
  let labels ← addData "labels" .unknown
  discard (addEdge batch labels 1 0)
  let y ← wire "y" (.ofKind "Relu") [images]
  let z ← wire "z" (.ofKind "Relu") [labels]
  discard (addResult "out" y)
  discard (addResult "classes" z)

/-- The queue goes with the input that only it reads, and with the labels. -/
theorem replaceQueues_replaced_labelledImages :
    let g := (labelledImages.run ∅).graph
    let h := (Transformation.replaceQueues.apply.run g).graph
    g.WellFormed ∧ g.Acyclic ∧ g.Dequeues ⟨4⟩ ⟨2⟩ ⟨5⟩ [2, 3] ∧ (∀ i, g.IsDequeue i → i = ⟨4⟩) ∧
      FirstFree (g.InUse (g.Discarded ⟨4⟩ ⟨5⟩)) "queue" "queue" ∧
      ¬ g.InUse (g.Discarded ⟨4⟩ ⟨5⟩) (dataName "queue" 0) ∧
      Gives Transformation.replaceQueues.apply g () h ∧
      g.Replaced h ⟨4⟩ ⟨5⟩ "queue" [2, 3] ∧ h.nodeIds = [⟨7⟩, ⟨8⟩, ⟨11⟩, ⟨13⟩, ⟨14⟩] := by
  intro g h
  have hg : g.WellFormed := by decide +kernel
  have horder : g.evalOrder = .ok [⟨0⟩, ⟨1⟩, ⟨2⟩, ⟨3⟩, ⟨4⟩, ⟨5⟩, ⟨7⟩, ⟨8⟩, ⟨11⟩, ⟨6⟩, ⟨9⟩, ⟨10⟩,
      ⟨12⟩] := toOption_eq_some.1 (by decide +kernel)
  have ha : g.Acyclic := (Graph.ordered_of_evalOrder horder).acyclic hg
  have hd : g.Dequeues ⟨4⟩ ⟨2⟩ ⟨5⟩ [2, 3] :=
    ⟨by decide +kernel, by decide +kernel, by decide +kernel, by decide +kernel, by decide +kernel⟩
  have honly : ∀ i, g.IsDequeue i → i = ⟨4⟩ := by
    intro i hi
    have hlist : g.opNodesOf "QueueDequeueUpToV2" = [⟨4⟩] := by decide +kernel
    have hmem : i ∈ g.opNodesOf "QueueDequeueUpToV2" := Graph.mem_opNodesOf.2 hi
    rw [hlist] at hmem
    exact List.mem_singleton.1 hmem
  -- both names go with the queue
  have hgone : ∀ {j n}, g.node? j = some n → n.name = "queue" ∨ n.name = "queue_d" →
      g.Discarded ⟨4⟩ ⟨5⟩ j := by
    intro j n hn hqueue
    have hnamed : g.nodeIds.filter (fun j => (g.node? j).any fun n =>
        n.name = "queue" ∨ n.name = "queue_d") = [⟨2⟩, ⟨3⟩] := by decide +kernel
    have hmem : j ∈ [⟨2⟩, ⟨3⟩] := by
      rw [← hnamed, List.mem_filter]
      exact ⟨Graph.mem_nodeIds.2 (hn ▸ rfl), by simpa [hn] using hqueue⟩
    have hread : { src := ⟨3⟩, dst := ⟨4⟩, out := 0, inp := 1, id := ⟨4⟩ } ∈ g.edges := by
      decide +kernel
    have hsole := (Graph.length_outgoing_eq_one hread).1 (by decide +kernel)
    have hwritten : { src := ⟨2⟩, dst := ⟨3⟩, out := 0, inp := 0, id := ⟨1⟩ } ∈ g.edges := by
      decide +kernel
    rcases List.mem_pair.1 hmem with rfl | rfl
    · exact .producer hread rfl hsole hwritten rfl
    · exact .input hread rfl hsole
  have hname : FirstFree (g.InUse (g.Discarded ⟨4⟩ ⟨5⟩)) "queue" "queue" :=
    ⟨0, rfl, fun ⟨j, n, hn, heq, hstay⟩ => hstay (hgone hn (.inl heq)), fun j hj => by omega⟩
  have hfree : ¬ g.InUse (g.Discarded ⟨4⟩ ⟨5⟩) (dataName "queue" 0) :=
    fun ⟨j, n, hn, heq, hstay⟩ => hstay (hgone hn (.inr heq))
  have hqueue : (g.node? ⟨2⟩).map (·.name) = some "queue" := by decide +kernel
  obtain ⟨n, hn, heq⟩ := Option.map_eq_some_iff.1 hqueue
  obtain ⟨k, hx, hr⟩ := replaceQueues_replaced hg ha hd honly hn (heq ▸ hname) hfree
  obtain rfl : h = k := hx.2
  exact ⟨hg, ha, hd, honly, hname, hfree, hx, hr, by decide +kernel⟩

end

end TensorGraph
