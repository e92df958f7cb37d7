import TensorGraph.Proofs.Splices

/-!
Edits that succeed.

In a well-formed graph a node that is there can be removed with its edges, and two data nodes can be
merged. So a clean-up succeeds (`exists_gives_cleanUp`), and an identity can be removed from a graph
without cycles, in which its input is not its output (`exists_gives_removeIdentity`).
-/

namespace TensorGraph

open Edit

variable {g h : Graph} {id keep drop d : NodeId} {e : Edge} {f f' : Fact} {o : Operation}

/-! ### Removing nodes -/

lemma exists_gives_removeEdges {ids : List EdgeId} (hids : ids.Nodup)
    (hlive : ∀ i ∈ ids, (g.edge? i).isSome) : ∃ h, Gives (removeEdges ids) g () h := by
  induction ids generalizing g with
  | nil => exact ⟨g, rfl, rfl⟩
  | cons i ids ih =>
    obtain ⟨hi, hids⟩ := List.nodup_cons.1 hids
    obtain ⟨e, he⟩ := Option.isSome_iff_exists.1 (hlive i (List.mem_cons_self ..))
    have hfirst := gives_removeEdge.2 ⟨he, rfl⟩
    obtain ⟨h, hrest⟩ :=
      ih (g := { g.eraseEdge i with revision := g.revision + 1 }) hids fun j hj => by
      have hne : j ≠ i := fun heq => hi (heq ▸ hj)
      show ((g.eraseEdge i).edge? j).isSome
      rw [Graph.edge?_eraseEdge, if_neg hne]
      exact hlive j (List.mem_cons_of_mem i hj)
    exact ⟨h, gives_bind.2 ⟨(), _, gives_discard.2 ⟨e, hfirst⟩, hrest⟩⟩

/-- No edge both enters and leaves a node. -/
lemma Graph.WellFormed.src_ne_dst (hg : g.WellFormed) (he : e ∈ g.edges) : e.src ≠ e.dst := by
  intro heq
  obtain ⟨s, d, hs, hd, hne⟩ := hg.ends he
  rw [heq] at hs
  exact hne (congrArg Node.isOp (Option.some.inj (hs.symm.trans hd)))

/-- The edges of a node are there, and each is listed once. -/
lemma exists_gives_removeStored (hg : g.WellFormed) {r : Record} (hr : g.record? id = some r) :
    ∃ k, Gives (removeEdges (r.inputs ++ r.outputs)) g () k := by
  have hlist : r.inputs ++ r.outputs =
      ((g.edges.filter fun e => e.dst = id) ++ g.edges.filter fun e => e.src = id).map (·.id) := by
    rw [List.map_append]
    exact congrArg₂ (· ++ ·) (g.balanced.inputs hr) (g.balanced.outputs hr)
  have hnodup : ((g.edges.filter fun e => e.dst = id) ++
      g.edges.filter fun e => e.src = id).Nodup := by
    refine (g.nodup_edges.filter _).append (g.nodup_edges.filter _) fun e hin hout => ?_
    simp only [List.mem_filter, decide_eq_true_eq] at hin hout
    exact hg.src_ne_dst hin.1 (hout.2.trans hin.2.symm)
  have hmem {e : Edge} (he : e ∈ (g.edges.filter fun e => e.dst = id) ++
      g.edges.filter fun e => e.src = id) : e ∈ g.edges := by
    rcases List.mem_append.1 he with he | he <;> exact (List.mem_filter.1 he).1
  refine exists_gives_removeEdges ?_ fun i hi => ?_
  · rw [hlist]
    exact hnodup.map_on fun e he f hf => Graph.eq_of_mem_edges (hmem he) (hmem hf)
  · obtain ⟨e, he, -, rfl⟩ := (Graph.mem_stored hr).1 hi
    exact Option.isSome_of_eq_some (Graph.mem_edges.1 he)

lemma exists_gives_removeNode (hg : g.WellFormed) {n : Node} (hn : g.node? id = some n) :
    ∃ h, Gives (removeNode id true) g () h := by
  obtain ⟨r, hr, -⟩ := Option.map_eq_some_iff.1 hn
  obtain ⟨k, hk⟩ := exists_gives_removeStored hg hr
  refine ⟨{ k.eraseNode id with revision := k.revision + 1 }, ?_⟩
  unfold removeNode
  simp only [gives_bind, gives_current, gives_lift, gives_change, ensure_eq_ok]
  exact ⟨g, g, ⟨rfl, rfl⟩, ⟨r, hr⟩, g, ⟨Graph.record_eq hr, rfl⟩, (), g, ⟨.inr trivial, rfl⟩, (), k,
    hk, rfl⟩

lemma exists_gives_removeNodes {ids : List NodeId} (hg : g.WellFormed) (hids : ids.Nodup)
    (hlive : ∀ i ∈ ids, (g.node? i).isSome) : ∃ names h, Gives (removeNodes ids) g names h := by
  unfold removeNodes
  induction ids generalizing g with
  | nil => exact ⟨[], g, rfl, rfl⟩
  | cons id ids ih =>
    obtain ⟨hnot, hids⟩ := List.nodup_cons.1 hids
    obtain ⟨n, hn⟩ := Option.isSome_iff_exists.1 (hlive id (List.mem_cons_self ..))
    obtain ⟨k, hk⟩ := exists_gives_removeNode hg hn
    obtain ⟨names, h, hrest⟩ := ih (hk.keeps (keeps_removeNode id true) hg) hids fun i hi => by
      have hne : i ≠ id := fun heq => hnot (heq ▸ hi)
      rw [(gives_removeNode hk).node?_of_ne hne]
      exact hlive i (List.mem_cons_of_mem id hi)
    refine ⟨n.name :: names, h, ?_⟩
    rw [List.mapM_cons]
    refine gives_bind.2 ⟨n.name, k, gives_query_bind (Graph.node_eq_ok.2 hn) ?_, ?_⟩
    · exact gives_bind.2 ⟨(), k, hk, gives_pure.2 ⟨rfl, rfl⟩⟩
    · exact gives_bind.2 ⟨names, h, hrest, gives_pure.2 ⟨rfl, rfl⟩⟩

/-! ### Cleaning up -/

lemma exists_gives_moves {moved : List Edge} (port : Nat → Nat)
    (hmem : ∀ e ∈ moved, ∃ f ∈ g.edges, f.id = e.id) :
    ∃ h, Gives (moved.forM fun e => renumberOutput e.id (port e.out)) g () h := by
  induction moved generalizing g with
  | nil => exact ⟨g, rfl, rfl⟩
  | cons e moved ih =>
    obtain ⟨f, hf, hid⟩ := hmem e (List.mem_cons_self ..)
    have hfirst : Gives (renumberOutput e.id (port e.out)) g () _ :=
      gives_renumberOutput.2 ⟨⟨f, Graph.edge?_eq_some.2 ⟨hf, hid⟩⟩, rfl⟩
    obtain ⟨h, hrest⟩ :=
      ih (g := { g.setOutPort e.id (port e.out) with revision := g.revision + 1 })
      fun e' he' => by
        obtain ⟨f', hf', hid'⟩ := hmem e' (List.mem_cons_of_mem e he')
        by_cases hsame : f'.id = e.id
        · exact ⟨_, Graph.mem_edges_setOutPort.2 (.inr ⟨f', hf', hsame, rfl⟩), hid'⟩
        · exact ⟨f', Graph.mem_edges_setOutPort.2 (.inl ⟨hf', hsame⟩), hid'⟩
    exact ⟨h, gives_bind.2 ⟨(), _, hfirst, hrest⟩⟩

lemma exists_gives_compactOutputs {op : NodeId} (hop : (g.op? op).isSome) :
    ∃ n h, Gives (compactOutputs op) g n h := by
  obtain ⟨s, hs, -⟩ := Graph.isSome_op?.1 hop
  have hmem : ∀ e ∈ (g.outgoing op).filter fun e => (portsOf (g.outgoing op)).idxOf e.out ≠ e.out,
      ∃ f ∈ g.edges, f.id = e.id := fun e he =>
    ⟨e, (Graph.mem_outgoing.1 (List.mem_filter.1 he).1).1, rfl⟩
  obtain ⟨h, hmoves⟩ := exists_gives_moves (portsOf (g.outgoing op)).idxOf hmem
  exact ⟨_, h, gives_query_bind (outEdges_eq_ok.2 ⟨⟨s, hs⟩, rfl⟩)
    (gives_bind.2 ⟨(), h, hmoves, gives_pure.2 ⟨rfl, rfl⟩⟩)⟩

lemma exists_gives_compactAll {l : List NodeId} (hl : ∀ op ∈ l, (g.op? op).isSome) :
    ∃ ns h, Gives (l.mapM compactOutputs) g ns h := by
  induction l generalizing g with
  | nil => exact ⟨[], g, rfl, rfl⟩
  | cons op l ih =>
    obtain ⟨n, k, hk⟩ := exists_gives_compactOutputs (hl op (List.mem_cons_self ..))
    obtain ⟨ns, h, hrest⟩ := ih (g := k) fun a ha => by
      rw [(gives_compactOutputs hk).1.op?]
      exact hl a (List.mem_cons_of_mem op ha)
    refine ⟨n :: ns, h, ?_⟩
    rw [List.mapM_cons]
    exact gives_bind.2 ⟨n, k, hk, gives_bind.2 ⟨ns, h, hrest, gives_pure.2 ⟨rfl, rfl⟩⟩⟩

/-- A clean-up succeeds. -/
lemma exists_gives_cleanUp (fixed : String → Bool) (hg : g.WellFormed) :
    ∃ r h, Gives (cleanUp fixed) g r h := by
  obtain ⟨dead, g₁, hdead⟩ := exists_gives_removeNodes hg (g.nodup_nodeIds.filter (· ∉ g.live))
    fun i hi => Graph.mem_nodeIds.1 (List.mem_filter.1 hi).1
  have hg₁ : g₁.WellFormed := hdead.keeps (keeps_removeNodes _) hg
  obtain ⟨isolated, g₂, hisolated⟩ := exists_gives_removeNodes hg₁ g₁.nodup_isolatedData
    fun i hi => by
      obtain ⟨n, hn, -⟩ := Graph.isSome_fact?.1 (Graph.mem_isolatedData.1 hi).1
      exact hn ▸ rfl
  obtain ⟨ns, h, hmoved⟩ := exists_gives_compactAll (l := g₂.movable fixed)
    fun _ => Graph.isSome_op?_of_mem_movable
  have hcurrent (g : Graph) : Gives current g g g := gives_current.2 ⟨rfl, rfl⟩
  have hreport (r : CleanupReport) : Gives (if r.isNoop then pure r else do
      note .debug r.summary
      return r) h r h := by
    split
    · exact gives_pure.2 ⟨rfl, rfl⟩
    · exact gives_bind.2 ⟨(), h, gives_note.2 rfl, gives_pure.2 ⟨rfl, rfl⟩⟩
  exact ⟨_, h, gives_bind.2 ⟨g, g, hcurrent g, gives_bind.2 ⟨dead, g₁, hdead, gives_bind.2 ⟨g₁, g₁,
    hcurrent g₁, gives_bind.2 ⟨isolated, g₂, hisolated, gives_bind.2 ⟨g₂, g₂, hcurrent g₂,
    gives_bind.2 ⟨ns, h, hmoved, hreport _⟩⟩⟩⟩⟩⟩⟩

/-! ### Merging data -/

/-- The port that a consumer leaves is free. -/
lemma exists_gives_moveConsumer (hg : g.WellFormed) (he : e ∈ g.edges)
    (hkeep : g.fact? keep = some f) (ho : g.op? e.dst = some o) :
    ∃ h, Gives (moveConsumer keep e) g () h := by
  obtain ⟨s, hs⟩ := Graph.fact?_eq_some.1 hkeep
  obtain ⟨d, hd⟩ := Graph.op?_eq_some.1 ho
  have hremove := gives_removeEdge.2 ⟨Graph.edge?_eq_some.2 ⟨he, rfl⟩, rfl⟩
  have hnode := Graph.node?_eraseEdge (g := g) e.id
  have hs' := (congrFun hnode keep).trans hs
  have hd' := (congrFun hnode e.dst).trans hd
  refine ⟨_, gives_bind.2 ⟨e, _, hremove, gives_discard.2 ⟨_, gives_addEdge.2
    ⟨⟨_, _, hs', hd', .inr ⟨rfl, rfl, rfl, fun c hc hinp => ?_⟩⟩, rfl,
      Option.isSome_of_eq_some hs', Option.isSome_of_eq_some hd', rfl⟩⟩⟩⟩
  obtain ⟨hc, hdst⟩ := Graph.mem_incoming.1 hc
  obtain ⟨hc, hid⟩ := Graph.mem_edges_eraseEdge.1 hc
  exact hid (congrArg Edge.id (hg.inp_unique hc he hdst hinp))

lemma exists_gives_moveConsumers {l : List Edge} (hg : g.WellFormed) (hnodup : l.Nodup)
    (hkeep : g.fact? keep = some f) (hl : ∀ e ∈ l, e ∈ g.edges ∧ (g.op? e.dst).isSome) :
    ∃ h, Gives (l.forM (moveConsumer keep)) g () h ∧ h.nodes = g.nodes := by
  induction l generalizing g with
  | nil => exact ⟨g, ⟨rfl, rfl⟩, rfl⟩
  | cons e l ih =>
    obtain ⟨hnot, hnodup⟩ := List.nodup_cons.1 hnodup
    obtain ⟨he, hop⟩ := hl e (List.mem_cons_self ..)
    obtain ⟨o, ho⟩ := Option.isSome_iff_exists.1 hop
    obtain ⟨k, hk⟩ := exists_gives_moveConsumer hg he hkeep ho
    obtain ⟨hnodes, _, hedges⟩ := gives_moveConsumer he hk
    have hnode : k.node? = g.node? := Graph.node?_congr hnodes
    have hkw : k.WellFormed :=
      hk.keeps ((structural_moveConsumer keep e).keeps invariant_wellFormed.shaped) hg
    obtain ⟨h, hh, hsame⟩ := ih hkw hnodup (by unfold Graph.fact?; rw [hnode]; exact hkeep)
      fun c hc => by
        obtain ⟨hmem, hcop⟩ := hl c (List.mem_cons_of_mem e hc)
        refine ⟨(hedges c).2 (.inl ⟨hmem, fun heq => hnot (heq ▸ hc)⟩), ?_⟩
        unfold Graph.op?
        rw [hnode]
        exact hcop
    exact ⟨h, gives_bind.2 ⟨(), k, hk, hh⟩, hsame.trans hnodes⟩

lemma exists_gives_mergeData (hg : g.WellFormed) (hne : keep ≠ drop)
    (hkeep : g.fact? keep = some f) (hdrop : g.fact? drop = some f') :
    ∃ h, Gives (mergeData keep drop) g () h := by
  obtain ⟨k, hk, hnodes⟩ := exists_gives_moveConsumers hg (g.nodup_outgoing drop) hkeep
    fun e he => by
      obtain ⟨hmem, hsrc⟩ := Graph.mem_outgoing.1 he
      obtain ⟨o, ho⟩ := Graph.ends_of_fact_src hg hmem (hsrc ▸ hdrop)
      exact ⟨hmem, ho ▸ rfl⟩
  have hkw : k.WellFormed := hk.keeps
    (keeps_forM fun e _ => (structural_moveConsumer keep e).keeps invariant_wellFormed.shaped) hg
  obtain ⟨name, hn⟩ := Graph.fact?_eq_some.1 hdrop
  have hn' : k.node? drop = some ⟨name, .data f'⟩ := by
    rw [Graph.node?_congr hnodes]
    exact hn
  obtain ⟨h, hh⟩ := exists_gives_removeNode hkw hn'
  refine ⟨h, ?_⟩
  unfold mergeData
  simp only [gives_bind, gives_lift, gives_query, Graph.fact_eq_ok, ensure_eq_ok]
  exact ⟨(), g, ⟨hne, rfl⟩, f, g, ⟨hkeep, rfl⟩, f', g, ⟨hdrop, rfl⟩, _, g,
    ⟨Graph.consumers_eq hdrop, rfl⟩, (), k, hk, hh⟩

/-! ### Removing identities -/

lemma exists_feedsResult (hg : g.WellFormed) (hf : g.fact? d = some f) :
    ∃ b, g.feedsResult d = .ok b := by
  unfold Graph.feedsResult
  rw [Graph.consumers_eq hf, ok_bind, mapM_node fun e he => ?_]
  · exact ⟨_, rfl⟩
  · obtain ⟨-, d, -, hd, -⟩ := hg.ends (Graph.mem_outgoing.1 he).1
    exact hd ▸ rfl

/-- An operation between two data nodes that are not the same can be spliced out. -/
lemma exists_gives_splice (hg : g.WellFormed) (ho : g.op? id = some o) (hne : keep ≠ drop)
    (hkeep : g.fact? keep = some f) (hdrop : g.fact? drop = some f') :
    ∃ h, Gives (do mergeData keep drop; removeNode id true; mark keep) g () h := by
  have hdata {i : NodeId} {f : Fact} (hi : g.fact? i = some f) : i ≠ id := fun heq => by
    cases (Graph.fact?_eq_none_of_op ho).symm.trans (heq ▸ hi)
  obtain ⟨g₁, hmerge⟩ := exists_gives_mergeData hg hne hkeep hdrop
  obtain ⟨-, k, hmoved, hw⟩ := gives_mergeData hmerge
  have hnode : ∀ i, i ≠ drop → g₁.node? i = g.node? i := fun i hi =>
    (hw.node?_of_ne hi).trans (hmoved.node?_eq i)
  have hg₁ : g₁.WellFormed := hmerge.keeps (keeps_mergeData _ _) hg
  obtain ⟨name, hn⟩ := Graph.op?_eq_some.1 ho
  obtain ⟨g₂, hremove⟩ := exists_gives_removeNode hg₁ ((hnode id (hdata hdrop).symm).trans hn)
  have hkeep' : g₂.fact? keep = some f := by
    rw [Graph.fact?, (gives_removeNode hremove).node?_of_ne (hdata hkeep), hnode keep hne]
    exact hkeep
  obtain ⟨h, hmark, -⟩ := gives_mark_data (hremove.keeps (keeps_removeNode _ _) hg₁) hkeep'
  exact ⟨h, gives_bind.2 ⟨(), g₁, hmerge, gives_bind.2 ⟨(), g₂, hremove, hmark⟩⟩⟩

/-- In a graph without cycles the pass over an operation succeeds: the input of an identity is not
its output, so they can be merged. -/
lemma exists_gives_removeIdentity (hg : g.WellFormed) (hacyclic : g.Acyclic)
    (ho : g.op? id = some o) : ∃ h, Gives (removeIdentity id) g () h := by
  have hinput := Graph.inputData_eq (p := 0) ho
  have houtput := Graph.outputData_eq (p := 0) ho
  rcases hin : g.inSource id 0 with _ | input
  · rw [hin] at hinput
    exact ⟨g, gives_query_bind hinput (gives_query_bind houtput ⟨rfl, rfl⟩)⟩
  rcases hout : g.outTarget id 0 with _ | output
  · rw [hin] at hinput
    rw [hout] at houtput
    exact ⟨g, gives_query_bind hinput (gives_query_bind houtput ⟨rfl, rfl⟩)⟩
  rw [hin] at hinput
  rw [hout] at houtput
  obtain ⟨f, hf⟩ := Graph.exists_fact_of_inSource hg ho hin
  obtain ⟨f', hf'⟩ := Graph.exists_fact_of_outTarget hg ho hout
  obtain ⟨b, hfeeds⟩ := exists_feedsResult hg hf'
  rcases b with _ | _
  · have hne : input ≠ output := by
      rintro rfl
      obtain ⟨c, hc, hcdst, -, hcsrc⟩ := (Graph.inSource_eq_some hg).1 hin
      obtain ⟨e, he, hsrc, -, hdst⟩ := (Graph.outTarget_eq_some hg ho).1 hout
      exact hacyclic id (.tail (.single ⟨e, he, hsrc, hdst⟩) ⟨c, hc, hcsrc, hcdst⟩)
    obtain ⟨name, hn⟩ := Graph.op?_eq_some.1 ho
    obtain ⟨h, hh⟩ := exists_gives_splice hg ho hne hf hf'
    exact ⟨h, gives_query_bind hinput (gives_query_bind houtput (gives_query_bind hfeeds
      (gives_query_bind (Graph.node_eq_ok.2 hn) (gives_bind.2 ⟨(), g, gives_note.2 rfl, hh⟩))))⟩
  · exact ⟨g, gives_query_bind hinput (gives_query_bind houtput (gives_query_bind hfeeds
      ⟨rfl, rfl⟩))⟩

end TensorGraph
