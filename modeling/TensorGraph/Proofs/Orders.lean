import Mathlib.Logic.Relation
import TensorGraph.Graph.Order
import TensorGraph.Proofs.RuleRuns

/-!
What an evaluation order is.

The order that `Graph.evalOrder` finds lists every node once, each after the nodes that feed it
(`ordered_of_evalOrder`). There is one exactly when no path along the edges leads back to where it
starts: the search gives up only on nodes of a cycle (`cycle_of_arrange`). In such a graph no
operation reads what it writes. The order depends on the links and on which nodes there are, so
inference does not change it.
-/

namespace TensorGraph.Graph

variable {g h : Graph} {id : NodeId} {done pending stack l : List NodeId}

/-! ### The steps of the search -/

lemma arrange_of_mem (hmem : id ∈ done) :
    g.arrange done pending (id :: stack) = g.arrange done pending stack := by
  rw [arrange, if_pos hmem]

section

variable {n : Node} (hmem : id ∉ done)

include hmem

lemma arrange_of_none (hn : g.node? id = none) :
    g.arrange done pending (id :: stack) = .error (Reference.node id) := by
  rw [arrange, if_neg hmem]
  split
  · rfl
  · next m hm => cases hn.symm.trans hm

variable (hn : g.node? id = some n)

include hn

lemma arrange_of_ready (hin : (g.sources id).all (· ∈ done) = true) :
    g.arrange done pending (id :: stack) = g.arrange (id :: done) pending stack := by
  rw [arrange, if_neg hmem]
  split
  · next hm => cases hn.symm.trans hm
  · rw [if_pos hin]

variable (hin : ¬(g.sources id).all (· ∈ done) = true)

include hin

lemma arrange_of_pending (hpend : id ∈ pending) :
    g.arrange done pending (id :: stack) = .error (GraphFault.cycle n.name) := by
  rw [arrange, if_neg hmem]
  split
  · next hm => cases hn.symm.trans hm
  · next m hm =>
    obtain rfl := Option.some.inj (hn.symm.trans hm)
    rw [if_neg hin, if_pos hpend]

lemma arrange_of_new (hpend : id ∉ pending) :
    g.arrange done pending (id :: stack) =
      g.arrange done (id :: pending) ((g.sources id).filter (· ∉ done) ++ id :: stack) := by
  rw [arrange, if_neg hmem]
  split
  · next hm => cases hn.symm.trans hm
  · rw [if_neg hin, if_neg hpend]

end

/-! ### What the search places -/

/-- Each node of the list is new, and its sources are done, when its turn comes. -/
def Ready (g : Graph) : List NodeId → List NodeId → Prop
  | _, [] => True
  | done, id :: rest => id ∉ done ∧ g.sources id ⊆ done ∧ g.Ready (id :: done) rest

/-- The nodes in place, the last one first. -/
def Placed (g : Graph) : List NodeId → Prop
  | [] => True
  | id :: done => id ∉ done ∧ g.sources id ⊆ done ∧ g.Placed done

lemma ready_of_placed (hp : g.Placed (l.reverse ++ done)) : g.Ready done l ∧ g.Placed done := by
  induction l generalizing done with
  | nil => exact ⟨trivial, hp⟩
  | cons id l ih =>
    rw [List.reverse_cons, List.append_assoc] at hp
    obtain ⟨hready, hnew, hsrc, hplaced⟩ := ih hp
    exact ⟨⟨hnew, hsrc, hready⟩, hplaced⟩

lemma placed_of_arrange (hd : g.Placed done) (hlive : ∀ id ∈ done, (g.node? id).isSome)
    (hl : g.arrange done pending stack = .ok l) :
    g.Placed l.reverse ∧ done ⊆ l ∧ stack ⊆ l ∧ ∀ id ∈ l, (g.node? id).isSome := by
  induction done, pending, stack using arrange.induct g with
  | case1 done pending =>
    rw [arrange, Except.ok.injEq] at hl
    subst hl
    rw [List.reverse_reverse]
    refine ⟨hd, fun i hi => List.mem_reverse.2 hi, List.nil_subset _, fun i hi => ?_⟩
    exact hlive i (List.mem_reverse.1 hi)
  | case2 done pending id stack hmem ih =>
    rw [arrange_of_mem hmem] at hl
    obtain ⟨hp, hsub, hstack, hall⟩ := ih hd hlive hl
    exact ⟨hp, hsub, List.cons_subset.2 ⟨hsub hmem, hstack⟩, hall⟩
  | case3 done pending id stack hmem hnone =>
    rw [arrange_of_none hmem hnone] at hl
    cases hl
  | case4 done pending id stack hmem n hn inputs hin ih =>
    have hsrc : g.sources id ⊆ done := fun i hi => by simpa using List.all_eq_true.1 hin i hi
    rw [arrange_of_ready hmem hn hin] at hl
    have hlive' : ∀ i ∈ id :: done, (g.node? i).isSome := by
      intro i hi
      rcases List.mem_cons.1 hi with rfl | hi
      · simp [hn]
      · exact hlive i hi
    obtain ⟨hp, hsub, hstack, hall⟩ := ih ⟨hmem, hsrc, hd⟩ hlive' hl
    obtain ⟨hid, hsub⟩ := List.cons_subset.1 hsub
    exact ⟨hp, hsub, List.cons_subset.2 ⟨hid, hstack⟩, hall⟩
  | case5 done pending id stack hmem n hn inputs hin hpend =>
    rw [arrange_of_pending hmem hn hin hpend] at hl
    cases hl
  | case6 done pending id stack hmem n hn inputs hin hpend ih =>
    rw [arrange_of_new hmem hn hin hpend] at hl
    obtain ⟨hp, hsub, hstack, hall⟩ := ih hd hlive hl
    exact ⟨hp, hsub, fun i hi => hstack (List.mem_append_right _ hi), hall⟩

/-- What holds of the nodes in place and on the stack, and of what leads to these, holds of all that
the search places. -/
lemma of_mem_arrange {P : NodeId → Prop} (hP : ∀ i, P i → ∀ j ∈ g.sources i, P j)
    (hd : ∀ i ∈ done, P i) (hs : ∀ i ∈ stack, P i) (hl : g.arrange done pending stack = .ok l) :
    ∀ i ∈ l, P i := by
  induction done, pending, stack using arrange.induct g with
  | case1 done pending =>
    rw [arrange, Except.ok.injEq] at hl
    subst hl
    exact fun i hi => hd i (List.mem_reverse.1 hi)
  | case2 done pending id stack hmem ih =>
    rw [arrange_of_mem hmem] at hl
    exact ih hd (List.forall_mem_cons.1 hs).2 hl
  | case3 done pending id stack hmem hnone =>
    rw [arrange_of_none hmem hnone] at hl
    cases hl
  | case4 done pending id stack hmem n hn inputs hin ih =>
    obtain ⟨hid, hs⟩ := List.forall_mem_cons.1 hs
    rw [arrange_of_ready hmem hn hin] at hl
    exact ih (List.forall_mem_cons.2 ⟨hid, hd⟩) hs hl
  | case5 done pending id stack hmem n hn inputs hin hpend =>
    rw [arrange_of_pending hmem hn hin hpend] at hl
    cases hl
  | case6 done pending id stack hmem n hn inputs hin hpend ih =>
    rw [arrange_of_new hmem hn hin hpend] at hl
    refine ih hd (List.forall_mem_append.2 ⟨fun i hi => ?_, hs⟩) hl
    exact hP id (hs id (List.mem_cons_self ..)) i (List.mem_filter.1 hi).1

/-- The list holds every node once, each after its sources. -/
structure Ordered (g : Graph) (l : List NodeId) : Prop where
  ready : g.Ready [] l
  mem : ∀ {id : NodeId}, id ∈ l ↔ (g.node? id).isSome

/-- **Evaluation order**: the order that is found holds every node once, each after the nodes that
feed it. -/
theorem ordered_of_evalOrder (hl : g.evalOrder = .ok l) : g.Ordered l := by
  unfold evalOrder evalOrderFor at hl
  obtain ⟨hp, -, hstack, hall⟩ := placed_of_arrange (show g.Placed [] from trivial) (by simp) hl
  rw [← List.append_nil l.reverse] at hp
  refine ⟨(ready_of_placed hp).1, fun {id} => ⟨hall id, fun hlive => ?_⟩⟩
  exact hstack (List.mem_append_right _ (mem_nodeIds.2 hlive))

lemma Ready.not_mem_done (hl : g.Ready done l) (hid : id ∈ l) : id ∉ done := by
  induction l generalizing done with
  | nil => cases hid
  | cons a l ih =>
    obtain ⟨hnew, -, hrest⟩ := hl
    rcases List.mem_cons.1 hid with rfl | hid
    · exact hnew
    · exact fun hd => ih hrest hid (List.mem_cons_of_mem a hd)

lemma Ready.nodup (hl : g.Ready done l) : l.Nodup := by
  induction l generalizing done with
  | nil => exact List.nodup_nil
  | cons a l ih =>
    obtain ⟨-, -, hrest⟩ := hl
    exact List.nodup_cons.2
      ⟨fun ha => hrest.not_mem_done ha (List.mem_cons_self ..), ih hrest⟩

/-- What is ready is so past its first part. -/
lemma Ready.split {l₁ l₂ : List NodeId} (hl : g.Ready done (l₁ ++ l₂)) :
    g.Ready (l₁.reverse ++ done) l₂ := by
  induction l₁ generalizing done with
  | nil => exact hl
  | cons a l₁ ih =>
    rw [List.reverse_cons, List.append_assoc]
    exact ih hl.2.2

lemma Ready.congr (hs : ∀ id, h.sources id = g.sources id) (hl : g.Ready done l) :
    h.Ready done l := by
  induction l generalizing done with
  | nil => trivial
  | cons a l ih => exact ⟨hl.1, (hs a).symm ▸ hl.2.1, ih hl.2.2⟩

lemma sources_of_skeleton (hs : h.skeleton = g.skeleton) (id : NodeId) :
    h.sources id = g.sources id := by
  unfold sources
  rw [incoming_of_skeleton hs]

/-! ### Cycles -/

/-- An edge leads from one node to the other. -/
def Leads (g : Graph) (a b : NodeId) : Prop := ∃ e ∈ g.edges, e.src = a ∧ e.dst = b

/-- A path leads from the node back to it. -/
def OnCycle (g : Graph) (id : NodeId) : Prop := Relation.TransGen g.Leads id id

/-- No path leads back to where it starts. -/
def Acyclic (g : Graph) : Prop := ∀ id, ¬Relation.TransGen g.Leads id id

lemma mem_sources_iff_leads {a b : NodeId} : a ∈ g.sources b ↔ g.Leads a b := by
  rw [mem_sources]
  exact ⟨fun ⟨e, he, hdst, hsrc⟩ => ⟨e, he, hsrc, hdst⟩,
    fun ⟨e, he, hsrc, hdst⟩ => ⟨e, he, hdst, hsrc⟩⟩

lemma Leads.live {a b : NodeId} (hg : g.WellFormed) (h : g.Leads a b) :
    (g.node? a).isSome ∧ (g.node? b).isSome := by
  obtain ⟨e, he, rfl, rfl⟩ := h
  obtain ⟨s, d, hs, hd, -⟩ := hg.ends he
  exact ⟨hs ▸ rfl, hd ▸ rfl⟩

/-- What leads to a node of a list that is ready stands before it. -/
lemma Ready.mem_before (hl : g.Ready [] l) {a b : NodeId} (h : Relation.TransGen g.Leads a b)
    {l₁ l₂ : List NodeId} (heq : l = l₁ ++ b :: l₂) : a ∈ l₁ := by
  have hsource : ∀ {a b : NodeId} {l₁ l₂ : List NodeId}, g.Leads a b → l = l₁ ++ b :: l₂ →
      a ∈ l₁ := by
    rintro a b l₁ l₂ hab rfl
    simpa using hl.split.2.1 (mem_sources_iff_leads.2 hab)
  induction h generalizing l₁ l₂ with
  | single hab => exact hsource hab heq
  | tail _ hcb ih =>
    obtain ⟨m₁, m₂, rfl⟩ := List.append_of_mem (hsource hcb heq)
    rw [List.append_assoc] at heq
    exact List.mem_append_left _ (ih heq)

/-- No node of a list that is ready lies on a cycle. -/
lemma Ready.not_onCycle (hl : g.Ready [] l) (hid : id ∈ l) : ¬ g.OnCycle id := by
  intro hcycle
  obtain ⟨l₁, l₂, rfl⟩ := List.append_of_mem hid
  exact List.disjoint_of_nodup_append hl.nodup (hl.mem_before hcycle rfl) (List.mem_cons_self ..)

/-- A graph that has an order has no cycle. -/
lemma Ordered.acyclic (hl : g.Ordered l) (hg : g.WellFormed) : g.Acyclic := by
  intro id hcycle
  obtain ⟨b, hab, -⟩ := Relation.TransGen.head'_iff.1 hcycle
  exact hl.ready.not_onCycle (hl.mem.2 (hab.live hg).1) hcycle

/-- In a graph without cycles no operation reads what it writes. -/
lemma Acyclic.apart (h : g.Acyclic) (op : NodeId) : g.Apart op := by
  intro e he e' he' hsrc hdst heq
  exact h op (.tail (.single ⟨e, he, hsrc, rfl⟩) ⟨e', he', heq.symm, hdst⟩)

lemma Ordered.apart (hl : g.Ordered l) (hg : g.WellFormed) (op : NodeId) : g.Apart op :=
  (hl.acyclic hg).apart op

/-- The nodes on the stack before `p` lead to it, and its sources are in place when they are. -/
def Awaits (g : Graph) (p : NodeId) : List NodeId → List NodeId → Prop
  | _, [] => False
  | done, id :: stack => (id = p ∧ g.sources p ⊆ done) ∨
      (Relation.TransGen g.Leads id p ∧ g.Awaits p (id :: done) stack)

lemma Awaits.mono {p : NodeId} {done' : List NodeId} (h : g.Awaits p done stack)
    (hsub : done ⊆ done') : g.Awaits p done' stack := by
  induction stack generalizing done done' with
  | nil => exact h
  | cons id stack ih =>
    rcases h with ⟨rfl, hsrc⟩ | ⟨hlead, h⟩
    · exact .inl ⟨rfl, List.Subset.trans hsrc hsub⟩
    · exact .inr ⟨hlead, ih h (List.cons_subset_cons id hsub)⟩

lemma Awaits.push {p : NodeId} {pre : List NodeId}
    (hlead : ∀ i ∈ pre, Relation.TransGen g.Leads i p)
    (h : g.Awaits p (pre ++ done) stack) : g.Awaits p done (pre ++ stack) := by
  induction pre generalizing done with
  | nil => exact h
  | cons i pre ih =>
    refine .inr ⟨hlead i (List.mem_cons_self ..), ih (fun j hj => ?_) (h.mono ?_)⟩
    · exact hlead j (List.mem_cons_of_mem i hj)
    · intro j hj
      simpa [or_left_comm] using hj

/-- The search gives up only on a node of a cycle, which it has come to from the stack: what is
pending waits for the nodes above it on the stack, and these lead to it. -/
lemma cycle_of_arrange {P : NodeId → Prop} (hP : ∀ i, P i → ∀ j ∈ g.sources i, P j)
    (hlive : ∀ i, P i → (g.node? i).isSome) (hs : ∀ i ∈ stack, P i)
    (hawait : ∀ p ∈ pending, p ∉ done → g.Awaits p done stack) {e : Error}
    (hl : g.arrange done pending stack = .error e) :
    ∃ id n, g.node? id = some n ∧ P id ∧ e = GraphFault.cycle n.name ∧ g.OnCycle id := by
  induction done, pending, stack using arrange.induct g with
  | case1 done pending =>
    rw [arrange] at hl
    cases hl
  | case2 done pending id stack hmem ih =>
    rw [arrange_of_mem hmem] at hl
    refine ih (List.forall_mem_cons.1 hs).2 (fun p hp hnew => ?_) hl
    rcases hawait p hp hnew with ⟨rfl, -⟩ | ⟨-, h⟩
    · exact absurd hmem hnew
    · exact h.mono (List.cons_subset.2 ⟨hmem, List.Subset.refl _⟩)
  | case3 done pending id stack hmem hnone =>
    have := hlive id (hs id (List.mem_cons_self ..))
    rw [hnone] at this
    cases this
  | case4 done pending id stack hmem n hn inputs hin ih =>
    rw [arrange_of_ready hmem hn hin] at hl
    refine ih (List.forall_mem_cons.1 hs).2 (fun p hp hnew => ?_) hl
    obtain ⟨hne, hnew⟩ := not_or.1 (List.mem_cons.not.1 hnew)
    rcases hawait p hp hnew with ⟨rfl, -⟩ | ⟨-, h⟩
    · exact absurd rfl hne
    · exact h
  | case5 done pending id stack hmem n hn inputs hin hpend =>
    rw [arrange_of_pending hmem hn hin hpend, Except.error.injEq] at hl
    rcases hawait id hpend hmem with ⟨-, hsrc⟩ | ⟨hcycle, -⟩
    · exact absurd (List.all_eq_true.2 fun i hi => decide_eq_true (hsrc hi)) hin
    · exact ⟨id, n, hn, hs id (List.mem_cons_self ..), hl.symm, hcycle⟩
  | case6 done pending id stack hmem n hn inputs hin hpend ih =>
    rw [arrange_of_new hmem hn hin hpend] at hl
    have hlead : ∀ i ∈ inputs.filter (· ∉ done), g.Leads i id := fun i hi =>
      mem_sources_iff_leads.1 (List.mem_filter.1 hi).1
    refine ih (List.forall_mem_append.2 ⟨fun i hi => ?_, hs⟩) (fun p hp hnew => ?_) hl
    · exact hP id (hs id (List.mem_cons_self ..)) i (List.mem_filter.1 hi).1
    rcases List.mem_cons.1 hp with rfl | hp
    · refine Awaits.push (fun i hi => .single (hlead i hi)) (.inl ⟨rfl, fun i hi => ?_⟩)
      by_cases hd : i ∈ done
      · exact List.mem_append_right _ hd
      · exact List.mem_append_left _ (List.mem_filter.2 ⟨hi, by simpa using hd⟩)
    · rcases hawait p hp hnew with ⟨rfl, -⟩ | ⟨hp', h⟩
      · exact absurd hp hpend
      · refine Awaits.push (fun i hi => .head (hlead i hi) hp') (.inr ⟨hp', h.mono ?_⟩)
        exact List.cons_subset_cons id (List.subset_append_right ..)

/-- **Acyclic graphs** have an evaluation order. -/
theorem exists_evalOrder (hg : g.WellFormed) (hacyclic : g.Acyclic) :
    ∃ l, g.evalOrder = .ok l := by
  rcases hl : g.evalOrder with e | l
  · unfold evalOrder evalOrderFor at hl
    have hlive : ∀ id ∈ g.sinks ++ g.nodeIds, (g.node? id).isSome := by
      intro id hid
      rcases List.mem_append.1 hid with hid | hid
      · rw [sinks_eq] at hid
        exact mem_nodeIds.1 (List.mem_filter.1 hid).1
      · exact mem_nodeIds.1 hid
    obtain ⟨id, -, -, -, -, hcycle⟩ := cycle_of_arrange (P := fun id => (g.node? id).isSome)
      (fun i _ j hj => ((mem_sources_iff_leads.1 hj).live hg).1) (fun _ hi => hi) hlive
      (by simp) hl
    exact absurd hcycle (hacyclic id)
  · exact ⟨l, rfl⟩

/-! ### Graphs with the same order -/

/-- The search meets the same nodes and the same edges in both graphs. -/
lemma arrange_congr (hs : ∀ id, h.sources id = g.sources id)
    (hn : ∀ id, (h.node? id).isSome = (g.node? id).isSome)
    (hl : g.arrange done pending stack = .ok l) : h.arrange done pending stack = .ok l := by
  have hnode : ∀ {id : NodeId} {n : Node}, g.node? id = some n → ∃ m, h.node? id = some m := by
    intro id n hnode
    rw [← Option.isSome_iff_exists, hn, hnode]
    rfl
  induction done, pending, stack using arrange.induct g with
  | case1 done pending =>
    rw [arrange] at hl ⊢
    exact hl
  | case2 done pending id stack hmem ih =>
    rw [arrange_of_mem hmem] at hl ⊢
    exact ih hl
  | case3 done pending id stack hmem hnone =>
    rw [arrange_of_none hmem hnone] at hl
    cases hl
  | case4 done pending id stack hmem n hid inputs hin ih =>
    obtain ⟨m, hm⟩ := hnode hid
    rw [arrange_of_ready hmem hid hin] at hl
    rw [arrange_of_ready hmem hm (by rw [hs, hin])]
    exact ih hl
  | case5 done pending id stack hmem n hid inputs hin hpend =>
    rw [arrange_of_pending hmem hid hin hpend] at hl
    cases hl
  | case6 done pending id stack hmem n hid inputs hin hpend ih =>
    obtain ⟨m, hm⟩ := hnode hid
    rw [arrange_of_new hmem hid hin hpend] at hl
    rw [arrange_of_new hmem hm (by rwa [hs]) hpend, hs]
    exact ih hl

lemma nodeIds_congr (hnext : h.nodes.next = g.nodes.next)
    (hn : ∀ id, (h.node? id).isSome = (g.node? id).isSome) : h.nodeIds = g.nodeIds := by
  rw [nodeIds_eq_indices, nodeIds_eq_indices, Slots.indices, Slots.indices, hnext]
  refine congrArg _ (List.filter_congr fun i _ => ?_)
  simpa only [node?_eq_get?] using hn ⟨i⟩

/-- The order depends on the links and on which nodes there are. -/
lemma evalOrder_congr (hk : h.links = g.links) (hnext : h.nodes.next = g.nodes.next)
    (hn : ∀ id, (h.node? id).isSome = (g.node? id).isSome) (hl : g.evalOrder = .ok l) :
    h.evalOrder = .ok l := by
  have hs : ∀ id, h.sources id = g.sources id := fun id => by
    unfold sources
    rw [incoming_congr hk]
  have hids := nodeIds_congr hnext hn
  have hsinks : h.sinks = g.sinks := by
    rw [sinks_eq, sinks_eq, hids]
    refine List.filter_congr fun id _ => ?_
    rw [outgoing_congr hk]
  unfold evalOrder evalOrderFor at hl ⊢
  rw [hsinks, hids]
  exact arrange_congr hs hn hl

lemma evalOrder_of_skeleton (hs : h.skeleton = g.skeleton) (hl : g.evalOrder = .ok l) :
    h.evalOrder = .ok l :=
  evalOrder_congr (links_of_skeleton hs) (next_of_skeleton hs) (isSome_node?_of_skeleton hs) hl

lemma Acyclic.of_skeleton (hs : h.skeleton = g.skeleton) (hg : g.Acyclic) : h.Acyclic := by
  unfold Acyclic Leads
  rw [edges_of_skeleton hs]
  exact hg

end TensorGraph.Graph
