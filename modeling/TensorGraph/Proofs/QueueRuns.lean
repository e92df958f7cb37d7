import TensorGraph.Proofs.InputQueues

/-!
What the replacement of input queues does to a graph with several of them.

The pass follows a list of operations drawn up before it begins, and comes to graphs whose nodes are
old ones or stand in the place of old ones that are gone, with edges that lead where edges led
before (`Graph.Queued`). So what an operation that stays has lost depends on an output of a dequeue
other than the first (`replaceQueues_survives`), an operation of the list that is gone was joined by
a path to another one (`error_of_fails_replaceQueues`), and a second run finds nothing to do unless
one queue gave another one a shape (`replaceQueues_idempotent`).
-/

namespace TensorGraph

open Edit Relation

namespace Graph

variable {g h k : Graph} {dequeue queue image i j d : NodeId} {name : String} {shape : Shape}
  {e : Edge} {o : Operation} {p : Nat} {l rest : List NodeId} {was : NodeId → NodeId}

/-! ### Old nodes -/

/-- The number was given to a node of the graph. -/
def Old (g : Graph) (j : NodeId) : Prop := j.index < g.nodes.next

lemma old_of_live (hj : (g.node? j).isSome) : g.Old j := by
  obtain ⟨n, hn⟩ := Option.isSome_iff_exists.1 hj
  exact Slots.lt_next_of_get?_eq_some (node?_eq_get? ▸ hn)

lemma old_src (hg : g.WellFormed) (he : e ∈ g.edges) : g.Old e.src :=
  old_of_live (Leads.live hg ⟨e, he, rfl, rfl⟩).1

lemma old_dst (hg : g.WellFormed) (he : e ∈ g.edges) : g.Old e.dst :=
  old_of_live (Leads.live hg ⟨e, he, rfl, rfl⟩).2

lemma not_old_freshOp (hnext : g.nodes.next ≤ k.nodes.next) : ¬ g.Old k.freshOp := by
  simpa [Old, freshOp] using hnext

lemma not_old_freshData (hnext : g.nodes.next ≤ k.nodes.next) : ¬ g.Old k.freshData := by
  simp only [Old, freshData]
  omega

/-- The node in whose place a node is after a replacement. -/
def place (g : Graph) (dequeue image j : NodeId) : NodeId :=
  if j = g.freshOp then dequeue else if j = g.freshData then image else j

@[simp] lemma place_freshOp : g.place dequeue image g.freshOp = dequeue := if_pos rfl

@[simp] lemma place_freshData : g.place dequeue image g.freshData = image := by
  simp [place, g.freshOp_ne_freshData.symm]

lemma place_of_ne (hop : j ≠ g.freshOp) (hdata : j ≠ g.freshData) :
    g.place dequeue image j = j := by
  simp [place, hop, hdata]

lemma place_of_old (hj : g.Old j) : g.place dequeue image j = j :=
  place_of_ne (fun heq => not_old_freshOp (Nat.le_refl _) (heq ▸ hj))
    fun heq => not_old_freshData (Nat.le_refl _) (heq ▸ hj)

/-- An edge leads where one led before. -/
lemma Replaced.leads_place (hr : g.Replaced h dequeue image name shape)
    (hd : g.Dequeues dequeue queue image shape) (hg : g.WellFormed) (hh : h.WellFormed)
    (hleads : h.Leads i j) : g.Leads (g.place dequeue image i) (g.place dequeue image j) := by
  obtain ⟨e, he, rfl, rfl⟩ := hleads
  have hplace {c : Edge} (hc : c ∈ g.edges) : g.place dequeue image c.src = c.src ∧
      g.place dequeue image c.dst = c.dst :=
    ⟨place_of_old (old_src hg hc), place_of_old (old_dst hg hc)⟩
  rcases hr.edge_cases hg hh he with ⟨hsrc, hdst⟩ | ⟨hsrc, c, hc, hcsrc, hdst, -⟩ | ⟨he, -, -⟩
  · obtain ⟨c, hc, hcsrc, -, hcdst⟩ := hd.exists_edge hg
    rw [hsrc, hdst, place_freshOp, place_freshData]
    exact ⟨c, hc, hcsrc, hcdst⟩
  · rw [hsrc, ← hdst, place_freshData, (hplace hc).2]
    exact ⟨c, hc, hcsrc, rfl⟩
  · rw [(hplace he).1, (hplace he).2]
    exact ⟨e, he, rfl, rfl⟩

/-! ### The pass -/

/-- The pass has come from `g` to `k`, with a list of operations of `g` before it. Some of these may
be gone. A new node is in the place of an old one that is gone: `was` tells which. -/
structure Queued (g : Graph) (l : List NodeId) (k : Graph) (was : NodeId → NodeId) : Prop where
  wellFormed : k.WellFormed
  next : g.nodes.next ≤ k.nodes.next
  nodup : l.Nodup
  listed : ∀ i ∈ l, g.IsDequeue i
  old : ∀ {j}, g.Old j → was j = j
  kept : ∀ {j}, g.Old j → (k.node? j).isSome →
    (k.node? j).map (·.unmarked) = (g.node? j).map (·.unmarked)
  new : ∀ {j}, ¬ g.Old j → (k.node? j).isSome → g.Old (was j) ∧ k.node? (was j) = none
  dequeues : ∀ {i}, k.IsDequeue i → g.IsDequeue i
  edges : ∀ {e}, e ∈ k.edges → g.Old e.src → e ∈ g.edges
  leads : ∀ {i j}, k.Leads i j → g.Leads (was i) (was j)
  inputs : ∀ {j o p d}, k.op? j = some o → k.inSource j p = some d →
    g.inSource j p = some (was d)

lemma IsDequeue.live (hi : g.IsDequeue i) : (g.node? i).isSome := by
  obtain ⟨n, hn⟩ := exists_node_of_kind hi
  exact hn ▸ rfl

lemma Queued.start (hg : g.WellFormed) : g.Queued (g.opNodesOf "QueueDequeueUpToV2") g id where
  wellFormed := hg
  next := Nat.le_refl _
  nodup := nodup_opNodesOf g _
  listed _ := mem_opNodesOf.1
  old _ := rfl
  kept _ _ := rfl
  new hnew hlive := absurd (old_of_live hlive) hnew
  dequeues hi := hi
  edges he _ := he
  leads h := h
  inputs _ hin := hin

namespace Queued

lemma tail (hq : g.Queued (i :: l) k was) : g.Queued l k was :=
  { hq with
    nodup := (List.nodup_cons.1 hq.nodup).2
    listed := fun j hj => hq.listed j (List.mem_cons_of_mem i hj) }

lemma isDequeue (hq : g.Queued l k was) (hi : i ∈ l) (hlive : (k.node? i).isSome) :
    k.IsDequeue i := by
  have hold := hq.listed i hi
  exact (kind?_eq_of_unmarked (hq.kept (old_of_live hold.live) hlive)).1.trans hold

lemma path (hq : g.Queued l k was) (hpath : TransGen k.Leads i j) :
    TransGen g.Leads (was i) (was j) :=
  hpath.lift was fun _ _ => hq.leads

lemma acyclic (hq : g.Queued l k was) (ha : g.Acyclic) : k.Acyclic := fun _ hcycle =>
  ha _ (hq.path hcycle)

lemma old_image (hq : g.Queued l k was) (hg : g.WellFormed)
    (hd : k.Dequeues dequeue queue image shape) : g.Old image := by
  obtain ⟨e, he, hsrc, -, rfl⟩ := hd.exists_edge hq.wellFormed
  exact old_dst hg (hq.edges he (hsrc ▸ old_of_live (hq.dequeues hd.kind).live))

/-- An old node that is gone stays gone. -/
lemma gone (hq : g.Queued l k was) (hr : k.Replaced h dequeue image name shape)
    (hj : g.Old j) (hgone : k.node? j = none) : h.node? j = none := by
  have hop : j ≠ k.freshOp := fun heq => not_old_freshOp hq.next (heq ▸ hj)
  have hdata : j ≠ k.freshData := fun heq => not_old_freshData hq.next (heq ▸ hj)
  by_cases hdiscarded : k.Discarded dequeue image j
  · exact hr.gone hdiscarded
  · have hkept := hr.kept hdiscarded hop hdata
    rwa [hgone, Option.map_none, Option.map_eq_none_iff] at hkept

section

variable (hq : g.Queued (i :: l) k was) (hg : g.WellFormed)
  (hd : k.Dequeues i queue image shape) (hr : k.Replaced h i image name shape) (hh : h.WellFormed)

include hq hr

lemma live_of_live (hj : g.Old j) (hlive : (h.node? j).isSome) : (k.node? j).isSome := by
  rw [Option.isSome_iff_ne_none] at hlive ⊢
  exact mt (hq.gone hr hj) hlive

/-- Discarded data stands for data that is gone. -/
lemma gone_was (hdiscarded : k.Discarded i image d) (hlive : (k.node? d).isSome) :
    h.node? (was d) = none := by
  by_cases hold : g.Old d
  · rw [hq.old hold]
    exact hr.gone hdiscarded
  · have hnew := hq.new hold hlive
    exact hq.gone hr hnew.1 hnew.2

include hg hd

/-- The new nodes are in the place of what was discarded. -/
lemma new_of_replaced (hj : ¬ g.Old j) (hlive : (h.node? j).isSome) :
    g.Old (was (k.place i image j)) ∧ h.node? (was (k.place i image j)) = none := by
  by_cases hop : j = k.freshOp
  · have hi : g.Old i := old_of_live (hq.dequeues hd.kind).live
    rw [hop, place_freshOp, hq.old hi]
    exact ⟨hi, hr.gone .dequeue⟩
  by_cases hdata : j = k.freshData
  · have himage : g.Old image := hq.old_image hg hd
    rw [hdata, place_freshData, hq.old himage]
    exact ⟨himage, hr.gone .image⟩
  · have hnew := hq.new hj (hr.live_of_live hlive hop hdata)
    rw [place_of_ne hop hdata]
    exact ⟨hnew.1, hq.gone hr hnew.1 hnew.2⟩

include hh

omit hg hd in
lemma inputs_of_replaced (ho : h.op? j = some o) (hin : h.inSource j p = some d) :
    g.inSource j p = some (was (k.place i image d)) := by
  -- the operation was there, since it read something
  have hread {d' : NodeId} (hd' : k.inSource j p = some d') : g.inSource j p = some (was d') := by
    obtain ⟨c, hc, rfl, -, -⟩ := (inSource_eq_some hq.wellFormed).1 hd'
    obtain ⟨s, hn⟩ := op?_eq_some.1 ho
    have hsame := (hr.same_of_live (hn ▸ rfl) (Leads.live hq.wellFormed ⟨c, hc, rfl, rfl⟩).2).2
    obtain ⟨o', ho'⟩ := exists_op_of_unmarked hsame ho
    exact hq.inputs ho' hd'
  rcases (hr.inSource_eq_some hq.wellFormed hh ho).1 hin with ⟨rfl, hsource⟩ | ⟨hsource, -⟩
  · rw [place_freshData]
    exact hread hsource
  · obtain ⟨c, hc, -, -, rfl⟩ := (inSource_eq_some hq.wellFormed).1 hsource
    rw [place_of_old (old_src hq.wellFormed hc)]
    exact hread hsource

/-- A replacement. -/
lemma replace : g.Queued l h (was ∘ k.place i image) := by
  have hop {j : NodeId} (hj : g.Old j) : j ≠ k.freshOp := fun heq =>
    not_old_freshOp hq.next (heq ▸ hj)
  have hdata {j : NodeId} (hj : g.Old j) : j ≠ k.freshData := fun heq =>
    not_old_freshData hq.next (heq ▸ hj)
  exact {
    wellFormed := hh
    next := hr.next ▸ Nat.le_add_right_of_le hq.next
    nodup := hq.tail.nodup
    listed := hq.tail.listed
    old := fun hj => (congrArg was (place_of_ne (hop hj) (hdata hj))).trans (hq.old hj)
    kept := fun hj hlive => (hr.kept_of_live hlive (hop hj) (hdata hj)).2.trans
      (hq.kept hj (hq.live_of_live hr hj hlive))
    new := hq.new_of_replaced hg hd hr
    dequeues := fun hj => hq.dequeues (hr.kind?_eq_some hj (by decide)).1
    edges := fun he hsrc => hq.edges ((hr.others (hop hsrc) (hdata hsrc)).1 he).1 hsrc
    leads := fun hleads => hq.leads (hr.leads_place hd hq.wellFormed hh hleads)
    inputs := hq.inputs_of_replaced hr hh }

end

/-- One step of the pass: the operation is gone, its queue is left in place, or it is replaced,
which fails when a name is in use. -/
lemma step (hq : g.Queued (i :: l) k was) (ha : g.Acyclic) :
    (k.node? i = none ∧ Fails (replaceQueue i) k (Reference.node i)) ∨
    (∃ name, Fails (replaceQueue i) k (GraphFault.nameTaken (dataName name 0))) ∨
    (k.LeftInPlace i ∧ Gives (replaceQueue i) k () k) ∨
    ∃ queue image shape name h, k.Dequeues i queue image shape ∧
      k.Replaced h i image name shape ∧ h.WellFormed ∧ Gives (replaceQueue i) k () h := by
  rcases hn : k.node? i with _ | n
  · exact .inl ⟨rfl, fails_replaceQueue_of_gone hn⟩
  have hkind : k.IsDequeue i := hq.isDequeue (List.mem_cons_self ..) (hn ▸ rfl)
  by_cases hidle : k.LeftInPlace i
  · exact .inr (.inr (.inl ⟨hidle, gives_replaceQueue_of_idle hq.wellFormed hkind hidle⟩))
  unfold LeftInPlace at hidle
  push Not at hidle
  obtain ⟨queue, image, shape, hd⟩ := hidle
  obtain ⟨n', hn'⟩ := exists_node_of_kind hd.queueKind
  obtain ⟨name, -, hfree, htaken⟩ := exists_gives_replaceQueue hd hq.wellFormed (hq.acyclic ha) hn'
  by_cases huse : k.InUse (k.Discarded i image) (dataName name 0)
  · exact .inr (.inl ⟨name, htaken huse⟩)
  · obtain ⟨h, hx, hr⟩ := hfree huse
    have hh : h.WellFormed :=
      hx.keeps ((structural_replaceQueue i).keeps invariant_wellFormed.shaped) hq.wellFormed
    exact .inr (.inr (.inr ⟨queue, image, shape, name, h, hd, hr, hh, hx⟩))

end Queued

/-- What a step keeps, whether it leaves a queue in place or replaces it. -/
structure Stepwise (g : Graph) (P : List NodeId → Graph → Prop) : Prop where
  idle : ∀ {i l k}, k.LeftInPlace i → P (i :: l) k → P l k
  replace : ∀ {i l k was h queue image shape name}, g.Queued (i :: l) k was →
    k.Dequeues i queue image shape → k.Replaced h i image name shape → h.WellFormed →
    P (i :: l) k → P l h

namespace Stepwise

variable {P : List NodeId → Graph → Prop} (hs : g.Stepwise P) (hg : g.WellFormed) (ha : g.Acyclic)

include hs hg ha

lemma run (hq : g.Queued (l ++ rest) k was) (hP : P (l ++ rest) k)
    (hx : Gives (l.forM replaceQueue) k () h) : ∃ was', g.Queued rest h was' ∧ P rest h := by
  induction l generalizing k was with
  | nil =>
    obtain ⟨-, rfl⟩ := gives_pure.1 hx
    exact ⟨was, hq, hP⟩
  | cons i l ih =>
    obtain ⟨_, m, hfirst, hrest⟩ := gives_bind.1 hx
    rcases hq.step ha with ⟨-, hfails⟩ | ⟨name, hfails⟩ | ⟨hidle, hgives⟩ |
      ⟨queue, image, shape, name, m', hd, hr, hm', hgives⟩
    · exact absurd hfails hfirst.not_fails
    · exact absurd hfails hfirst.not_fails
    · obtain ⟨-, rfl⟩ := hgives.unique hfirst
      exact ih hq.tail (hs.idle hidle hP) hrest
    · obtain ⟨-, rfl⟩ := hgives.unique hfirst
      exact ih (hq.replace hg hd hr hm') (hs.replace hq hd hr hm' hP) hrest

variable (hP : P (g.opNodesOf "QueueDequeueUpToV2") g)

include hP

/-- What the pass comes to at the end. -/
lemma of_gives (hx : Gives Transformation.replaceQueues.apply g () h) :
    ∃ was, g.Queued [] h was ∧ P [] h := by
  have hstart := Queued.start hg
  rw [← List.append_nil (g.opNodesOf _)] at hP hstart
  exact hs.run hg ha hstart hP (gives_replaceQueues.1 hx)

/-- What the pass has come to when it fails. -/
lemma of_fails {err : Error} (hx : Fails Transformation.replaceQueues.apply g err) :
    ∃ i l k was, g.Queued (i :: l) k was ∧ P (i :: l) k ∧ Fails (replaceQueue i) k err := by
  obtain ⟨before, i, l, k, heq, hbefore, hfails⟩ := fails_forM.1 (fails_replaceQueues.1 hx)
  have hstart := Queued.start hg
  rw [heq] at hP hstart
  obtain ⟨was, hq, hk⟩ := hs.run hg ha hstart hP hbefore
  exact ⟨i, l, k, was, hq, hk, hfails⟩

end Stepwise

/-! ### What stays -/

/-- Data that depends on an output of a dequeue other than the first. -/
def Secondary (g : Graph) (d : NodeId) : Prop :=
  ∃ e ∈ g.edges, g.IsDequeue e.src ∧ e.out ≠ 0 ∧ ReflTransGen g.Leads e.dst d

/-- What a pass leaves of the surroundings of the nodes that stay. An operation reads on the ports
it read on, but for data that is gone and depends on an output of a dequeue other than the first.
Data comes from where it came from, unless this is gone because it also wrote an input of a
dequeue. -/
structure Survives (g h : Graph) : Prop where
  kept : ∀ {j}, (g.node? j).isSome → (h.node? j).isSome →
    (h.node? j).map (·.unmarked) = (g.node? j).map (·.unmarked)
  connected : ∀ {j o p}, g.op? j = some o → (h.node? j).isSome → (h.inSource j p).isSome →
    (g.inSource j p).isSome
  read : ∀ {j o p d}, g.op? j = some o → (h.node? j).isSome → g.inSource j p = some d →
    (h.inSource j p).isSome ∨ (g.Secondary d ∧ h.node? d = none)
  written : ∀ {e f}, e ∈ g.edges → g.fact? e.dst = some f → (h.node? e.dst).isSome →
    e ∈ h.edges ∨ (g.AlsoFeeds e ∧ h.node? e.src = none)

lemma Survives.refl (g : Graph) : g.Survives g :=
  ⟨fun _ _ => rfl, fun _ _ h => h, fun _ _ hin => .inl (hin ▸ rfl), fun he _ _ => .inl he⟩

namespace Queued

variable (hq : g.Queued (i :: l) k was) (hg : g.WellFormed) (hd : k.Dequeues i queue image shape)
  (hr : k.Replaced h i image name shape)

include hq hg hd hr

/-- Data keeps its producer, unless this goes with an input of the dequeue that it writes too. -/
lemma written_or_alsoFeeds (ha : g.Acyclic) (he : e ∈ g.edges) (he' : e ∈ k.edges) {f : Fact}
    (hf : k.fact? e.dst = some f) (hlive : (h.node? e.dst).isSome) :
    e ∈ h.edges ∨ (g.AlsoFeeds e ∧ h.node? e.src = none) := by
  have hstay := (hr.same_of_live hlive (hq.live_of_live hr (old_dst hg he) hlive)).1
  by_cases hgone : k.Discarded i image e.src
  · rcases hd.discarded_of_src hq.wellFormed (hq.acyclic ha) he' hf hgone with
      hdst | ⟨c, hc, hsrc, hne, r, hread, hrsrc, hdequeue⟩
    · exact absurd hdst hstay
    · have hc' := hq.edges hc (hsrc ▸ old_src hg he)
      have hr' := hq.edges hread (hrsrc ▸ old_dst hg hc')
      exact .inr ⟨⟨c, hc', hsrc, hne, r, hr', hrsrc, hq.dequeues hdequeue⟩, hr.gone hgone⟩
  · have hop := (hq.wellFormed.apart_of_none k.node?_freshOp he').1
    have hdata := (hq.wellFormed.apart_of_none k.node?_freshData he').1
    exact .inl ((hr.others hop hdata).2 ⟨he', hgone, hstay⟩)

variable (hh : h.WellFormed)

include hh

/-- What an operation that stays does not read any more depends on another output of the dequeue. -/
lemma read_or_secondary (hj : g.Old j) (hlive : (h.node? j).isSome) (ho : k.op? j = some o)
    (hin : k.inSource j p = some d) :
    (h.inSource j p).isSome ∨ (g.Secondary (was d) ∧ h.node? (was d) = none) := by
  have hi : g.Old i := old_of_live (hq.dequeues hd.kind).live
  obtain ⟨hstay, hsame⟩ := hr.same_of_live hlive (hq.live_of_live hr hj hlive)
  obtain ⟨o', ho'⟩ := exists_op_of_unmarked hsame.symm ho
  have hread {d' : NodeId} := hr.inSource_eq_some hq.wellFormed hh ho' (p := p) (d := d')
  by_cases himage : d = image
  · exact .inl (hread.2 (.inl ⟨rfl, himage ▸ hin⟩) ▸ rfl)
  by_cases hdiscarded : k.Discarded i image d
  · obtain ⟨e, he, rfl, rfl, rfl⟩ := (inSource_eq_some hq.wellFormed).1 hin
    have hgone := hq.gone_was hr hdiscarded (Leads.live hq.wellFormed ⟨e, he, rfl, rfl⟩).1
    rcases hd.discarded_or_of_src hq.wellFormed he ho hdiscarded with
      hdst | heq | ⟨c, hc, hsrc, hout, hpath⟩
    · exact absurd hdst hstay
    · exact absurd heq himage
    · have hc' := hq.edges hc (hsrc ▸ hi)
      have hpath' : ReflTransGen g.Leads (was c.dst) (was e.src) :=
        hpath.lift was fun _ _ => hq.leads
      rw [hq.old (old_dst hg hc')] at hpath'
      exact .inr ⟨⟨c, hc', hsrc ▸ hq.dequeues hd.kind, hout, hpath'⟩, hgone⟩
  · exact .inl (hread.2 (.inr ⟨hin, hdiscarded⟩) ▸ rfl)

lemma survives (ha : g.Acyclic) (hs : g.Survives k) : g.Survives h := by
  have hq' := hq.replace hg hd hr hh
  have hkept {j : NodeId} (hj : (g.node? j).isSome) (hlive : (h.node? j).isSome) :=
    hq'.kept (old_of_live hj) hlive
  refine ⟨hkept, fun {j o p} ho hlive hin => ?_, fun {j o p d} ho hlive hin => ?_,
    fun {e f} he hf hlive => ?_⟩
  · obtain ⟨s, hn⟩ := op?_eq_some.1 ho
    obtain ⟨o', ho'⟩ := exists_op_of_unmarked (hkept (hn ▸ rfl) hlive).symm ho
    obtain ⟨d, hd⟩ := Option.isSome_iff_exists.1 hin
    exact hq'.inputs ho' hd ▸ rfl
  · obtain ⟨e, he, rfl, -, rfl⟩ := (inSource_eq_some hg).1 hin
    have hlive' := hq.live_of_live hr (old_dst hg he) hlive
    obtain ⟨o', ho'⟩ := exists_op_of_unmarked (hq.kept (old_dst hg he) hlive').symm ho
    rcases hs.read ho hlive' hin with hin' | ⟨hsecondary, hgone⟩
    · obtain ⟨d, hd'⟩ := Option.isSome_iff_exists.1 hin'
      have hwas : was d = e.src := Option.some.inj ((hq.inputs ho' hd').symm.trans hin)
      exact hwas ▸ hq.read_or_secondary hg hd hr hh (old_dst hg he) hlive ho' hd'
    · exact .inr ⟨hsecondary, hq.gone hr (old_src hg he) hgone⟩
  · have hlive' := hq.live_of_live hr (old_dst hg he) hlive
    have hf' := (fact?_eq_of_unmarked (hq.kept (old_dst hg he) hlive')).trans hf
    rcases hs.written he hf hlive' with he' | ⟨hfeeds, hgone⟩
    · exact hq.written_or_alsoFeeds hg hd hr ha he he' hf' hlive
    · exact .inr ⟨hfeeds, hq.gone hr (old_src hg he) hgone⟩

end Queued

/-! ### What is in the way -/

/-- A path leads from the dequeue to another one, or from another one to it. -/
def Linked (g : Graph) (i : NodeId) : Prop :=
  ∃ j, g.IsDequeue j ∧ (TransGen g.Leads i j ∨ TransGen g.Leads j i)

/-- Operations of the list are only gone if they are linked. -/
lemma stepwise_linked : g.Stepwise fun l k => ∀ j ∈ l, k.node? j = none → g.Linked j := by
  refine ⟨fun _ hlinked j hj => hlinked j (List.mem_cons_of_mem _ hj), ?_⟩
  intro i l k was h queue image shape name hq hd hr hh hlinked j hj hgone
  have hi := hq.dequeues hd.kind
  have hold : g.Old j := old_of_live (hq.tail.listed j hj).live
  by_cases hbefore : k.node? j = none
  · exact hlinked j (List.mem_cons_of_mem i hj) hbefore
  have hdiscarded : k.Discarded i image j := by
    by_contra hnot
    have hkept := hr.kept hnot (fun heq => not_old_freshOp hq.next (heq ▸ hold))
      fun heq => not_old_freshData hq.next (heq ▸ hold)
    rw [hgone, Option.map_none, eq_comm, Option.map_eq_none_iff] at hkept
    exact hbefore hkept
  have hpath {a b : NodeId} (ha : g.Old a) (hb : g.Old b) (hab : TransGen k.Leads a b) :
      TransGen g.Leads a b := by
    have hpath := hq.path hab
    rwa [hq.old ha, hq.old hb] at hpath
  rcases hd.linked_of_discarded hq.wellFormed hdiscarded with rfl | hto | hfrom
  · exact absurd hj (List.nodup_cons.1 hq.nodup).1
  · exact ⟨i, hi, .inr (hpath (old_of_live hi.live) hold hto)⟩
  · exact ⟨i, hi, .inl (hpath hold (old_of_live hi.live) hfrom)⟩

/-! ### What a second run finds -/

/-- No dequeue takes the shape of its batches from the first tensor of another one. -/
def Independent (g : Graph) : Prop := ∀ {i j d}, g.IsDequeue i → g.IsDequeue j →
  g.inSource i 0 = some d → g.outTarget j 0 ≠ some d

/-- A queue that was left in place does not get a shape from a replacement. -/
lemma stepwise_idle (hg : g.WellFormed) (hindependent : g.Independent) :
    g.Stepwise fun l k => ∀ j ∉ l, k.LeftInPlace j := by
  refine ⟨fun {i l k} hidle hrest j hj => ?_, ?_⟩
  · by_cases heq : j = i
    · exact heq ▸ hidle
    · exact hrest j (by simp [heq, hj])
  intro i l k was h queue image shape name hq hd hr hh hidle j hj queue' image' shape' hd'
  obtain ⟨hj', hstay, -⟩ := hr.kind?_eq_some hd'.kind (by decide)
  obtain ⟨o, ho, -⟩ := Graph.kind?_eq_some.1 hj'
  have hne : j ≠ i := fun heq => hstay (heq ▸ .dequeue)
  have hport : k.inSource j 0 ≠ some image := by
    intro hin
    have hin' := hq.inputs ho hin
    rw [hq.old (hq.old_image hg hd)] at hin'
    have hi := hq.dequeues hd.kind
    obtain ⟨o', ho', -⟩ := Graph.kind?_eq_some.1 hi
    obtain ⟨e, he, hsrc, hout, hdst⟩ := hd.exists_edge hq.wellFormed
    have he' := hq.edges he (hsrc ▸ old_of_live hi.live)
    exact hindependent (hq.dequeues hj') hi hin'
      ((outTarget_eq_some hg ho').2 ⟨e, he', hsrc, hout, hdst⟩)
  obtain ⟨shape'', hbefore⟩ := hr.dequeues_of hq.wellFormed hh hd' hport
  exact hidle j (by simp [hne, hj]) _ _ _ hbefore

end Graph

open TensorGraph.Graph

variable {g h : Graph} {err : Error}

/-- **What stays keeps its surroundings**: after the pass, an operation that stays reads on exactly
the ports it read on before, but for data that is gone because it depends on an output of a dequeue
other than the first. Data that stays comes from the operation it came from, unless this was removed
because it also wrote an input of a dequeue. -/
theorem replaceQueues_survives (hg : g.WellFormed) (ha : g.Acyclic)
    (hx : Gives Transformation.replaceQueues.apply g () h) : g.Survives h := by
  have hsteps : g.Stepwise fun _ k => g.Survives k :=
    ⟨fun _ hs => hs, fun hq hd hr hh hs => hq.survives hg hd hr hh ha hs⟩
  obtain ⟨was, -, hs⟩ := hsteps.of_gives hg ha (.refl g) hx
  exact hs

/-- The sum of the two tensors of a batch, from a queue whose size is read as well. -/
def summedBatch : Edit Unit := do
  let (queue, handle) ← addOpWithData "queue" ((Operation.ofKind "FIFOQueueV2").withAttribute
    "shapes" (.ints [2, 3]))
  let (batch, images) ← addOpWithData "batch" (.ofKind "QueueDequeueUpToV2")
  discard (addEdge handle batch 0 1)
  let labels ← addData "labels" .unknown
  discard (addEdge batch labels 1 0)
  let y ← wire "y" (.ofKind "Add") [images, labels]
  discard (addResult "out" y)
  let size ← addData "size" .unknown
  discard (addEdge queue size 1 0)
  discard (addResult "left" size)

lemma acyclic_summedBatch : (summedBatch.run ∅).graph.Acyclic := by
  have horder : (summedBatch.run ∅).graph.evalOrder =
      .ok [⟨0⟩, ⟨1⟩, ⟨2⟩, ⟨3⟩, ⟨4⟩, ⟨5⟩, ⟨6⟩, ⟨7⟩, ⟨8⟩, ⟨9⟩] :=
    toOption_eq_some.1 (by decide +kernel)
  exact (Graph.ordered_of_evalOrder horder).acyclic (by decide +kernel)

/-- The sum goes on to read the first tensor, from the input. -/
theorem replaceQueues_survives_summedBatch :
    let g := (summedBatch.run ∅).graph
    let h := (Transformation.replaceQueues.apply.run g).graph
    g.WellFormed ∧ g.Acyclic ∧ Gives Transformation.replaceQueues.apply g () h ∧ g.Survives h ∧
      g.inSource ⟨5⟩ 0 = some ⟨3⟩ ∧ h.inSource ⟨5⟩ 0 = some ⟨11⟩ := by
  intro g h
  have hg : g.WellFormed := by decide +kernel
  have hx : Gives Transformation.replaceQueues.apply g () h :=
    ⟨toOption_eq_some.1 (by decide +kernel), rfl⟩
  exact ⟨hg, acyclic_summedBatch, hx, replaceQueues_survives hg acyclic_summedBatch hx,
    by decide +kernel, by decide +kernel⟩

/-- It does not read the second tensor any more, which goes with the queue, and the size of the
queue is left without the operation that wrote it. -/
theorem replaceQueues_summedBatch :
    let g := (summedBatch.run ∅).graph
    let h := (Transformation.replaceQueues.apply.run g).graph
    g.WellFormed ∧ g.Acyclic ∧ Gives Transformation.replaceQueues.apply g () h ∧
      (g.kind? ⟨5⟩ = some "Add" ∧ h.kind? ⟨5⟩ = some "Add" ∧
        g.inSource ⟨5⟩ 1 = some ⟨4⟩ ∧ h.inSource ⟨5⟩ 1 = none) ∧
      (g.fact? ⟨8⟩).isSome ∧ (h.fact? ⟨8⟩).isSome ∧
        (∃ e ∈ g.edges, e.dst = ⟨8⟩) ∧ ∀ e ∈ h.edges, e.dst ≠ ⟨8⟩ := by
  intro g h
  have hx : Gives Transformation.replaceQueues.apply g () h :=
    ⟨toOption_eq_some.1 (by decide +kernel), rfl⟩
  exact ⟨by decide +kernel, acyclic_summedBatch, hx, by decide +kernel, by decide +kernel⟩

/-- **What is in the way**: in a graph without cycles the pass fails only because the name of new
data is in use, or because it comes to a dequeue that went with another one, to which a path joins
it. -/
theorem error_of_fails_replaceQueues (hg : g.WellFormed) (ha : g.Acyclic)
    (hx : Fails Transformation.replaceQueues.apply g err) :
    (∃ name, err = GraphFault.nameTaken (dataName name 0)) ∨
      ∃ i, err = Reference.node i ∧ g.IsDequeue i ∧ g.Linked i := by
  have hlive {j : NodeId} (hj : j ∈ g.opNodesOf "QueueDequeueUpToV2") : (g.node? j).isSome :=
    IsDequeue.live (mem_opNodesOf.1 hj)
  obtain ⟨i, l, k, was, hq, hlinked, hfails⟩ := stepwise_linked.of_fails hg ha
    (fun j hj hgone => absurd hgone (Option.isSome_iff_ne_none.1 (hlive hj))) hx
  rcases hq.step ha with ⟨hgone, hfails'⟩ | ⟨name, hfails'⟩ | ⟨-, hgives⟩ |
    ⟨_, _, _, _, _, -, -, -, hgives⟩
  · have hi : i ∈ i :: l := List.mem_cons_self ..
    exact .inr ⟨i, hfails.unique hfails', hq.listed i hi, hlinked i hi hgone⟩
  · exact .inl ⟨name, hfails.unique hfails'⟩
  · exact absurd hfails hgives.not_fails
  · exact absurd hfails hgives.not_fails

/-- A dequeue of which another one reads the second tensor. -/
def chainedBatches : Edit Unit := do
  let (_, handle) ← addOpWithData "queue" ((Operation.ofKind "FIFOQueueV2").withAttribute "shapes"
    (.ints [2, 3]))
  let (batch, images) ← addOpWithData "deq" (.ofKind "QueueDequeueUpToV2")
  discard (addEdge handle batch 0 1)
  let labels ← addData "labels" .unknown
  discard (addEdge batch labels 1 0)
  discard (wire "second" (.ofKind "QueueDequeueUpToV2") [labels])
  let y ← wire "image" (.ofKind "Relu") [images]
  discard (addResult "out" y)

/-- The second one is gone with the labels when the pass comes to it. -/
theorem error_of_fails_replaceQueues_chainedBatches :
    let g := (chainedBatches.run ∅).graph
    g.WellFormed ∧ g.Acyclic ∧ Fails Transformation.replaceQueues.apply g (Reference.node ⟨5⟩) ∧
      g.Linked ⟨5⟩ := by
  intro g
  have hg : g.WellFormed := by decide +kernel
  have horder : g.evalOrder =
      .ok [⟨0⟩, ⟨1⟩, ⟨2⟩, ⟨4⟩, ⟨5⟩, ⟨6⟩, ⟨3⟩, ⟨7⟩, ⟨8⟩, ⟨9⟩] :=
        toOption_eq_some.1 (by decide +kernel)
  have ha : g.Acyclic := (Graph.ordered_of_evalOrder horder).acyclic hg
  have hx : Fails Transformation.replaceQueues.apply g (Reference.node ⟨5⟩) := by
    show (Edit.run _ _).result = .error _
    decide +kernel
  refine ⟨hg, ha, hx, ?_⟩
  rcases error_of_fails_replaceQueues hg ha hx with ⟨name, heq⟩ | ⟨i, heq, -, hlinked⟩
  · cases heq
  · cases heq
    exact hlinked

/-- **A second run does nothing** in a graph without cycles where no dequeue takes the shape of its
batches from another one. -/
theorem replaceQueues_idempotent (hg : g.WellFormed) (ha : g.Acyclic) (hindependent : g.Independent)
    (hx : Gives Transformation.replaceQueues.apply g () h) :
    Gives Transformation.replaceQueues.apply h () h := by
  have hlisted : ∀ j ∉ g.opNodesOf "QueueDequeueUpToV2", g.LeftInPlace j :=
    fun j hj queue image shape hd => hj (mem_opNodesOf.2 hd.kind)
  obtain ⟨was, hq, hidle⟩ := (stepwise_idle hg hindependent).of_gives hg ha hlisted hx
  exact gives_replaceQueues_of_idle hq.wellFormed fun i => hidle i List.not_mem_nil

/-- A dequeue that takes the shape of its batches from the first tensor of another one, and comes
before it. -/
def lentShape : Edit Unit := do
  let (second, images) ← addOpWithData "second" (.ofKind "QueueDequeueUpToV2")
  let (_, later) ← addOpWithData "later" (.ofKind "FIFOQueueV2")
  discard (addEdge later second 0 1)
  let (first, lent) ← addOpWithData "first" (.ofKind "QueueDequeueUpToV2")
  let (_, handle) ← addOpWithData "queue" ((Operation.ofKind "FIFOQueueV2").withAttribute "shapes"
    (.ints [2, 3]))
  discard (addEdge handle first 0 1)
  discard (addEdge lent second 0 0)
  let y ← wire "image" (.ofKind "Relu") [images]
  discard (addResult "out" y)

/-- The first run leaves its queue in place, and the second one knows the shape. -/
theorem replaceQueues_lentShape :
    let g := (lentShape.run ∅).graph
    let h := (Transformation.replaceQueues.apply.run g).graph
    ¬ g.Independent ∧ Gives Transformation.replaceQueues.apply g () h ∧
      h.kind? ⟨2⟩ = some "FIFOQueueV2" ∧
      (Transformation.replaceQueues.apply.run h).graph.kind? ⟨2⟩ = none := by
  intro g h
  have hport : g.IsDequeue ⟨0⟩ ∧ g.IsDequeue ⟨4⟩ ∧ g.inSource ⟨0⟩ 0 = some ⟨5⟩ ∧
      g.outTarget ⟨4⟩ 0 = some ⟨5⟩ := by
    unfold Graph.IsDequeue
    decide +kernel
  have hx : Gives Transformation.replaceQueues.apply g () h :=
    ⟨toOption_eq_some.1 (by decide +kernel), rfl⟩
  exact ⟨fun hindependent => hindependent hport.1 hport.2.1 hport.2.2.1 hport.2.2.2, hx,
    by decide +kernel, by decide +kernel⟩

end TensorGraph
