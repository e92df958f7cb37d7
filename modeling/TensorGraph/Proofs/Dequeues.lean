import Mathlib.Data.List.Perm.Subperm
import TensorGraph.Proofs.Sites
import TensorGraph.Proofs.Reach
import TensorGraph.Transformation.InputQueues

/-!
Queues that batches are taken out of.

`Graph.Dequeues` says that an operation takes batches out of a queue, which tensor of a batch is the
first one and what shape it has. `Graph.Discarded` are the nodes that go with such a queue: what
depends on the other tensors only, and the inputs that nothing else reads with what they come from.
In a graph without cycles nothing that depends on the first tensor is among them.
-/

namespace TensorGraph

open Relation

namespace Graph

variable {g : Graph} {dequeue queue image j op kept : NodeId} {starts : List NodeId}
  {shape : Shape} {o : Operation} {e : Edge} {kind : String}

/-! ### What takes batches out of a queue -/

/-- The operation takes batches out of a queue. -/
def IsDequeue (g : Graph) (i : NodeId) : Prop := g.kind? i = some "QueueDequeueUpToV2"

/-- What the operation behind input port 0 declares, if it has two dimensions or more. -/
def declaredShape? (g : Graph) (dequeue : NodeId) : Option Shape :=
  ((g.origin? dequeue 0).bind fun p =>
    ((g.attributes? p).bind (·.find? "shape")).bind (·.toInts?)).filter (1 < ·.length)

/-- The shape of the first tensor in the batches of a queue. -/
def queueShape? (g : Graph) (queue : NodeId) : Option Shape :=
  ((g.attributes? queue).bind (·.find? "shapes")).bind firstShape

/-- The shape of the first tensor of a batch: what is declared, or else what the queue gives. -/
def batchShape? (g : Graph) (dequeue queue : NodeId) : Option Shape :=
  (g.declaredShape? dequeue).or (g.queueShape? queue)

/-- `dequeue` takes batches out of `queue`, whose first tensor `image` is known to have a shape. -/
structure Dequeues (g : Graph) (dequeue queue image : NodeId) (shape : Shape) : Prop where
  kind : g.kind? dequeue = some "QueueDequeueUpToV2"
  origin : g.origin? dequeue 1 = some queue
  queueKind : g.kind? queue = some "FIFOQueueV2"
  image : g.outTarget dequeue 0 = some image
  shape : g.batchShape? dequeue queue = some shape

/-- A queue is left in place if it is not known, or the shape of its first tensor is not. -/
def LeftInPlace (g : Graph) (i : NodeId) : Prop :=
  ∀ queue image shape, ¬ g.Dequeues i queue image shape

/-- The operation behind an edge writes another output too, and that is an input of a dequeue. -/
def AlsoFeeds (g : Graph) (e : Edge) : Prop :=
  ∃ c ∈ g.edges, c.src = e.src ∧ c ≠ e ∧ ∃ r ∈ g.edges, r.src = c.dst ∧ g.IsDequeue r.dst

lemma declaredShape_eq (hg : g.WellFormed) (hdequeue : g.kind? dequeue = some kind) :
    g.declaredShape dequeue 0 = .ok (g.declaredShape? dequeue) := by
  unfold declaredShape declaredShape?
  rw [producerOp_eq hg hdequeue, ok_bind]
  rcases hp : g.origin? dequeue 0 with _ | p
  · rfl
  · obtain ⟨kind', hkind'⟩ := exists_kind_of_origin hg hdequeue hp
    obtain ⟨o', ho', -⟩ := kind?_eq_some.1 hkind'
    simp only [operation_eq_ok.2 ho', ok_bind, Option.bind_some, attributes?_of_op? ho']
    rfl

lemma dequeuedShape_eq (hg : g.WellFormed) (hdequeue : g.kind? dequeue = some kind)
    (hqueue : g.op? queue = some o) :
    g.dequeuedShape dequeue queue = .ok (g.batchShape? dequeue queue) := by
  unfold dequeuedShape batchShape? queueShape?
  rw [operation_eq_ok.2 hqueue, ok_bind, declaredShape_eq hg hdequeue, attributes?_of_op? hqueue]
  rfl

/-- One of the two shapes is enough. -/
lemma isSome_batchShape? : (g.batchShape? dequeue queue).isSome ↔
    (g.declaredShape? dequeue).isSome ∨ (g.queueShape? queue).isSome := by
  simp [batchShape?]

/-! ### What goes with a queue -/

/-- The nodes that go when a dequeue is replaced by an input of the model. -/
inductive Discarded (g : Graph) (dequeue image : NodeId) : NodeId → Prop
  | dequeue : Discarded g dequeue image dequeue
  | image : Discarded g dequeue image image
  /-- What depends on another output and not on the first tensor. -/
  | dependent {e : Edge} {j : NodeId} : e ∈ g.edges → e.src = dequeue → e.dst ≠ image →
      ReflTransGen g.Leads e.dst j → ¬ ReflTransGen g.Leads image j → Discarded g dequeue image j
  /-- An input that nothing else reads. -/
  | input {e : Edge} : e ∈ g.edges → e.dst = dequeue → (∀ c ∈ g.edges, c.src = e.src → c = e) →
      Discarded g dequeue image e.src
  /-- What such an input comes from. -/
  | producer {e c : Edge} : e ∈ g.edges → e.dst = dequeue →
      (∀ c ∈ g.edges, c.src = e.src → c = e) → c ∈ g.edges → c.dst = e.src →
      Discarded g dequeue image c.src

lemma mem_descendants (hg : g.WellFormed) : j ∈ g.descendants starts ↔
    ∃ i ∈ starts, (g.node? i).isSome ∧ ReflTransGen g.Leads i j := by
  have hleads {i j : NodeId} : j ∈ g.targets i ↔ g.Leads i j := mem_targets
  rw [descendants, mem_closure]
  constructor
  · intro h
    induction h with
    | start hi hlive => exact ⟨_, hi, hlive, .refl⟩
    | step _ hj _ ih =>
      obtain ⟨i, hi, hlive, hpath⟩ := ih
      exact ⟨i, hi, hlive, hpath.tail (hleads.1 hj)⟩
  · rintro ⟨i, hi, hlive, hpath⟩
    induction hpath with
    | refl => exact .start hi hlive
    | tail _ hstep ih => exact .step ih (hleads.2 hstep) (hstep.live hg).2

lemma mem_dependents (hg : g.WellFormed) (hkept : (g.node? kept).isSome) :
    j ∈ g.dependents op kept ↔
      (∃ e ∈ g.edges, e.src = op ∧ e.dst ≠ kept ∧ ReflTransGen g.Leads e.dst j) ∧
        ¬ ReflTransGen g.Leads kept j := by
  have hkeep : j ∈ g.descendants [kept] ↔ ReflTransGen g.Leads kept j := by
    simp [mem_descendants hg, hkept]
  have hdrop : j ∈ g.descendants ((g.targets op).filter (· ≠ kept)) ↔
      ∃ e ∈ g.edges, e.src = op ∧ e.dst ≠ kept ∧ ReflTransGen g.Leads e.dst j := by
    rw [mem_descendants hg]
    constructor
    · rintro ⟨i, hi, -, hpath⟩
      obtain ⟨htarget, hne⟩ := List.mem_filter.1 hi
      obtain ⟨e, he, hsrc, rfl⟩ := mem_targets.1 htarget
      exact ⟨e, he, hsrc, by simpa using hne, hpath⟩
    · rintro ⟨e, he, hsrc, hne, hpath⟩
      obtain ⟨-, d, -, hd, -⟩ := hg.ends he
      exact ⟨e.dst, List.mem_filter.2 ⟨mem_targets.2 ⟨e, he, hsrc, rfl⟩, by simpa using hne⟩,
        hd ▸ rfl, hpath⟩
  have hlive (h : j ∈ g.descendants ((g.targets op).filter (· ≠ kept))) : j ∈ g.nodeIds := by
    obtain ⟨i, -, hi, hpath⟩ := (mem_descendants hg).1 h
    rcases ReflTransGen.cases_tail hpath with rfl | ⟨k, -, hstep⟩
    · exact mem_nodeIds.2 hi
    · exact mem_nodeIds.2 (hstep.live hg).2
  unfold dependents
  simp only [List.mem_filter, Bool.and_eq_true, decide_eq_true_eq]
  rw [hkeep]
  exact ⟨fun h => ⟨hdrop.1 h.2.1, h.2.2⟩, fun h => ⟨hlive (hdrop.2 h.1), hdrop.2 h.1, h.2⟩⟩

lemma length_outgoing_eq_one (he : e ∈ g.edges) :
    (g.outgoing e.src).length = 1 ↔ ∀ c ∈ g.edges, c.src = e.src → c = e := by
  have hmem : e ∈ g.outgoing e.src := mem_outgoing.2 ⟨he, rfl⟩
  constructor
  · intro hlength c hc hsrc
    obtain ⟨a, ha⟩ := List.length_eq_one_iff.1 hlength
    have hc' : c ∈ g.outgoing e.src := mem_outgoing.2 ⟨hc, hsrc⟩
    rw [ha, List.mem_singleton] at hmem hc'
    rw [hc', hmem]
  · intro hsole
    have hsub : g.outgoing e.src ⊆ [e] := fun c hc => by
      obtain ⟨hc, hsrc⟩ := mem_outgoing.1 hc
      exact List.mem_singleton.2 (hsole c hc hsrc)
    have hle := (List.subperm_of_subset (g.nodup_outgoing e.src) hsub).length_le
    have hpos := List.length_pos_of_mem hmem
    simp only [List.length_singleton] at hle
    omega

/-- A data node with what it comes from, if one edge leaves it. -/
def ownInput (g : Graph) (d : NodeId) : List NodeId :=
  if (g.outgoing d).length = 1 then d :: ((g.incoming d).head?.map (·.src)).toList else []

lemma mem_ownInput (hg : g.WellFormed) (he : e ∈ g.edges) {f : Fact}
    (hf : g.fact? e.src = some f) : j ∈ g.ownInput e.src ↔
      (∀ c ∈ g.edges, c.src = e.src → c = e) ∧
        (j = e.src ∨ ∃ c ∈ g.edges, c.dst = e.src ∧ c.src = j) := by
  have hproducer : ((g.incoming e.src).head?.map (·.src)) = some j ↔
      ∃ c ∈ g.edges, c.dst = e.src ∧ c.src = j := by
    rw [head?_incoming_eq_some hg hf]
    exact exists_congr fun c => and_congr_right fun _ => and_comm
  rw [ownInput, ← length_outgoing_eq_one he]
  split
  · next hone => simp only [List.mem_cons, Option.mem_toList, hproducer, hone, true_and]
  · next hmany => simp [hmany]

lemma ownInputs_eq (hg : g.WellFormed) (ho : g.op? op = some o) :
    g.ownInputs op = .ok ((g.sources op).flatMap g.ownInput) := by
  have hinputs : g.inputs op = .ok (g.sources op) := by
    obtain ⟨n, hn⟩ := node_ok_of_op? ho
    rw [inputs, inEdges_eq, hn]
    rfl
  unfold ownInputs
  rw [hinputs, ok_bind, mapM_eq_ok (u := g.ownInput) fun d hd => ?_]
  · rfl
  · obtain ⟨e, he, hdst, rfl⟩ := mem_sources.1 hd
    obtain ⟨f, hf⟩ := ends_of_op_dst hg he (hdst ▸ ho)
    simp only [consumers_eq hf, producer_eq hf, ok_bind, ownInput]
    split <;> rfl

/-- The nodes that are removed, one of them twice if it is there for two reasons. -/
def discards (g : Graph) (dequeue image : NodeId) : List NodeId :=
  g.dependents dequeue image ++ (g.sources dequeue).flatMap g.ownInput ++ [image, dequeue]

/-- What is removed is what goes with the queue. -/
lemma mem_discards (hg : g.WellFormed) (ho : g.op? dequeue = some o)
    (himage : (g.node? image).isSome) :
    j ∈ g.discards dequeue image ↔ g.Discarded dequeue image j := by
  have hown : j ∈ (g.sources dequeue).flatMap g.ownInput ↔ ∃ e ∈ g.edges, e.dst = dequeue ∧
      (∀ c ∈ g.edges, c.src = e.src → c = e) ∧
        (j = e.src ∨ ∃ c ∈ g.edges, c.dst = e.src ∧ c.src = j) := by
    rw [List.mem_flatMap]
    constructor
    · rintro ⟨d, hd, hj⟩
      obtain ⟨e, he, hdst, rfl⟩ := mem_sources.1 hd
      obtain ⟨f, hf⟩ := ends_of_op_dst hg he (hdst ▸ ho)
      exact ⟨e, he, hdst, (mem_ownInput hg he hf).1 hj⟩
    · rintro ⟨e, he, hdst, hj⟩
      obtain ⟨f, hf⟩ := ends_of_op_dst hg he (hdst ▸ ho)
      exact ⟨e.src, mem_sources.2 ⟨e, he, hdst, rfl⟩, (mem_ownInput hg he hf).2 hj⟩
  simp only [discards, List.mem_append, List.mem_cons, List.not_mem_nil, or_false, hown,
    mem_dependents hg himage]
  constructor
  · rintro ((⟨⟨e, he, hsrc, hne, hpath⟩, hnot⟩ | ⟨e, he, hdst, hsole, rfl | ⟨c, hc, hcdst, rfl⟩⟩) |
      rfl | rfl)
    · exact .dependent he hsrc hne hpath hnot
    · exact .input he hdst hsole
    · exact .producer he hdst hsole hc hcdst
    · exact .image
    · exact .dequeue
  · rintro (_ | _ | ⟨he, hsrc, hne, hpath, hnot⟩ | ⟨he, hdst, hsole⟩ | ⟨he, hdst, hsole, hc, hcdst⟩)
    · exact .inr (.inr rfl)
    · exact .inr (.inl rfl)
    · exact .inl (.inl ⟨⟨_, he, hsrc, hne, hpath⟩, hnot⟩)
    · exact .inl (.inr ⟨_, he, hdst, hsole, .inl rfl⟩)
    · exact .inl (.inr ⟨_, he, hdst, hsole, .inr ⟨_, hc, hcdst, rfl⟩⟩)

namespace Dequeues

variable (hd : g.Dequeues dequeue queue image shape) (hg : g.WellFormed)

include hd hg

lemma exists_edge : ∃ e ∈ g.edges, e.src = dequeue ∧ e.out = 0 ∧ e.dst = image := by
  obtain ⟨o, ho, -⟩ := kind?_eq_some.1 hd.kind
  exact (outTarget_eq_some hg ho).1 hd.image

lemma exists_fact : ∃ f, g.fact? image = some f := by
  obtain ⟨o, ho, -⟩ := kind?_eq_some.1 hd.kind
  exact exists_fact_of_outTarget hg ho hd.image

/-- Nothing that depends on the first tensor leads back to where it is taken out. -/
lemma not_leads_back (ha : g.Acyclic) (hj : ReflTransGen g.Leads image j) :
    ¬ ReflTransGen g.Leads j dequeue := by
  intro hback
  obtain ⟨e, he, hsrc, -, hdst⟩ := hd.exists_edge hg
  exact ha dequeue (TransGen.head' ⟨e, he, hsrc, hdst⟩ (hj.trans hback))

/-- What depends on the first tensor is not discarded, but for the tensor itself. -/
lemma not_discarded (ha : g.Acyclic) (hj : ReflTransGen g.Leads image j) (hne : j ≠ image) :
    ¬ g.Discarded dequeue image j := by
  have hback := hd.not_leads_back hg ha hj
  rintro (_ | _ | ⟨-, -, -, -, hnot⟩ | ⟨he, hdst, -⟩ | ⟨he, hdst, -, hc, hcdst⟩)
  · exact hback .refl
  · exact hne rfl
  · exact hnot hj
  · exact hback (.single ⟨_, he, rfl, hdst⟩)
  · exact hback (.head ⟨_, hc, rfl, hcdst⟩ (.single ⟨_, he, rfl, hdst⟩))

/-- What goes with a dequeue depends on it, or leads to it. -/
lemma linked_of_discarded (hj : g.Discarded dequeue image j) :
    j = dequeue ∨ TransGen g.Leads dequeue j ∨ TransGen g.Leads j dequeue := by
  cases hj with
  | dequeue => exact .inl rfl
  | image =>
    obtain ⟨e, he, hsrc, -, hdst⟩ := hd.exists_edge hg
    exact .inr (.inl (.single ⟨e, he, hsrc, hdst⟩))
  | dependent he hsrc _ hpath _ => exact .inr (.inl (.head' ⟨_, he, hsrc, rfl⟩ hpath))
  | input he hdst _ => exact .inr (.inr (.single ⟨_, he, rfl, hdst⟩))
  | producer he hdst _ hc hcdst =>
    exact .inr (.inr (.head ⟨_, hc, rfl, hcdst⟩ (.single ⟨_, he, rfl, hdst⟩)))

/-- What is left reads data that goes only where this is the first tensor, or depends on another
output. -/
lemma discarded_or_of_src (he : e ∈ g.edges) (ho : g.op? e.dst = some o)
    (hgone : g.Discarded dequeue image e.src) : g.Discarded dequeue image e.dst ∨ e.src = image ∨
      ∃ c ∈ g.edges, c.src = dequeue ∧ c.out ≠ 0 ∧ ReflTransGen g.Leads c.dst e.src := by
  obtain ⟨f, hf⟩ := ends_of_op_dst hg he ho
  have hdata {o' : Operation} : g.op? e.src ≠ some o' := by
    simp [op?_eq_none_of_fact hf]
  generalize hsrc : e.src = d at hgone hdata
  cases hgone with
  | dequeue =>
    obtain ⟨o', ho', -⟩ := kind?_eq_some.1 hd.kind
    exact absurd ho' hdata
  | image => exact .inr (.inl rfl)
  | dependent hc hcsrc hne hpath _ =>
    refine .inr (.inr ⟨_, hc, hcsrc, fun hout => hne ?_, hpath⟩)
    obtain ⟨o', ho', -⟩ := kind?_eq_some.1 hd.kind
    have htarget := (outTarget_eq_some hg ho').2 ⟨_, hc, hcsrc, hout, rfl⟩
    exact Option.some.inj (htarget.symm.trans hd.image)
  | input hc hcdst hsole =>
    obtain rfl := hsole e he hsrc
    exact .inl (hcdst ▸ .dequeue)
  | producer hr hrdst _ hc hcdst =>
    obtain ⟨q, hq, -⟩ := kind?_eq_some.1 hd.kind
    obtain ⟨f', hf'⟩ := ends_of_op_dst hg hr (hrdst ▸ hq)
    obtain ⟨o', ho'⟩ := ends_of_fact_dst hg hc (hcdst ▸ hf')
    exact absurd ho' hdata

/-- The data that an operation has written goes with the operation, unless this was removed for
another output of it. -/
lemma discarded_of_src (ha : g.Acyclic) (he : e ∈ g.edges) {f : Fact} (hf : g.fact? e.dst = some f)
    (hgone : g.Discarded dequeue image e.src) :
    g.Discarded dequeue image e.dst ∨ g.AlsoFeeds e := by
  obtain ⟨o, ho⟩ := ends_of_fact_dst hg he hf
  by_cases himage : e.dst = image
  · exact .inl (himage ▸ .image)
  -- a path to the data comes from the operation
  have hback {i : NodeId} (hpath : ReflTransGen g.Leads i e.dst) (hne : e.dst ≠ i) :
      ReflTransGen g.Leads i e.src := by
    rcases ReflTransGen.cases_tail hpath with heq | ⟨j, hpath, c, hc, rfl, hcdst⟩
    · exact absurd heq hne
    · rwa [eq_of_dst_eq hg he hc hcdst.symm hf]
  have hstep : ReflTransGen g.Leads e.src e.dst := .single ⟨e, he, rfl, rfl⟩
  have hop {f' : Fact} : g.fact? e.src ≠ some f' := by
    simp [fact?_eq_none_of_op ho]
  generalize hsrc : e.src = i at hgone hstep hop hback
  cases hgone with
  | dequeue =>
    exact .inl (.dependent he hsrc himage .refl fun hpath =>
      hd.not_leads_back hg ha (hback hpath himage) .refl)
  | image =>
    obtain ⟨f', hf'⟩ := hd.exists_fact hg
    exact absurd hf' hop
  | dependent hc hcsrc hne hpath hnot =>
    exact .inl (.dependent hc hcsrc hne (hpath.trans hstep) fun hpath => hnot (hback hpath himage))
  | input hc hcdst _ =>
    obtain ⟨q, hq, -⟩ := kind?_eq_some.1 hd.kind
    obtain ⟨f', hf'⟩ := ends_of_op_dst hg hc (hcdst ▸ hq)
    exact absurd hf' hop
  | @producer r c hr hrdst hsole hc hcdst =>
    by_cases heq : c = e
    · exact .inl (heq ▸ hcdst ▸ .input hr hrdst hsole)
    · exact .inr ⟨_, hc, hsrc.symm, heq, _, hr, hcdst.symm, hrdst ▸ hd.kind⟩

end Dequeues

end Graph

end TensorGraph
