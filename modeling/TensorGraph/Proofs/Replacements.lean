import TensorGraph.Proofs.Dequeues
import TensorGraph.Proofs.Forwarding
import TensorGraph.Proofs.Names
import TensorGraph.Proofs.Owned

/-!
Replacing one queue by an input of the model.

What goes with the queue is removed node by node, whatever is gone already. A new operation with a
data node of the shape of the first tensor takes the place of that tensor: it is read on the same
ports (`Graph.Replaced`). In a graph without cycles this succeeds unless the name of the new data is
in use (`exists_gives_replaceQueue`).
-/

namespace TensorGraph

open Edit Relation

namespace Edit

variable {g h k : Graph} {id d : NodeId} {l : List NodeId} {name : String} {o : Operation}

/-! ### Removing what goes -/

lemma next_of_removeNode {u : Unit} (hx : Gives (removeNode id true) g u h) :
    h.nodes.next = g.nodes.next := by
  unfold removeNode at hx
  simp only [gives_bind, gives_current, gives_lift, gives_change] at hx
  obtain ⟨_, _, ⟨rfl, rfl⟩, n, _, ⟨-, rfl⟩, _, _, ⟨-, rfl⟩, _, k, hedges, rfl⟩ := hx
  obtain ⟨hnodes, -⟩ := gives_removeEdges hedges
  show (k.eraseNode id).nodes.next = _
  rw [Graph.nodes_eraseNode, Slots.next_erase, hnodes]

/-- A node that is there is removed, one that is gone is passed over. -/
lemma exists_gives_removeLive (hg : g.WellFormed) (id : NodeId) :
    ∃ k, Gives (removeLive id) g () k ∧ g.Without k [id] ∧ k.nodes.next = g.nodes.next := by
  unfold removeLive
  simp only [gives_bind, gives_current]
  rcases hn : g.node? id with _ | n
  · refine ⟨g, ⟨g, g, ⟨rfl, rfl⟩, by simp [hn]⟩, ⟨fun j => ?_, fun e => ?_⟩, rfl⟩
    · by_cases hj : j = id <;> simp [hj, hn]
    · refine ⟨fun he => ⟨he, ?_⟩, And.left⟩
      obtain ⟨s, d, hs, hd, -⟩ := hg.ends he
      constructor <;> intro hmem <;> obtain rfl := List.mem_singleton.1 hmem
      · cases hn.symm.trans hs
      · cases hn.symm.trans hd
  · obtain ⟨k, hk⟩ := exists_gives_removeNode hg hn
    exact ⟨k, ⟨g, g, ⟨rfl, rfl⟩, by simpa [hn] using hk⟩, gives_removeNode hk,
      next_of_removeNode hk⟩

lemma exists_gives_removeLives (hg : g.WellFormed) (l : List NodeId) :
    ∃ k, Gives (l.forM removeLive) g () k ∧ g.Without k l ∧ k.nodes.next = g.nodes.next := by
  induction l generalizing g with
  | nil => exact ⟨g, ⟨rfl, rfl⟩, .refl g, rfl⟩
  | cons id l ih =>
    obtain ⟨k, hk, hfirst, hnext⟩ := exists_gives_removeLive hg id
    have hkw : k.WellFormed :=
      hk.keeps ((structural_removeLive id).keeps invariant_wellFormed.shaped) hg
    obtain ⟨h, hh, hrest, hnext'⟩ := ih hkw
    exact ⟨h, gives_bind.2 ⟨(), k, hk, hh⟩, hfirst.trans hrest, hnext'.trans hnext⟩

end Edit

namespace Graph

variable {g h k : Graph} {d : NodeId} {l : List Edge} {name : String} {shape : Shape}

/-! ### Adding an input of the model -/

/-- The operation that is an input of the model of a given shape. -/
def inputOf (shape : Shape) : Operation :=
  (Operation.ofKind "Parameter").withAttribute "shape" (.ints shape)

/-- `h` is `g` with an input `a` of the model and its data `d`. -/
structure WithInput (g h : Graph) (a d : NodeId) (name : String) (shape : Shape) : Prop where
  next : h.nodes.next = g.nodes.next + 2
  op : h.node? a = some ⟨name, .op (inputOf shape)⟩
  data : h.node? d = some ⟨dataName name 0, .data (.ofShape shape)⟩
  others : ∀ {j}, j ≠ a → j ≠ d → h.node? j = g.node? j
  edges : ∃ i, ∀ e, e ∈ h.edges ↔
    e ∈ g.edges ∨ e = { src := a, dst := d, out := 0, inp := 0, id := i }

/-- Nothing is at a number without a node. -/
lemma WellFormed.apart_of_none (hg : g.WellFormed) {i : NodeId} (hi : g.node? i = none) {e : Edge}
    (he : e ∈ g.edges) : e.src ≠ i ∧ e.dst ≠ i := by
  obtain ⟨s, d, hs, hd, -⟩ := hg.ends he
  constructor <;> rintro rfl
  · cases hi.symm.trans hs
  · cases hi.symm.trans hd

end Graph

namespace Edit

variable {g h k : Graph} {d : NodeId} {l : List Edge} {name : String} {shape : Shape}
  {o : Operation}

lemma fails_addNode (hname : g.contains name = true) (c : Content) :
    Fails (addNode name c) g (GraphFault.nameTaken name) := by
  unfold addNode
  simp only [fails_bind, fails_current, gives_current, false_or]
  exact ⟨g, g, ⟨rfl, rfl⟩, by rw [dif_neg (by simp [hname])]; rfl⟩

lemma dataName_zero_ne (name : String) : dataName name 0 ≠ name := append_ne_self (by decide)

/-- Both names have to be free. -/
lemma exists_gives_addOpWithData (hg : g.WellFormed) (hname : g.contains name = false)
    (hdata : g.contains (dataName name 0) = false) (o : Operation) :
    ∃ h, Gives (addOpWithData name o) g (g.freshOp, g.freshData) h := by
  let g₁ : Graph := { g.pushNode ⟨name, .op o⟩ hname with revision := g.revision + 1 }
  have hop : Gives (addOp name o) g g.freshOp g₁ := gives_addNode.2 ⟨hname, rfl, rfl⟩
  have hnode₁ {j : NodeId} {n : Node} : g₁.node? j = some n ↔
      j = g.freshOp ∧ n = ⟨name, .op o⟩ ∨ g.node? j = some n := Graph.node?_pushNode_eq_some hname
  have hfree₁ : g₁.contains (dataName name 0) = false := by
    refine Graph.contains_eq_false.2 fun j n hn => ?_
    rcases hnode₁.1 hn with ⟨-, rfl⟩ | hn
    · exact (dataName_zero_ne name).symm
    · exact Graph.contains_eq_false.1 hdata j n hn
  have hid : g.freshData = ⟨g₁.nodes.next⟩ := congrArg NodeId.mk
    ((congrArg Slots.next (Graph.nodes_pushNode hname)).trans (Slots.next_push ..)).symm
  let g₂ : Graph :=
    { g₁.pushNode ⟨dataName name 0, .data .unknown⟩ hfree₁ with revision := g₁.revision + 1 }
  have hdata : Gives (addData (dataName name 0) .unknown) g₁ g.freshData g₂ :=
    gives_addNode.2 ⟨hfree₁, hid, rfl⟩
  have hnode₂ {j : NodeId} {n : Node} : g₂.node? j = some n ↔
      j = g.freshData ∧ n = ⟨dataName name 0, .data .unknown⟩ ∨ g₁.node? j = some n := by
    rw [hid]
    exact Graph.node?_pushNode_eq_some hfree₁
  have hopnode := hnode₂.2 (.inr (hnode₁.2 (.inl ⟨rfl, rfl⟩)))
  have hdatanode := hnode₂.2 (.inl ⟨rfl, rfl⟩)
  -- there are no edges at the new nodes yet
  have hjoin : Joinable g₂ g.freshOp g.freshData 0 0 ⟨name, .op o⟩
      ⟨dataName name 0, .data .unknown⟩ := by
    refine .inl ⟨rfl, rfl, List.eq_nil_iff_forall_not_mem.2 fun e he => ?_, rfl, fun e he => ?_⟩
    · have hmem := Graph.mem_incoming.1 he
      exact absurd hmem.2 (hg.apart_of_none g.node?_freshData hmem.1).2
    · have hmem := Graph.mem_outgoing.1 he
      exact absurd hmem.2 (hg.apart_of_none g.node?_freshOp hmem.1).1
  have hedge := gives_addEdge.2 ⟨⟨_, _, hopnode, hdatanode, hjoin⟩, rfl,
    Option.isSome_of_eq_some hopnode, Option.isSome_of_eq_some hdatanode, rfl⟩
  exact ⟨_, gives_bind.2 ⟨_, g₁, hop, gives_bind.2 ⟨_, g₂, hdata, gives_bind.2 ⟨_, _, hedge,
    gives_pure.2 ⟨rfl, rfl⟩⟩⟩⟩⟩

/-- The operation was added when the name of its data is found to be in use. -/
lemma fails_addOpWithData (hname : g.contains name = false)
    (hdata : g.contains (dataName name 0) = true) (o : Operation) :
    Fails (addOpWithData name o) g (GraphFault.nameTaken (dataName name 0)) := by
  let g₁ : Graph := { g.pushNode ⟨name, .op o⟩ hname with revision := g.revision + 1 }
  have hop : Gives (addOp name o) g g.freshOp g₁ := gives_addNode.2 ⟨hname, rfl, rfl⟩
  have htaken : g₁.contains (dataName name 0) = true := by
    obtain ⟨j, n, hn, hused⟩ := Graph.contains_eq_true.1 hdata
    exact Graph.contains_eq_true.2 ⟨j, n, Graph.node?_pushNode_of_some hname hn, hused⟩
  exact fails_bind.2 (.inr ⟨_, g₁, hop, fails_bind.2 (.inl (fails_addNode htaken _))⟩)

lemma exists_gives_addInput (hg : g.WellFormed) (hname : g.contains name = false)
    (hdata : g.contains (dataName name 0) = false) (shape : Shape) :
    ∃ k h, Gives (addOpWithData name (Graph.inputOf shape)) g (g.freshOp, g.freshData) k ∧
      Gives (modifyFact g.freshData fun _ => .ofShape shape) k () h ∧
      g.WithInput h g.freshOp g.freshData name shape := by
  obtain ⟨k, hk⟩ := exists_gives_addOpWithData hg hname hdata (Graph.inputOf shape)
  obtain ⟨-, hnodes, hlinks⟩ := gives_addOpWithData hk
  have hnode := Graph.node?_of_push hnodes
  have hne := g.freshOp_ne_freshData
  have hfact : k.fact? g.freshData = some .unknown := by
    rw [Graph.fact?, hnode, if_pos rfl]
    rfl
  refine ⟨k, _, hk, gives_modifyFact hfact _, ⟨?_, ?_, ?_, fun {j} hop hdata => ?_,
    ⟨⟨g.links.next⟩, fun e => ?_⟩⟩⟩
  · show (k.modifyFact _ _).nodes.next = _
    rw [Graph.nodes_modifyFact, Slots.next_modify, hnodes, Slots.next_push, Slots.next_push]
  · exact (Graph.node?_modifyFact ..).trans (by rw [if_neg hne, hnode, if_neg hne, if_pos rfl])
  · exact (Graph.node?_modifyFact ..).trans (by rw [if_pos rfl, hnode, if_pos rfl]; rfl)
  · exact (Graph.node?_modifyFact ..).trans
      (by rw [if_neg hdata, hnode, if_neg hdata, if_neg hop])
  · exact Graph.mem_edges_of_push hlinks

end Edit

namespace Graph

variable {g h k : Graph} {d op : NodeId} {p : Nat} {i : EdgeId} {l : List Edge}

/-! ### Feeding ports -/

/-- `h` is `g` with edges from `d` to the ports that some edges lead to. -/
structure Fed (g h : Graph) (d : NodeId) (l : List Edge) : Prop where
  nodes : h.nodes = g.nodes
  others : ∀ {e}, e.src ≠ d → (e ∈ h.edges ↔ e ∈ g.edges)
  reads : ∀ {op p}, h.inSource op p = some d ↔
    g.inSource op p = some d ∨ ∃ e ∈ l, e.dst = op ∧ e.inp = p

lemma inSource_of_new_edge (hg : g.WellFormed) (hk : k.WellFormed) (hedges : ∀ c, c ∈ k.edges ↔
    c ∈ g.edges ∨ c = { src := d, dst := op, out := 0, inp := p, id := i }) (op' : NodeId)
    (p' : Nat) (d' : NodeId) :
    k.inSource op' p' = some d' ↔ g.inSource op' p' = some d' ∨ d = d' ∧ op = op' ∧ p = p' := by
  rw [inSource_eq_some hk, inSource_eq_some hg]
  constructor
  · rintro ⟨c, hc, hdst, hinp, hsrc⟩
    rcases (hedges c).1 hc with hc | rfl
    · exact .inl ⟨c, hc, hdst, hinp, hsrc⟩
    · exact .inr ⟨hsrc, hdst, hinp⟩
  · rintro (⟨c, hc, hat⟩ | ⟨rfl, rfl, rfl⟩)
    · exact ⟨c, (hedges c).2 (.inl hc), hat⟩
    · exact ⟨_, (hedges _).2 (.inr rfl), rfl, rfl, rfl⟩

end Graph

namespace Edit

variable {g h k : Graph} {d : NodeId} {l : List Edge}

/-- Free ports can be fed, if no two of them are the same. -/
lemma exists_gives_feed {f : Fact} (hg : g.WellFormed) (hd : g.fact? d = some f)
    (hl : ∀ e ∈ l, (g.op? e.dst).isSome ∧ g.inSource e.dst e.inp = none)
    (hports : l.Pairwise fun e c => e.dst = c.dst → e.inp ≠ c.inp) :
    ∃ h, Gives (l.forM fun e => discard (addEdge d e.dst 0 e.inp)) g () h ∧ h.WellFormed ∧
      g.Fed h d l := by
  induction l generalizing g with
  | nil => exact ⟨g, ⟨rfl, rfl⟩, hg, rfl, fun _ => Iff.rfl, by simp⟩
  | cons e l ih =>
    obtain ⟨hne, hports⟩ := List.pairwise_cons.1 hports
    obtain ⟨hop, hfree⟩ := hl e (List.mem_cons_self ..)
    obtain ⟨o, ho⟩ := Option.isSome_iff_exists.1 hop
    obtain ⟨s, hs⟩ := Graph.fact?_eq_some.1 hd
    obtain ⟨t, ht⟩ := Graph.op?_eq_some.1 ho
    have hsrc := Option.isSome_of_eq_some hs
    have hdst := Option.isSome_of_eq_some ht
    let k : Graph :=
      { g.pushLink ⟨d, e.dst, 0, e.inp⟩ hsrc hdst with revision := g.revision + 1 }
    have hadd : Gives (addEdge d e.dst 0 e.inp) g ⟨g.links.next⟩ k := by
      refine gives_addEdge.2 ⟨⟨_, _, hs, ht, .inr ⟨rfl, rfl, rfl, fun c hc => ?_⟩⟩, rfl, _, _, rfl⟩
      have hmem := Graph.mem_incoming.1 hc
      exact Graph.inSource_eq_none.1 hfree c hmem.1 hmem.2
    have hk : k.WellFormed := hadd.keeps (keeps_addEdge _ _ _ _) hg
    have hlinks : k.links = g.links.push ⟨d, e.dst, 0, e.inp⟩ :=
      Graph.links_pushLink (l := ⟨d, e.dst, 0, e.inp⟩) hsrc hdst
    have hnodes : k.nodes = g.nodes :=
      Graph.nodes_pushLink (l := ⟨d, e.dst, 0, e.inp⟩) hsrc hdst
    have hedges (c : Edge) : c ∈ k.edges ↔ c ∈ g.edges ∨
        c = { src := d, dst := e.dst, out := 0, inp := e.inp, id := ⟨g.links.next⟩ } :=
      Graph.mem_edges_of_push hlinks
    have hnode := Graph.node?_congr hnodes
    have hsource := Graph.inSource_of_new_edge hg hk hedges
    have hrest : ∀ c ∈ l, (k.op? c.dst).isSome ∧ k.inSource c.dst c.inp = none := fun c hc => by
      obtain ⟨hop, hfree⟩ := hl c (List.mem_cons_of_mem e hc)
      refine ⟨?_, Option.eq_none_iff_forall_ne_some.2 fun d' hd' => ?_⟩
      · rwa [Graph.op?, hnode]
      · rcases (hsource _ _ _).1 hd' with hd' | ⟨-, hdst, hinp⟩
        · cases hfree.symm.trans hd'
        · exact hne c hc hdst hinp
    obtain ⟨h, hh, hhw, hfed⟩ := ih hk (by rwa [Graph.fact?, hnode]) hrest hports
    refine ⟨h, gives_bind.2 ⟨(), k, gives_discard.2 ⟨_, hadd⟩, hh⟩, hhw,
      hfed.nodes.trans hnodes,
      fun {c} hc => (hfed.others hc).trans ?_, fun {op p} => ?_⟩
    · have hnew : c ≠ { src := d, dst := e.dst, out := 0, inp := e.inp, id := ⟨g.links.next⟩ } :=
        fun heq => hc (congrArg (·.src) heq)
      simp only [hedges, hnew, or_false]
    · rw [hfed.reads, hsource]
      simp [or_assoc]

end Edit

namespace Graph

variable {g h k m : Graph} {dequeue queue image j : NodeId} {name : String} {shape : Shape}
  {n : Node}

/-! ### Replacing -/

/-- The names of the nodes that stay when others go. -/
def InUse (g : Graph) (gone : NodeId → Prop) (s : String) : Prop :=
  ∃ j n, g.node? j = some n ∧ n.name = s ∧ ¬ gone j

/-- `h` is `g` with an input of the model in the place of a queue whose first tensor is `image`.
What read the tensor reads the data of the input. -/
structure Replaced (g h : Graph) (dequeue image : NodeId) (name : String) (shape : Shape) :
    Prop where
  next : h.nodes.next = g.nodes.next + 2
  gone : ∀ {j}, g.Discarded dequeue image j → h.node? j = none
  kept : ∀ {j}, ¬ g.Discarded dequeue image j → j ≠ g.freshOp → j ≠ g.freshData →
    (h.node? j).map (·.unmarked) = (g.node? j).map (·.unmarked)
  op : h.node? g.freshOp = some ⟨name, .op (inputOf shape)⟩
  data : h.node? g.freshData = some ⟨dataName name 0, .data (.ofShape shape)⟩
  written : ∃ i, ∀ e, e.src = g.freshOp →
    (e ∈ h.edges ↔ e = { src := g.freshOp, dst := g.freshData, out := 0, inp := 0, id := i })
  read : ∀ {op p}, h.inSource op p = some g.freshData ↔ g.inSource op p = some image
  others : ∀ {e}, e.src ≠ g.freshOp → e.src ≠ g.freshData → (e ∈ h.edges ↔
    e ∈ g.edges ∧ ¬ g.Discarded dequeue image e.src ∧ ¬ g.Discarded dequeue image e.dst)

lemma Dequeues.live_of_discarded (hd : g.Dequeues dequeue queue image shape) (hg : g.WellFormed)
    (hj : g.Discarded dequeue image j) : (g.node? j).isSome := by
  have hends {e : Edge} (he : e ∈ g.edges) : (g.node? e.src).isSome ∧ (g.node? e.dst).isSome :=
    Leads.live hg ⟨e, he, rfl, rfl⟩
  obtain ⟨e, he, hsrc, -, hdst⟩ := hd.exists_edge hg
  cases hj with
  | dequeue => exact hsrc ▸ (hends he).1
  | image => exact hdst ▸ (hends he).2
  | dependent hc _ _ hpath =>
    rcases ReflTransGen.cases_tail hpath with rfl | ⟨i, -, hstep⟩
    · exact (hends hc).2
    · exact (hstep.live hg).2
  | input hc => exact (hends hc).1
  | producer _ _ _ hc => exact (hends hc).1

lemma unmarked_mark (n : Node) :
    (n.mapOperation fun o => { o with needsInference := true }).unmarked = n.unmarked := by
  rcases n with ⟨name, o | f⟩ <;> rfl

/-- Without what goes, the names are those of what stays. -/
lemma contains_without {l : List NodeId} {gone : NodeId → Prop} (hk : g.Without k l)
    (hl : ∀ j, j ∈ l ↔ gone j) (s : String) : k.contains s = true ↔ g.InUse gone s := by
  rw [contains_eq_true]
  refine exists_congr fun j => exists_congr fun n => ?_
  rw [hk.node?_eq_some, hl]
  tauto

section

variable (hd : g.Dequeues dequeue queue image shape) (hg : g.WellFormed) (ha : g.Acyclic)
  {l : List NodeId} (hl : ∀ j, j ∈ l ↔ g.Discarded dequeue image j) (hk : g.Without k l)
  (hm : k.WithInput m g.freshOp g.freshData name shape)

include hd hg hl hk hm

/-- What read the first tensor is left, on ports that are free now. -/
lemma free_of_withInput (ha : g.Acyclic) : ∀ e ∈ g.outgoing image,
    (m.op? e.dst).isSome ∧ m.inSource e.dst e.inp = none := by
  intro e hout
  obtain ⟨he, rfl⟩ := mem_outgoing.1 hout
  obtain ⟨f, hf⟩ := hd.exists_fact hg
  obtain ⟨o, ho⟩ := ends_of_fact_src hg he hf
  have hop := (hg.apart_of_none g.node?_freshOp he).2
  have hdata := (hg.apart_of_none g.node?_freshData he).2
  have hstay : e.dst ∉ l := fun hmem =>
    hd.not_discarded hg ha (.single ⟨e, he, rfl, rfl⟩) (hg.src_ne_dst he).symm ((hl _).1 hmem)
  refine ⟨?_, inSource_eq_none.2 fun c hc hdst hinp => ?_⟩
  · rw [Graph.op?, hm.others hop hdata, hk.node?, if_neg hstay, ← Graph.op?, ho]
    rfl
  · -- the edge of the first tensor is the only one that was there, and it is gone
    obtain ⟨i, hedges⟩ := hm.edges
    rcases (hedges c).1 hc with hc | rfl
    · obtain ⟨hc, hsrc, -⟩ := (hk.edges c).1 hc
      obtain rfl := hg.inp_unique hc he hdst hinp
      exact hsrc ((hl _).2 .image)
    · exact hdata hdst.symm

/-- Feeding these ports puts the input in the place of the queue. Marks do not matter. -/
lemma replaced_of_fed (hnext : k.nodes.next = g.nodes.next) (hmw : m.WellFormed) {r : Graph}
    (hfed : m.Fed r g.freshData (g.outgoing image)) {marked : List NodeId}
    (hh : h.Alike (r.flagOps marked)) : g.Replaced h dequeue image name shape := by
  have hne := g.freshOp_ne_freshData
  obtain ⟨i, hnew⟩ := hm.edges
  have hnode (j : NodeId) : h.node? j = (if j ∈ marked then
      (m.node? j).map (·.mapOperation fun o => { o with needsInference := true })
      else m.node? j) := by
    rw [hh.node?, node?_flagOps, node?_congr hfed.nodes]
  have hedges : h.edges = r.edges := edges_of_skeleton (hh.skeleton.trans skeleton_flagOps)
  -- no edge of `g` is at a new node
  have hold {e : Edge} (he : e ∈ k.edges) : e.src ≠ g.freshOp ∧ e.src ≠ g.freshData :=
    ⟨(hg.apart_of_none g.node?_freshOp ((hk.edges e).1 he).1).1,
      (hg.apart_of_none g.node?_freshData ((hk.edges e).1 he).1).1⟩
  refine ⟨?_, fun {j} hj => ?_, fun {j} hj hop hdata => ?_, ?_, ?_, ⟨i, fun e hsrc => ?_⟩,
    fun {op p} => ?_, fun {e} hop hdata => ?_⟩
  · rw [hh.1, next_of_skeleton (skeleton_flagOps (g := r) (l := marked)), hfed.nodes, hm.next,
      hnext]
  · have hop : j ≠ g.freshOp := fun heq => by
      simpa [heq, node?_freshOp] using hd.live_of_discarded hg hj
    have hdata : j ≠ g.freshData := fun heq => by
      simpa [heq, node?_freshData] using hd.live_of_discarded hg hj
    simp [hnode, hm.others hop hdata, hk.node?, (hl j).2 hj]
  · rw [hnode, hm.others hop hdata, hk.node?, if_neg fun hmem => hj ((hl j).1 hmem)]
    split
    · rw [Option.map_map]
      exact Option.map_congr fun n _ => unmarked_mark n
    · rfl
  · rw [hnode, hm.op]
    split <;> rfl
  · rw [hnode, hm.data]
    split <;> rfl
  · rw [hedges, hfed.others (hsrc ▸ hne), hnew]
    exact or_iff_right fun he => (hold he).1 hsrc
  · have hfresh : m.inSource op p ≠ some g.freshData := fun hin => by
      obtain ⟨c, hc, -, -, hsrc⟩ := (inSource_eq_some hmw).1 hin
      rcases (hnew c).1 hc with hc | rfl
      · exact (hold hc).2 hsrc
      · exact hne hsrc
    rw [inSource_of_skeleton (hh.skeleton.trans skeleton_flagOps), hfed.reads, inSource_eq_some hg]
    simp only [hfresh, false_or, mem_outgoing]
    tauto
  · rw [hedges, hfed.others hdata, hnew, hk.edges, hl, hl]
    exact or_iff_left fun heq => hop (congrArg (·.src) heq)

end

end Graph

namespace Edit

open TensorGraph.Graph (InUse Discarded)

variable {g : Graph} {dequeue queue image : NodeId} {name : String} {shape : Shape} {n : Node}

/-- The ports of the edges out of a node are distinct. -/
lemma pairwise_ports (hg : g.WellFormed) (d : NodeId) :
    (g.outgoing d).Pairwise fun e c => e.dst = c.dst → e.inp ≠ c.inp := by
  refine List.Pairwise.imp_of_mem ?_ (g.nodup_outgoing d)
  intro e c he hc hne hdst hinp
  exact hne (hg.inp_unique (Graph.mem_outgoing.1 he).1 (Graph.mem_outgoing.1 hc).1 hdst hinp)

lemma run_query_bind {α β : Type} {f : Graph → Except Error α} {x : α → Edit β} {a : α}
    (hf : f g = .ok a) : (query f >>= x).run g = (x a).run g := by
  rw [run_bind_of_ok (show ((query f).run g).result = .ok a from hf)]
  simp

lemma run_lift_bind {α β : Type} {x : Except Error α} {f : α → Edit β} {a : α} (hx : x = .ok a) :
    ((liftM x : Edit α) >>= f).run g = (f a).run g := by
  rw [run_bind_of_ok (show ((liftM x : Edit α).run g).result = .ok a from hx)]
  simp

lemma run_current_bind {β : Type} {f : Graph → Edit β} :
    (current >>= f).run g = (f g).run g := by
  rw [run_bind_of_ok (show (current.run g).result = .ok g from rfl)]
  simp

/-- What follows the removal: an input of the model is added, and read where some edges lead. -/
def insertInput (queueName : String) (shape : Shape) (readers : List Edge) : Edit Unit := do
  let name := (← current).uniqueName queueName
  let (parameter, data) ← addOpWithData name (Graph.inputOf shape)
  modifyFact data fun _ => .ofShape shape
  readers.forM fun e => discard (addEdge data e.dst 0 e.inp)
  note .info ("Replaced queue " ++ queueName ++ " by " ++ name ++ ", a " ++ Text.listing shape ++
    " parameter")
  markNeighbourhood parameter

lemma run_replaceImage (hd : g.Dequeues dequeue queue image shape) (hg : g.WellFormed)
    (hn : g.node? queue = some n) : (replaceImage dequeue queue image shape).run g =
      ((g.discards dequeue image).forM removeLive >>= fun _ =>
        insertInput n.name shape (g.outgoing image)).run g := by
  obtain ⟨o, ho, -⟩ := Graph.kind?_eq_some.1 hd.kind
  obtain ⟨f, hf⟩ := hd.exists_fact hg
  unfold replaceImage insertInput Graph.discards Graph.inputOf
  rw [run_current_bind, run_lift_bind (Graph.node_eq_ok.2 hn),
    run_lift_bind (Graph.ownInputs_eq hg ho), run_lift_bind (Graph.consumers_eq hf)]

/-- The name of the data is all that can be in the way if the ports are free. -/
lemma exists_gives_insertInput (hg : g.WellFormed) {s : String} {l : List Edge}
    (hdata : g.contains (dataName (g.uniqueName s) 0) = false)
    (hfree : ∀ {m}, g.WithInput m g.freshOp g.freshData (g.uniqueName s) shape →
      ∀ e ∈ l, (m.op? e.dst).isSome ∧ m.inSource e.dst e.inp = none)
    (hports : l.Pairwise fun e c => e.dst = c.dst → e.inp ≠ c.inp) :
    ∃ m r h marked, g.WithInput m g.freshOp g.freshData (g.uniqueName s) shape ∧ m.WellFormed ∧
      m.Fed r g.freshData l ∧ h.Alike (r.flagOps marked) ∧
        Gives (insertInput s shape l) g () h := by
  obtain ⟨-, -, hname, -⟩ := Graph.firstFree_uniqueName g s
  obtain ⟨k, m, hadd, hmodify, hm⟩ := exists_gives_addInput hg (by simpa using hname) hdata shape
  have hmw : m.WellFormed :=
    hmodify.keeps (keeps_modifyFact _ _) (hadd.keeps (keeps_addOpWithData _ _) hg)
  have hfact : m.fact? g.freshData = some (.ofShape shape) := Graph.fact?_eq_some.2 ⟨_, hm.data⟩
  obtain ⟨r, hr, hrw, hfed⟩ := exists_gives_feed hmw hfact (hfree hm) hports
  have hparameter : r.op? g.freshOp = some (Graph.inputOf shape) := by
    rw [Graph.op?, Graph.node?_congr hfed.nodes, hm.op]
    rfl
  obtain ⟨h, hh, halike⟩ := exists_gives_markNeighbourhood hrw hparameter
  refine ⟨m, r, h, _, hm, hmw, hfed, halike, ?_⟩
  unfold insertInput
  simp only [gives_bind, gives_current, gives_note]
  exact ⟨g, g, ⟨rfl, rfl⟩, _, k, hadd, (), m, hmodify, (), r, hr, (), r, rfl, hh⟩

lemma fails_insertInput {s : String} {l : List Edge}
    (hdata : g.contains (dataName (g.uniqueName s) 0) = true) :
    Fails (insertInput s shape l) g (GraphFault.nameTaken (dataName (g.uniqueName s) 0)) := by
  obtain ⟨-, -, hname, -⟩ := Graph.firstFree_uniqueName g s
  have hfails := fails_addOpWithData (by simpa using hname) hdata (Graph.inputOf shape)
  exact fails_bind.2 (.inr ⟨g, g, gives_current.2 ⟨rfl, rfl⟩, fails_bind.2 (.inl hfails)⟩)

lemma exists_gives_replaceImage (hd : g.Dequeues dequeue queue image shape) (hg : g.WellFormed)
    (ha : g.Acyclic) (hn : g.node? queue = some n) :
    ∃ name, FirstFree (g.InUse (g.Discarded dequeue image)) n.name name ∧
      (¬ g.InUse (g.Discarded dequeue image) (dataName name 0) →
        ∃ h, Gives (replaceImage dequeue queue image shape) g () h ∧
          g.Replaced h dequeue image name shape) ∧
      (g.InUse (g.Discarded dequeue image) (dataName name 0) →
        Fails (replaceImage dequeue queue image shape) g
          (GraphFault.nameTaken (dataName name 0))) := by
  obtain ⟨o, ho, -⟩ := Graph.kind?_eq_some.1 hd.kind
  obtain ⟨f, hf⟩ := hd.exists_fact hg
  obtain ⟨s, hs⟩ := Graph.fact?_eq_some.1 hf
  have hmem (j : NodeId) : j ∈ g.discards dequeue image ↔ g.Discarded dequeue image j :=
    Graph.mem_discards hg ho (hs ▸ rfl)
  obtain ⟨k, hk, hwithout, hnext⟩ := exists_gives_removeLives hg (g.discards dequeue image)
  have hkw : k.WellFormed := hk.keeps
    (keeps_forM fun j _ => (structural_removeLive j).keeps invariant_wellFormed.shaped) hg
  have hused := Graph.contains_without hwithout hmem
  have hop : k.freshOp = g.freshOp := congrArg NodeId.mk hnext
  have hdata : k.freshData = g.freshData := congrArg (fun i => NodeId.mk (i + 1)) hnext
  refine ⟨k.uniqueName n.name, (Graph.firstFree_uniqueName k n.name).congr hused, fun hnot => ?_,
    fun hin => ?_⟩
  · have hfree : k.contains (dataName (k.uniqueName n.name) 0) = false :=
      Bool.eq_false_iff.2 (mt (hused _).1 hnot)
    obtain ⟨m, r, h, marked, hm, hmw, hfed, halike, hh⟩ :=
      exists_gives_insertInput hkw hfree
        (fun hm => Graph.free_of_withInput hd hg hmem hwithout (hop ▸ hdata ▸ hm) ha)
        (pairwise_ports hg image)
    rw [hop, hdata] at hm
    rw [hdata] at hfed
    refine ⟨h, ?_, Graph.replaced_of_fed hd hg hmem hwithout hm hnext hmw hfed halike⟩
    unfold Gives
    rw [run_replaceImage hd hg hn]
    exact gives_bind.2 ⟨(), k, hk, hh⟩
  · unfold Fails
    rw [run_replaceImage hd hg hn]
    exact fails_bind.2 (.inr ⟨(), k, hk, fails_insertInput ((hused _).2 hin)⟩)

lemma run_replaceQueue (hd : g.Dequeues dequeue queue image shape) (hg : g.WellFormed) :
    (replaceQueue dequeue).run g = (replaceImage dequeue queue image shape).run g := by
  obtain ⟨o, ho, -⟩ := Graph.kind?_eq_some.1 hd.kind
  obtain ⟨q, hq, -⟩ := Graph.kind?_eq_some.1 hd.queueKind
  obtain ⟨name, hn⟩ := Graph.op?_eq_some.1 hq
  have hqueue := (Graph.isOpOf_iff hn).2 hd.queueKind
  have hshape := Graph.dequeuedShape_eq hg hd.kind hq
  rw [hd.shape] at hshape
  have himage := Graph.outputData_eq (p := 0) ho
  rw [hd.image] at himage
  have horigin := Graph.producerOp_eq hg hd.kind 1
  rw [hd.origin] at horigin
  unfold replaceQueue
  rw [run_query_bind horigin, run_query_bind (Graph.node_eq_ok.2 hn), hqueue, if_neg (by simp),
    run_query_bind himage, run_query_bind hshape]

/-- **Replacing a queue**: in a graph without cycles an input of the model takes the place of a
queue unless the name of its data is in use. The input has the first free name. -/
theorem exists_gives_replaceQueue (hd : g.Dequeues dequeue queue image shape) (hg : g.WellFormed)
    (ha : g.Acyclic) (hn : g.node? queue = some n) :
    ∃ name, FirstFree (g.InUse (g.Discarded dequeue image)) n.name name ∧
      (¬ g.InUse (g.Discarded dequeue image) (dataName name 0) →
        ∃ h, Gives (replaceQueue dequeue) g () h ∧ g.Replaced h dequeue image name shape) ∧
      (g.InUse (g.Discarded dequeue image) (dataName name 0) →
        Fails (replaceQueue dequeue) g (GraphFault.nameTaken (dataName name 0))) := by
  unfold Gives Fails
  rw [run_replaceQueue hd hg]
  exact exists_gives_replaceImage hd hg ha hn

/-- A queue that is not known, or the shape of whose first tensor is not, is left in place. -/
lemma gives_replaceQueue_of_idle (hg : g.WellFormed)
    (hkind : g.kind? dequeue = some "QueueDequeueUpToV2")
    (hidle : g.LeftInPlace dequeue) :
    Gives (replaceQueue dequeue) g () g := by
  obtain ⟨o, ho, -⟩ := Graph.kind?_eq_some.1 hkind
  have horigin := Graph.producerOp_eq hg hkind 1
  have himage := Graph.outputData_eq (p := 0) ho
  unfold replaceQueue
  rcases hq : g.origin? dequeue 1 with _ | queue
  · rw [hq] at horigin
    exact gives_query_bind horigin ⟨rfl, rfl⟩
  rw [hq] at horigin
  obtain ⟨kind, hqkind⟩ := Graph.exists_kind_of_origin hg hkind hq
  obtain ⟨q, hq', -⟩ := Graph.kind?_eq_some.1 hqkind
  obtain ⟨name, hn⟩ := Graph.op?_eq_some.1 hq'
  refine gives_query_bind horigin (gives_query_bind (Graph.node_eq_ok.2 hn) ?_)
  split
  · exact ⟨rfl, rfl⟩
  next hqueue =>
  rcases hi : g.outTarget dequeue 0 with _ | image
  · rw [hi] at himage
    exact gives_query_bind himage ⟨rfl, rfl⟩
  rw [hi] at himage
  have hshape := Graph.dequeuedShape_eq hg hkind hq'
  refine gives_query_bind himage (gives_query_bind hshape ?_)
  rcases hs : g.batchShape? dequeue queue with _ | shape
  · exact gives_note.2 rfl
  · exact absurd ⟨hkind, hq, (Graph.isOpOf_iff hn).1 (by simpa using hqueue), hi, hs⟩
      (hidle queue image shape)

/-- There is no queue behind an operation that is gone. -/
lemma fails_replaceQueue_of_gone (hgone : g.node? dequeue = none) :
    Fails (replaceQueue dequeue) g (Reference.node dequeue) := by
  have horigin : g.producerOp dequeue 1 = .error (Reference.node dequeue : Error) := by
    rw [Graph.producerOp, Graph.inputData, Graph.inEdges_eq, Graph.node, hgone]
    rfl
  exact fails_bind.2 (.inl (fails_query.2 horigin))

end Edit

end TensorGraph
