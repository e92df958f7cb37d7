import TensorGraph.Edit.Structure
import TensorGraph.Proofs.Edits
import TensorGraph.Proofs.Graphs

/-!
Well-formed graphs.

Names are unique, an edge joins an operation and a data node that are both there, the port on
the side of the data node is zero, and no port of an operation or input port of a data node has
two edges. Every change of the structure keeps this, also when it fails. Of a given graph it can be
decided (`Graph.wellFormed_iff`).
-/

namespace TensorGraph

open Edit

/-- What holds of a graph that was only ever changed by edits. -/
structure Graph.WellFormed (g : Graph) : Prop where
  name_unique : ∀ {i j : NodeId} {m n : Node}, g.node? i = some m → g.node? j = some n →
    m.name = n.name → i = j
  ends : ∀ {e : Edge}, e ∈ g.edges → ∃ s d, g.node? e.src = some s ∧ g.node? e.dst = some d ∧
    s.isOp ≠ d.isOp
  out_of_data : ∀ {e : Edge} {s : Node}, e ∈ g.edges → g.node? e.src = some s →
    s.isOp = false → e.out = 0
  inp_of_data : ∀ {e : Edge} {d : Node}, e ∈ g.edges → g.node? e.dst = some d →
    d.isOp = false → e.inp = 0
  inp_unique : ∀ {e f : Edge}, e ∈ g.edges → f ∈ g.edges → e.dst = f.dst → e.inp = f.inp → e = f
  out_unique : ∀ {e f : Edge} {s : Node}, e ∈ g.edges → f ∈ g.edges → g.node? e.src = some s →
    s.isOp = true → e.src = f.src → e.out = f.out → e = f

namespace Graph

variable {g h : Graph}

/-- What a change of the content of a node leaves: its name and whether it is an operation. -/
def frame (g : Graph) (id : NodeId) : Option (String × Bool) :=
  (g.node? id).map fun n => (n.name, n.isOp)

lemma frame_eq_some {id : NodeId} {n : Node} (hn : g.node? id = some n) :
    g.frame id = some (n.name, n.isOp) := by
  simp [frame, hn]

lemma exists_of_frame {id : NodeId} {s : String} {b : Bool} (hf : g.frame id = some (s, b)) :
    ∃ n, g.node? id = some n ∧ n.name = s ∧ n.isOp = b := by
  obtain ⟨n, hn, heq⟩ := Option.map_eq_some_iff.1 hf
  rw [Prod.mk.injEq] at heq
  exact ⟨n, hn, heq.1, heq.2⟩

/-- A node of `h` has a node of the same frame in `g`. -/
lemma exists_of_frame_eq (hf : ∀ id, h.frame id = g.frame id) {id : NodeId} {n : Node}
    (hn : h.node? id = some n) : ∃ m, g.node? id = some m ∧ m.name = n.name ∧ m.isOp = n.isOp := by
  apply exists_of_frame
  rw [← hf, frame_eq_some hn]

lemma pairwise_inp (hg : g.WellFormed) (id : NodeId) :
    (g.incoming id).Pairwise fun e f => e.inp ≠ f.inp := by
  refine List.Pairwise.imp_of_mem ?_ (g.nodup_incoming id)
  intro e f he hf hne hinp
  obtain ⟨he, hedst⟩ := mem_incoming.1 he
  obtain ⟨hf, hfdst⟩ := mem_incoming.1 hf
  exact hne (hg.inp_unique he hf (hedst.trans hfdst.symm) hinp)

/-- The edge into a port is the one that is found there. -/
lemma WellFormed.find?_incoming (hg : g.WellFormed) {id : NodeId} {p : Nat} {e : Edge} :
    (g.incoming id).find? (fun c => c.inp == p) = some e ↔ e ∈ g.edges ∧ e.dst = id ∧
      e.inp = p := by
  constructor
  · intro hfind
    obtain ⟨he, hdst⟩ := mem_incoming.1 (List.mem_of_find?_eq_some hfind)
    exact ⟨he, hdst, by simpa using List.find?_some hfind⟩
  · rintro ⟨he, hdst, hinp⟩
    rcases hfind : (g.incoming id).find? fun c => c.inp == p with _ | f
    · exact absurd (by simpa using hinp)
        (List.find?_eq_none.1 hfind e (mem_incoming.2 ⟨he, hdst⟩))
    · obtain ⟨hf, hfdst⟩ := mem_incoming.1 (List.mem_of_find?_eq_some hfind)
      have hfinp : f.inp = p := by simpa using List.find?_some hfind
      rw [hfind, hg.inp_unique hf he (hfdst.trans hdst.symm) (hfinp.trans hinp.symm)]

/-- The edges into a node stand on rising ports. -/
lemma WellFormed.pairwise_inp_lt (hg : g.WellFormed) (id : NodeId) :
    (g.incoming id).Pairwise fun e f => e.inp < f.inp := by
  have hle : (g.incoming id).Pairwise fun e f => inOrder e f = true :=
    incoming_eq ▸ pairwise_sortBy (fun a b => by simpa [inOrder] using Nat.le_total a.inp b.inp)
      (fun a b c => by simpa [inOrder] using Nat.le_trans) _
  refine (hle.and (pairwise_inp hg id)).imp fun h => ?_
  exact Nat.lt_of_le_of_ne (by simpa [inOrder] using h.1) h.2

lemma WellFormed.congr (hg : g.WellFormed) (hf : ∀ id, h.frame id = g.frame id)
    (he : h.edges = g.edges) : h.WellFormed where
  name_unique := by
    intro i j m n hm hn hname
    obtain ⟨m', hm', hm1, -⟩ := exists_of_frame_eq hf hm
    obtain ⟨n', hn', hn1, -⟩ := exists_of_frame_eq hf hn
    exact hg.name_unique hm' hn' (by rw [hm1, hn1, hname])
  ends := by
    intro e hmem
    rw [he] at hmem
    obtain ⟨s, d, hs, hd, hne⟩ := hg.ends hmem
    obtain ⟨s', hs', -, hs2⟩ := exists_of_frame_eq (fun id => (hf id).symm) hs
    obtain ⟨d', hd', -, hd2⟩ := exists_of_frame_eq (fun id => (hf id).symm) hd
    exact ⟨s', d', hs', hd', by rw [hs2, hd2]; exact hne⟩
  out_of_data := by
    intro e s hmem hs hdata
    rw [he] at hmem
    obtain ⟨s', hs', -, hs2⟩ := exists_of_frame_eq hf hs
    exact hg.out_of_data hmem hs' (by rw [hs2, hdata])
  inp_of_data := by
    intro e d hmem hd hdata
    rw [he] at hmem
    obtain ⟨d', hd', -, hd2⟩ := exists_of_frame_eq hf hd
    exact hg.inp_of_data hmem hd' (by rw [hd2, hdata])
  inp_unique := by
    intro e f hmem hmem'
    rw [he] at hmem hmem'
    exact hg.inp_unique hmem hmem'
  out_unique := by
    intro e f s hmem hmem' hs hop
    rw [he] at hmem hmem'
    obtain ⟨s', hs', -, hs2⟩ := exists_of_frame_eq hf hs
    exact hg.out_unique hmem hmem' hs' (by rw [hs2, hop])

lemma WellFormed.empty : (∅ : Graph).WellFormed := by
  have hnode : ∀ id, (∅ : Graph).node? id = none := node?_empty
  have hedge : ∀ e : Edge, e ∉ (∅ : Graph).edges := by
    intro e he
    have : (∅ : Graph).edge? e.id = none := edge?_empty e.id
    rw [mem_edges, this] at he
    cases he
  constructor
  · intro i j m n hm
    rw [hnode] at hm
    cases hm
  all_goals
    intro e
    intros
    exact absurd ‹e ∈ _› (hedge e)

@[simp] lemma frame_modifyOp (i j : NodeId) (f : Operation → Operation) :
    (g.modifyOp i f).frame j = g.frame j := by
  unfold frame
  rw [node?_modifyOp]
  split
  · next hj =>
    subst hj
    rcases g.node? j with _ | ⟨name, o | d⟩ <;> rfl
  · rfl

@[simp] lemma frame_modifyFact (i j : NodeId) (f : Fact → Fact) :
    (g.modifyFact i f).frame j = g.frame j := by
  unfold frame
  rw [node?_modifyFact]
  split
  · next hj =>
    subst hj
    rcases g.node? j with _ | ⟨name, o | d⟩ <;> rfl
  · rfl

lemma WellFormed.modifyOp (hg : g.WellFormed) (id : NodeId) (f : Operation → Operation) :
    (g.modifyOp id f).WellFormed := hg.congr (fun _ => frame_modifyOp ..) rfl

lemma WellFormed.modifyFact (hg : g.WellFormed) (id : NodeId) (f : Fact → Fact) :
    (g.modifyFact id f).WellFormed := hg.congr (fun _ => frame_modifyFact ..) rfl

lemma WellFormed.pushNode (hg : g.WellFormed) {n : Node}
    (hfree : g.contains n.name = false) : (g.pushNode n hfree).WellFormed := by
  -- the ends of an edge were there before
  have hend : ∀ {e : Edge} {i : NodeId} {s : Node}, e ∈ g.edges → i = e.src ∨ i = e.dst →
      (g.pushNode n hfree).node? i = some s → g.node? i = some s := by
    intro e i s he hi hs
    obtain ⟨a, b, ha, hb, -⟩ := hg.ends he
    rcases hi with rfl | rfl
    · rw [node?_pushNode_of_some hfree ha] at hs
      rw [ha, hs]
    · rw [node?_pushNode_of_some hfree hb] at hs
      rw [hb, hs]
  constructor
  · intro i j a b ha hb hname
    rcases (node?_pushNode_eq_some hfree).1 ha with ⟨hi, rfl⟩ | ha' <;>
      rcases (node?_pushNode_eq_some hfree).1 hb with ⟨hj, rfl⟩ | hb'
    · rw [hi, hj]
    · exact absurd hname.symm (contains_eq_false.1 hfree j b hb')
    · exact absurd hname (contains_eq_false.1 hfree i a ha')
    · exact hg.name_unique ha' hb' hname
  · intro e he
    obtain ⟨s, d, hs, hd, hne⟩ := hg.ends he
    exact ⟨s, d, node?_pushNode_of_some hfree hs, node?_pushNode_of_some hfree hd, hne⟩
  · intro e s he hs
    exact hg.out_of_data he (hend he (Or.inl rfl) hs)
  · intro e d he hd
    exact hg.inp_of_data he (hend he (Or.inr rfl) hd)
  · exact hg.inp_unique
  · intro e f s he hf hs
    exact hg.out_unique he hf (hend he (Or.inl rfl) hs)

/-- Edges may be taken out. -/
lemma WellFormed.of_subset (hg : g.WellFormed) (hn : h.node? = g.node?)
    (hold : ∀ {e : Edge}, e ∈ h.edges → e ∈ g.edges) : h.WellFormed := by
  constructor
  all_goals try rw [hn]
  · exact hg.name_unique
  · exact fun he => hg.ends (hold he)
  · exact fun he => hg.out_of_data (hold he)
  · exact fun he => hg.inp_of_data (hold he)
  · exact fun he hf => hg.inp_unique (hold he) (hold hf)
  · exact fun he hf => hg.out_unique (hold he) (hold hf)

lemma WellFormed.eraseEdge (hg : g.WellFormed) (i : EdgeId) : (g.eraseEdge i).WellFormed :=
  hg.of_subset (node?_eraseEdge i) fun he => (mem_edges_eraseEdge.1 he).1

lemma WellFormed.eraseNode (hg : g.WellFormed) {id : NodeId}
    (hfree : ∀ e ∈ g.edges, e.src ≠ id ∧ e.dst ≠ id) : (g.eraseNode id).WellFormed := by
  have hold : ∀ {i : NodeId} {n : Node}, (g.eraseNode id).node? i = some n →
      g.node? i = some n := by
    intro i n hn
    rw [node?_eraseNode] at hn
    split at hn
    · cases hn
    · exact hn
  have hkeep : ∀ {i : NodeId} {n : Node}, g.node? i = some n → i ≠ id →
      (g.eraseNode id).node? i = some n := by
    intro i n hn hi
    rw [node?_eraseNode, if_neg hi]
    exact hn
  have hsame := edges_eraseNode_of_free hfree
  constructor
  all_goals try rw [hsame]
  · exact fun hm hn => hg.name_unique (hold hm) (hold hn)
  · intro e he
    obtain ⟨s, d, hs, hd, hne⟩ := hg.ends he
    exact ⟨s, d, hkeep hs (hfree e he).1, hkeep hd (hfree e he).2, hne⟩
  · exact fun he hs => hg.out_of_data he (hold hs)
  · exact fun he hd => hg.inp_of_data he (hold hd)
  · exact hg.inp_unique
  · exact fun he hf hs => hg.out_unique he hf (hold hs)

/-- Where an edge may be added: its ends are an operation and a data node, the port on the side
of the data node is zero, and the ports are free. -/
structure Free (g : Graph) (l : Link) : Prop where
  ends : ∃ s d, g.node? l.src = some s ∧ g.node? l.dst = some d ∧ s.isOp ≠ d.isOp
  out_of_data : ∀ {s : Node}, g.node? l.src = some s → s.isOp = false → l.out = 0
  inp_of_data : ∀ {d : Node}, g.node? l.dst = some d → d.isOp = false → l.inp = 0
  inp_free : ∀ e ∈ g.edges, e.dst = l.dst → e.inp ≠ l.inp
  out_free : ∀ {s : Node}, g.node? l.src = some s → s.isOp = true →
    ∀ e ∈ g.edges, e.src = l.src → e.out ≠ l.out

lemma WellFormed.pushLink (hg : g.WellFormed) {l : Link} (hl : g.Free l)
    {hsrc : (g.node? l.src).isSome} {hdst : (g.node? l.dst).isSome} :
    (g.pushLink l hsrc hdst).WellFormed := by
  constructor
  all_goals simp only [node?_pushLink, mem_edges_pushLink]
  · exact hg.name_unique
  · rintro e (he | rfl)
    · exact hg.ends he
    · exact hl.ends
  · rintro e s (he | rfl) hs
    · exact hg.out_of_data he hs
    · exact hl.out_of_data hs
  · rintro e d (he | rfl) hd
    · exact hg.inp_of_data he hd
    · exact hl.inp_of_data hd
  · rintro e f (he | rfl) (hf | rfl) hdst hinp
    · exact hg.inp_unique he hf hdst hinp
    · exact absurd hinp (hl.inp_free e he hdst)
    · exact absurd hinp.symm (hl.inp_free f hf hdst.symm)
    · rfl
  · rintro e f s (he | rfl) (hf | rfl) hs hop hsrc hout
    · exact hg.out_unique he hf hs hop hsrc hout
    · rw [hsrc] at hs
      exact absurd hout (hl.out_free hs hop e he hsrc)
    · exact absurd hout.symm (hl.out_free hs hop f hf hsrc.symm)
    · rfl

/-- The port of an edge out of an operation may be changed to one that is free. -/
lemma WellFormed.setOutPort (hg : g.WellFormed) {e : Edge} (he : e ∈ g.edges) {s : Node}
    (hs : g.node? e.src = some s) (hop : s.isOp = true) {port : Nat}
    (hport : ∀ f ∈ g.edges, f.src = e.src → f.id ≠ e.id → f.out ≠ port) :
    (g.setOutPort e.id port).WellFormed := by
  -- an edge after the change, and the one it was
  have hold : ∀ {f : Edge}, f ∈ (g.setOutPort e.id port).edges →
      (f ∈ g.edges ∧ f.id ≠ e.id) ∨ f = { e with out := port } := by
    intro f hf
    rcases mem_edges_setOutPort.1 hf with hf | ⟨e', he', hid, rfl⟩
    · exact Or.inl hf
    · rw [eq_of_mem_edges he' he hid]
      exact Or.inr rfl
  constructor
  · exact hg.name_unique
  · intro f hf
    rcases hold hf with ⟨hf, -⟩ | rfl
    · exact hg.ends hf
    · obtain ⟨s', d', hends⟩ := hg.ends he
      exact ⟨s', d', hends⟩
  · intro f t hf ht hdata
    rcases hold hf with ⟨hf, -⟩ | rfl
    · exact hg.out_of_data hf ht hdata
    · have : s = t := Option.some.inj (hs.symm.trans ht)
      rw [← this, hop] at hdata
      cases hdata
  · intro f d hf hd hdata
    rcases hold hf with ⟨hf, -⟩ | rfl
    · exact hg.inp_of_data hf hd hdata
    · have hzero : e.inp = 0 := hg.inp_of_data he hd hdata
      exact hzero
  · intro f f' hf hf' hdst hinp
    rcases hold hf with ⟨hf, hne⟩ | rfl <;> rcases hold hf' with ⟨hf', hne'⟩ | rfl
    · exact hg.inp_unique hf hf' hdst hinp
    · exact absurd (congrArg Edge.id (hg.inp_unique hf he hdst hinp)) hne
    · exact absurd (congrArg Edge.id (hg.inp_unique hf' he hdst.symm hinp.symm)) hne'
    · rfl
  · intro f f' t hf hf' ht htop hsrc hout
    rcases hold hf with ⟨hf, hne⟩ | rfl <;> rcases hold hf' with ⟨hf', hne'⟩ | rfl
    · exact hg.out_unique hf hf' ht htop hsrc hout
    · exact absurd hout (hport f hf hsrc hne)
    · exact absurd hout.symm (hport f' hf' hsrc.symm hne')
    · rfl

/-! ### Deciding -/

/-- Does the edge join an operation and a data node, on port zero of the data node? -/
def joins (g : Graph) (e : Edge) : Bool :=
  (g.node? e.src).any fun s => (g.node? e.dst).any fun d =>
    s.isOp != d.isOp && (s.isOp || e.out == 0) && (d.isOp || e.inp == 0)

/-- Is the edge one out of an operation? -/
def leavesOp (g : Graph) (e : Edge) : Bool := (g.node? e.src).any (·.isOp)

lemma joins_iff {e : Edge} : g.joins e = true ↔ ∃ s d, g.node? e.src = some s ∧
    g.node? e.dst = some d ∧ s.isOp ≠ d.isOp ∧ (s.isOp = false → e.out = 0) ∧
    (d.isOp = false → e.inp = 0) := by
  have himp (b : Bool) (p : Prop) : (b = true ∨ p) ↔ (b = false → p) := by cases b <;> simp
  simp only [joins, Option.any_eq_true, Bool.and_eq_true, bne_iff_ne, Bool.or_eq_true, beq_iff_eq,
    himp, exists_and_left, and_assoc]

/-- Whether a graph is well-formed can be told from its nodes and its edges one by one. -/
lemma wellFormed_iff : g.WellFormed ↔ (g.entries.map (·.2.name)).Nodup ∧
    (∀ e ∈ g.edges, g.joins e = true) ∧ (g.edges.map fun e => (e.dst, e.inp)).Nodup ∧
    ((g.edges.filter g.leavesOp).map fun e => (e.src, e.out)).Nodup := by
  constructor
  · intro hg
    refine ⟨List.Nodup.map_on ?_ (List.Nodup.of_map _ g.nodup_entryIds), fun e he => ?_,
      g.nodup_edges.map_on ?_, (g.nodup_edges.filter _).map_on ?_⟩
    · rintro ⟨i, m⟩ hm ⟨j, n⟩ hn hname
      obtain rfl := hg.name_unique (mem_entries.1 hm) (mem_entries.1 hn) hname
      exact congrArg _ (Option.some.inj ((mem_entries.1 hm).symm.trans (mem_entries.1 hn)))
    · obtain ⟨s, d, hs, hd, hne⟩ := hg.ends he
      exact joins_iff.2 ⟨s, d, hs, hd, hne, hg.out_of_data he hs, hg.inp_of_data he hd⟩
    · intro e he f hf heq
      exact hg.inp_unique he hf (Prod.mk.inj heq).1 (Prod.mk.inj heq).2
    · intro e he f hf heq
      obtain ⟨he, hop⟩ := List.mem_filter.1 he
      obtain ⟨s, hs, hop⟩ := (Option.any_eq_true ..).1 hop
      exact hg.out_unique he (List.mem_filter.1 hf).1 hs hop (Prod.mk.inj heq).1
        (Prod.mk.inj heq).2
  · rintro ⟨hnames, hjoins, hinputs, houtputs⟩
    have hends {e : Edge} (he : e ∈ g.edges) := joins_iff.1 (hjoins e he)
    constructor
    · intro i j m n hm hn hname
      have heq := List.inj_on_of_nodup_map hnames (mem_entries.2 hm) (mem_entries.2 hn) hname
      exact (Prod.mk.inj heq).1
    · intro e he
      obtain ⟨s, d, hs, hd, hne, -⟩ := hends he
      exact ⟨s, d, hs, hd, hne⟩
    · intro e s he hs
      obtain ⟨s', d, hs', -, -, hout, -⟩ := hends he
      exact Option.some.inj (hs'.symm.trans hs) ▸ hout
    · intro e d he hd
      obtain ⟨s, d', -, hd', -, -, hinp⟩ := hends he
      exact Option.some.inj (hd'.symm.trans hd) ▸ hinp
    · intro e f he hf hdst hinp
      exact List.inj_on_of_nodup_map hinputs he hf (Prod.ext hdst hinp)
    · intro e f s he hf hs hop hsrc hout
      have hleaves {k : Edge} (hk : k.src = e.src) : g.leavesOp k = true := by
        simp [leavesOp, hk, hs, hop]
      exact List.inj_on_of_nodup_map houtputs (List.mem_filter.2 ⟨he, hleaves rfl⟩)
        (List.mem_filter.2 ⟨hf, hleaves hsrc.symm⟩) (Prod.ext hsrc hout)

instance : Decidable g.WellFormed := decidable_of_iff' _ wellFormed_iff

end Graph

end TensorGraph
