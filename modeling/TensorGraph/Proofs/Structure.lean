import TensorGraph.Proofs.Orderly
import TensorGraph.Proofs.WellFormed

/-!
What the edits of the structure do, and that they keep graphs well-formed.

The edits that make one change leave the graph as it is when they fail; the others are made of
these. Removing a node first removes its edges, and closing the gaps in the output ports moves
one edge at a time to a port that no other edge of the operation has. So to be well-formed is an
invariant (`invariant_wellFormed`).
-/

namespace TensorGraph.Edit

variable {α : Type} {g h : Graph}

lemma wellFormed_revision (hg : g.WellFormed) (r : Nat) :
    Graph.WellFormed { g with revision := r } := hg.congr (fun _ => rfl) rfl

lemma wellFormed_stage (hg : g.WellFormed) (s : Stage) :
    Graph.WellFormed { g with stage := s } := hg.congr (fun _ => rfl) rfl

lemma keeps_change {f : Graph → Graph} (hf : ∀ g, g.WellFormed → (f g).WellFormed) :
    Keeps Graph.WellFormed (change f) := fun g hg => wellFormed_revision (hf g hg) _

/-! ### Nodes -/

lemma atomic_addNode (name : String) (c : Content) : Atomic (addNode name c) := by
  refine atomic_bind reads_current fun g => ?_
  split
  · exact atomic_change _ _
  · exact fun _ _ _ => rfl

lemma gives_addNode {name : String} {c : Content} {id : NodeId} :
    Gives (addNode name c) g id h ↔ ∃ hfree : g.contains name = false, id = ⟨g.nodes.next⟩ ∧
      h = { g.pushNode ⟨name, c⟩ hfree with revision := g.revision + 1 } := by
  unfold addNode
  simp only [gives_bind, gives_current, Graph.next_nodes]
  constructor
  · rintro ⟨_, _, ⟨rfl, rfl⟩, hrest⟩
    split at hrest
    · next hfree =>
      simp only [gives_bind, gives_change, gives_pure] at hrest
      obtain ⟨_, _, rfl, rfl, rfl⟩ := hrest
      exact ⟨hfree, rfl, rfl⟩
    · exact absurd hrest gives_fail
  · rintro ⟨hfree, rfl, rfl⟩
    refine ⟨g, g, ⟨rfl, rfl⟩, ?_⟩
    rw [dif_pos hfree]
    simp only [gives_bind, gives_change, gives_pure]
    exact ⟨(), _, rfl, trivial, rfl⟩

lemma keeps_addNode (name : String) (c : Content) : Keeps Graph.WellFormed (addNode name c) := by
  refine (atomic_addNode name c).keeps fun g id h hg hx => ?_
  obtain ⟨hfree, -, rfl⟩ := gives_addNode.1 hx
  exact wellFormed_revision (hg.pushNode hfree) _

lemma keeps_touch (id : NodeId) : Keeps Graph.WellFormed (touch id) :=
  keeps_bind (keeps_change fun _ hg => hg) fun _ => keeps_query _

lemma keeps_modifyOp (id : NodeId) (f : Operation → Operation) :
    Keeps Graph.WellFormed (modifyOp id f) :=
  keeps_bind (keeps_change fun _ hg => hg.modifyOp id f) fun _ =>
    keeps_bind (keeps_query _) fun _ => keeps_pure _

lemma keeps_modifyFact (id : NodeId) (f : Fact → Fact) :
    Keeps Graph.WellFormed (modifyFact id f) :=
  keeps_bind (keeps_change fun _ hg => hg.modifyFact id f) fun _ =>
    keeps_bind (keeps_query _) fun _ => keeps_pure _

/-! ### Edges -/

lemma ensure_eq_ok {p : Prop} [Decidable p] {e : Error} {u : Unit} :
    ensure p e = .ok u ↔ p := by
  unfold ensure
  split <;> simp [*]

lemma atomic_addEdge (src dst : NodeId) (out inp : Nat) : Atomic (addEdge src dst out inp) := by
  unfold addEdge
  refine atomic_bind (fun _ => rfl) fun g => ?_
  refine atomic_bind (reads_lift _) fun s => atomic_bind (reads_lift _) fun d => ?_
  refine atomic_bind (reads_lift _) fun _ => ?_
  split
  · refine atomic_bind (reads_lift _) fun _ => atomic_bind (reads_lift _) fun _ => ?_
    exact atomic_bind (reads_lift _) fun _ => atomic_change _ _
  · exact atomic_bind (reads_lift _) fun _ => atomic_bind (reads_lift _) fun _ => atomic_change _ _

/-- What adding an edge checks at its two ends. -/
def Joinable (g : Graph) (src dst : NodeId) (out inp : Nat) (s d : Node) : Prop :=
  s.isOp = true ∧ d.isOp = false ∧ g.incoming dst = [] ∧ inp = 0 ∧
      (∀ e ∈ g.outgoing src, e.out ≠ out) ∨
    s.isOp = false ∧ d.isOp = true ∧ out = 0 ∧ ∀ e ∈ g.incoming dst, e.inp ≠ inp

lemma gives_addEdge {src dst : NodeId} {out inp : Nat} {i : EdgeId} :
    Gives (addEdge src dst out inp) g i h ↔
      (∃ s d, g.node? src = some s ∧ g.node? dst = some d ∧ Joinable g src dst out inp s d) ∧
      i = ⟨g.links.next⟩ ∧ ∃ hsrc hdst,
        h = { g.pushLink ⟨src, dst, out, inp⟩ hsrc hdst with revision := g.revision + 1 } := by
  unfold addEdge Joinable
  simp only [gives_bind, gives_current, gives_lift, ensure_eq_ok, Graph.next_links]
  constructor
  · rintro ⟨_, _, ⟨rfl, rfl⟩, ⟨s, hs⟩, _, ⟨-, rfl⟩, ⟨d, hd⟩, _, ⟨-, rfl⟩, _, _, ⟨hne, rfl⟩, hrest⟩
    have hsn := Graph.node?_of_record? hs
    have hdn := Graph.node?_of_record? hd
    rcases hdop : d.isOp
    · have hsop : s.isOp = true := by simpa [hdop] using hne
      rw [if_pos (by simp [Node.isData_eq, hdop])] at hrest
      simp only [gives_bind, gives_lift, gives_change, gives_pure, ensure_eq_ok,
        Graph.mem_edgesOf_outputs hs, Graph.inputs_eq_nil_iff hd] at hrest
      obtain ⟨_, _, ⟨h1, rfl⟩, _, _, ⟨h2, rfl⟩, _, _, ⟨h3, rfl⟩, _, _, rfl, rfl, rfl⟩ := hrest
      exact ⟨⟨s.toNode, d.toNode, hsn, hdn, Or.inl ⟨hsop, hdop, h1, h2, h3⟩⟩, rfl,
        Graph.node?_isSome hs, Graph.node?_isSome hd, rfl⟩
    · have hsop : s.isOp = false := by simpa [hdop] using hne
      rw [if_neg (by simp [Node.isData_eq, hdop])] at hrest
      simp only [gives_bind, gives_lift, gives_change, gives_pure, ensure_eq_ok,
        Graph.mem_edgesOf_inputs hd] at hrest
      obtain ⟨_, _, ⟨h1, rfl⟩, _, _, ⟨h2, rfl⟩, _, _, rfl, rfl, rfl⟩ := hrest
      exact ⟨⟨s.toNode, d.toNode, hsn, hdn, Or.inr ⟨hsop, hdop, h1, h2⟩⟩, rfl,
        Graph.node?_isSome hs, Graph.node?_isSome hd, rfl⟩
  · rintro ⟨⟨s, d, hs, hd, hports⟩, rfl, hsrc, hdst, rfl⟩
    obtain ⟨s, hsr, rfl⟩ := Option.map_eq_some_iff.1 hs
    obtain ⟨d, hdr, rfl⟩ := Option.map_eq_some_iff.1 hd
    refine ⟨g, g, ⟨rfl, rfl⟩, ⟨s, hsr⟩, g, ⟨Graph.record_eq hsr, rfl⟩, ⟨d, hdr⟩, g,
      ⟨Graph.record_eq hdr, rfl⟩, (), g, ?_⟩
    rcases hports with ⟨hsop, hdop, h1, h2, h3⟩ | ⟨hsop, hdop, h1, h2⟩
    · refine ⟨⟨by rw [hsop, hdop]; decide, rfl⟩, ?_⟩
      rw [if_pos (by simp [Node.isData_eq, hdop])]
      simp only [gives_bind, gives_lift, gives_change, gives_pure, ensure_eq_ok,
        Graph.mem_edgesOf_outputs hsr, Graph.inputs_eq_nil_iff hdr]
      exact ⟨(), g, ⟨h1, rfl⟩, (), g, ⟨h2, rfl⟩, (), g, ⟨h3, rfl⟩, (), _, rfl, trivial, rfl⟩
    · refine ⟨⟨by rw [hsop, hdop]; decide, rfl⟩, ?_⟩
      rw [if_neg (by simp [Node.isData_eq, hdop])]
      simp only [gives_bind, gives_lift, gives_change, gives_pure, ensure_eq_ok,
        Graph.mem_edgesOf_inputs hdr]
      exact ⟨(), g, ⟨h1, rfl⟩, (), g, ⟨h2, rfl⟩, (), _, rfl, trivial, rfl⟩

/-- In a well-formed graph the checks pass exactly where an edge is free. -/
lemma free_iff (hg : g.WellFormed) {l : Link} : g.Free l ↔
    ∃ s d, g.node? l.src = some s ∧ g.node? l.dst = some d ∧
      Joinable g l.src l.dst l.out l.inp s d := by
  constructor
  · rintro ⟨⟨s, d, hs, hd, hne⟩, hout, hinp, hinpFree, houtFree⟩
    refine ⟨s, d, hs, hd, ?_⟩
    rcases hdop : d.isOp
    · have hsop : s.isOp = true := by simpa [hdop] using hne
      refine Or.inl ⟨hsop, hdop, ?_, hinp hd hdop, fun e he => ?_⟩
      · rw [List.eq_nil_iff_forall_not_mem]
        intro e he
        obtain ⟨hmem, hdst⟩ := Graph.mem_incoming.1 he
        refine hinpFree e hmem hdst ?_
        rw [hg.inp_of_data hmem (hdst ▸ hd) hdop, hinp hd hdop]
      · obtain ⟨hmem, hsrc⟩ := Graph.mem_outgoing.1 he
        exact houtFree hs hsop e hmem hsrc
    · have hsop : s.isOp = false := by simpa [hdop] using hne
      refine Or.inr ⟨hsop, hdop, hout hs hsop, fun e he => ?_⟩
      obtain ⟨hmem, hdst⟩ := Graph.mem_incoming.1 he
      exact hinpFree e hmem hdst
  · rintro ⟨s, d, hs, hd, ⟨hsop, hdop, h1, h2, h3⟩ | ⟨hsop, hdop, h1, h2⟩⟩
    · refine ⟨⟨s, d, hs, hd, by simp [hsop, hdop]⟩, ?_, fun _ _ => h2, ?_, ?_⟩
      · intro s' hs' hdata
        rw [hs, Option.some.injEq] at hs'
        rw [← hs', hsop] at hdata
        cases hdata
      · intro e he hdst
        have hmem : e ∈ g.incoming l.dst := Graph.mem_incoming.2 ⟨he, hdst⟩
        rw [h1] at hmem
        cases hmem
      · exact fun _ _ e he hsrc => h3 e (Graph.mem_outgoing.2 ⟨he, hsrc⟩)
    · refine ⟨⟨s, d, hs, hd, by simp [hsop, hdop]⟩, fun _ _ => h1, ?_, ?_, ?_⟩
      · intro d' hd' hdata
        rw [hd, Option.some.injEq] at hd'
        rw [← hd', hdop] at hdata
        cases hdata
      · exact fun e he hdst => h2 e (Graph.mem_incoming.2 ⟨he, hdst⟩)
      · intro s' hs' hop
        rw [hs, Option.some.injEq] at hs'
        rw [← hs', hsop] at hop
        cases hop

lemma keeps_addEdge (src dst : NodeId) (out inp : Nat) :
    Keeps Graph.WellFormed (addEdge src dst out inp) := by
  refine (atomic_addEdge src dst out inp).keeps fun g i h hg hx => ?_
  obtain ⟨hfree, -, -, -, rfl⟩ := gives_addEdge.1 hx
  exact wellFormed_revision (hg.pushLink ((free_iff hg (l := ⟨src, dst, out, inp⟩)).2 hfree)) _

lemma gives_removeEdge {i : EdgeId} {e : Edge} :
    Gives (removeEdge i) g e h ↔
      g.edge? i = some e ∧ h = { g.eraseEdge i with revision := g.revision + 1 } := by
  unfold removeEdge
  simp only [gives_bind, gives_query, gives_change, gives_pure, Graph.edge_eq_ok]
  constructor
  · rintro ⟨_, _, ⟨he, rfl⟩, _, _, rfl, rfl, rfl⟩
    exact ⟨he, rfl⟩
  · rintro ⟨he, rfl⟩
    exact ⟨e, g, ⟨he, rfl⟩, (), _, rfl, rfl, rfl⟩

lemma keeps_removeEdge (i : EdgeId) : Keeps Graph.WellFormed (removeEdge i) :=
  keeps_bind (keeps_query _) fun _ =>
    keeps_bind (keeps_change fun _ hg => hg.eraseEdge i) fun _ => keeps_pure _

/-- Removing edges leaves the nodes and the other edges. -/
lemma gives_removeEdges {ids : List EdgeId} {u : Unit} (hx : Gives (removeEdges ids) g u h) :
    h.nodes = g.nodes ∧ ∀ e, e ∈ h.edges ↔ e ∈ g.edges ∧ e.id ∉ ids := by
  induction ids generalizing g with
  | nil =>
    obtain ⟨-, rfl⟩ := gives_pure.1 hx
    simp
  | cons i ids ih =>
    obtain ⟨u', g', hfirst, hrest⟩ := gives_bind.1 hx
    obtain ⟨e, he⟩ := gives_discard.1 hfirst
    obtain ⟨-, rfl⟩ := gives_removeEdge.1 he
    obtain ⟨hnodes, hedges⟩ := ih hrest
    refine ⟨hnodes.trans (Graph.nodes_eraseEdge i), fun f => ?_⟩
    have hmem : f ∈ (g.eraseEdge i).edges ↔
        f ∈ g.edges ∧ f.id ≠ i := Graph.mem_edges_eraseEdge
    rw [hedges, List.mem_cons, not_or, ← and_assoc]
    exact and_congr_left' hmem

/-- Once the edges stored with a node are removed there are no edges at it. -/
lemma free_of_removeEdges {id : NodeId} {r : Record} (hr : g.record? id = some r) {u : Unit}
    (hx : Gives (removeEdges (r.inputs ++ r.outputs)) g u h) :
    ∀ e ∈ h.edges, e.src ≠ id ∧ e.dst ≠ id := by
  intro e he
  obtain ⟨hmem, hid⟩ := ((gives_removeEdges hx).2 e).1 he
  rw [Graph.mem_stored hr] at hid
  exact ⟨fun hsrc => hid ⟨e, hmem, .inl hsrc, rfl⟩, fun hdst => hid ⟨e, hmem, .inr hdst, rfl⟩⟩

/-- What holds of every graph in between holds after a node is removed: its edges go first, and
then the node is taken out of the tables alone. -/
lemma keeps_removeNode_of {P : Graph → Prop} (hedge : ∀ i, Keeps P (removeEdge i))
    (hnode : ∀ {g : Graph} {id : NodeId}, P g → (∀ e ∈ g.edges, e.src ≠ id ∧ e.dst ≠ id) →
      P { g.eraseNode id with revision := g.revision + 1 }) (id : NodeId) (cascade : Bool) :
    Keeps P (removeNode id cascade) := by
  intro g hg
  refine graph_reads_bind_of reads_current hg fun g' hcur => ?_
  obtain rfl : g = g' := Except.ok.inj hcur
  refine graph_reads_bind_of (reads_lift _) hg fun ⟨r, hr⟩ _ => ?_
  refine graph_reads_bind_of (reads_lift _) hg fun _ _ => ?_
  have hedges (ids : List EdgeId) : Keeps P (removeEdges ids) :=
    keeps_forM fun i _ => keeps_discard (hedge i)
  exact graph_bind_of (hedges _ g hg) fun _ h hx =>
    hnode (hx.keeps (hedges _) hg) (free_of_removeEdges hr hx)

lemma keeps_removeNode (id : NodeId) (cascade : Bool) :
    Keeps Graph.WellFormed (removeNode id cascade) :=
  keeps_removeNode_of keeps_removeEdge
    (fun hg hfree => wellFormed_revision (hg.eraseNode hfree) _) id cascade

/-! ### Moving edges -/

lemma inEdges_eq_ok {id : NodeId} {l : List Edge} :
    g.inEdges id = .ok l ↔ (∃ n, g.node? id = some n) ∧ l = g.incoming id := by
  rw [Graph.inEdges_eq, Graph.node]
  rcases g.node? id with _ | n
  · simp [bind, Except.bind]
  · simp [bind, Except.bind, pure, Except.pure, eq_comm]

/-- An edge that is added after another is removed stands in its place. -/
lemma edges_of_replaced {src dst : NodeId} {out inp : Nat} {e f : Edge} {i : EdgeId} {k : Graph}
    (he : e ∈ g.edges) (hremove : Gives (removeEdge e.id) g f k)
    (hadd : Gives (addEdge src dst out inp) k i h) : h.nodes = g.nodes ∧
      ∀ c, c ∈ h.edges ↔ c ∈ g.edges ∧ c ≠ e ∨ c = ⟨⟨src, dst, out, inp⟩, i⟩ := by
  obtain ⟨-, rfl⟩ := gives_removeEdge.1 hremove
  obtain ⟨-, rfl, hsrc, hdst, rfl⟩ := gives_addEdge.1 hadd
  refine ⟨(Graph.nodes_pushLink hsrc hdst).trans (Graph.nodes_eraseEdge e.id), fun c => ?_⟩
  refine (Graph.mem_edges_of_push (Graph.links_pushLink hsrc hdst)).trans (or_congr_left ?_)
  refine Graph.mem_edges_eraseEdge.trans (and_congr_right fun hc => not_congr ⟨fun hid => ?_, ?_⟩)
  · exact Graph.eq_of_mem_edges hc he hid
  · rintro rfl
    rfl

/-- Rewiring the input port that an edge leads to puts another edge in its place. -/
lemma gives_rewireInput (hg : g.WellFormed) {e : Edge} (he : e ∈ g.edges) {data : NodeId}
    (hx : Gives (rewireInput e.dst e.inp data) g () h) : h.nodes = g.nodes ∧
      ∃ i, ∀ c, c ∈ h.edges ↔
        c ∈ g.edges ∧ c ≠ e ∨
          c = { src := data, dst := e.dst, out := 0, inp := e.inp, id := i } := by
  obtain ⟨ins, _, hquery, hrest⟩ := gives_bind.1 hx
  obtain ⟨hins, rfl⟩ := gives_query.1 hquery
  obtain ⟨-, rfl⟩ := inEdges_eq_ok.1 hins
  rw [hg.find?_incoming.2 ⟨he, rfl, rfl⟩] at hrest
  obtain ⟨_, g₁, hremove, hadd⟩ := gives_bind.1 hrest
  obtain ⟨_, hremove⟩ := gives_discard.1 hremove
  obtain ⟨i, hadd⟩ := gives_discard.1 hadd
  obtain ⟨hnodes, hedges⟩ := edges_of_replaced he hremove hadd
  exact ⟨hnodes, i, hedges⟩

/-! ### Closing the gaps in output ports -/

lemma idxOf_add_le {l : List Nat} (hl : l.Pairwise (· < ·)) {k a : Nat} (hk : ∀ b ∈ l, k ≤ b)
    (ha : a ∈ l) : l.idxOf a + k ≤ a := by
  induction l generalizing k with
  | nil => cases ha
  | cons b l ih =>
    obtain ⟨hb, hl⟩ := List.pairwise_cons.1 hl
    rw [List.idxOf_cons]
    rcases List.mem_cons.1 ha with rfl | ha
    · have := hk a (List.mem_cons_self ..)
      simpa using this
    · have hlt := hb a ha
      have hle := ih hl (k := b + 1) (fun c hc => hb c hc) ha
      have hkb := hk b (List.mem_cons_self ..)
      have hne : (b == a) = false := by
        rw [beq_eq_false_iff_ne]
        omega
      rw [hne]
      simp only [cond_false]
      omega

lemma idxOf_lt_idxOf {l : List Nat} (hl : l.Pairwise (· < ·)) {a b : Nat} (ha : a ∈ l)
    (hb : b ∈ l) (hab : a < b) : l.idxOf a < l.idxOf b := by
  induction l with
  | nil => cases ha
  | cons c l ih =>
    obtain ⟨hc, hl⟩ := List.pairwise_cons.1 hl
    have hcb : c ≠ b := by
      rintro rfl
      rcases List.mem_cons.1 ha with rfl | ha
      · omega
      · have := hc a ha
        omega
    rw [List.idxOf_cons_ne l hcb]
    rcases List.mem_cons.1 ha with rfl | ha
    · rw [List.idxOf_cons_self]
      omega
    · have hca := hc a ha
      rw [List.idxOf_cons_ne l (by omega)]
      have := ih hl ha ((List.mem_cons.1 hb).resolve_left hcb.symm)
      omega

lemma eraseDups_of_nodup {l : List Nat} (hl : l.Nodup) : l.eraseDups = l := by
  induction l with
  | nil => rfl
  | cons a l ih =>
    obtain ⟨ha, hl⟩ := List.nodup_cons.1 hl
    have hfilter : (l.filter fun b => !b == a) = l := by
      rw [List.filter_eq_self]
      intro b hb
      have : b ≠ a := fun h => ha (h ▸ hb)
      simpa using this
    rw [List.eraseDups_cons, hfilter, ih hl]

lemma gives_renumberOutput {i : EdgeId} {port : Nat} {u : Unit} :
    Gives (renumberOutput i port) g u h ↔ (∃ e, g.edge? i = some e) ∧
      h = { g.setOutPort i port with revision := g.revision + 1 } := by
  unfold renumberOutput
  simp only [gives_bind, gives_query, gives_change, Graph.edge_eq_ok]
  constructor
  · rintro ⟨e, _, ⟨he, rfl⟩, rfl⟩
    exact ⟨⟨e, he⟩, rfl⟩
  · rintro ⟨⟨e, he⟩, rfl⟩
    exact ⟨e, g, ⟨he, rfl⟩, rfl⟩

lemma atomic_renumberOutput (i : EdgeId) (port : Nat) : Atomic (renumberOutput i port) :=
  atomic_bind (reads_query _) fun _ => atomic_change_only _

/-- What lets the edges of a list be moved one after the other: they come by rising port, no one
moves up, and no other edge of the operation stands where one of them is to go. -/
structure Movable (g : Graph) (op : NodeId) (moved : List Edge) (port : Nat → Nat) : Prop where
  source : ∃ s, g.node? op = some s ∧ s.isOp = true
  mem : ∀ e ∈ moved, e ∈ g.edges ∧ e.src = op
  rising : moved.Pairwise fun e f => e.out < f.out
  le : ∀ e ∈ moved, port e.out ≤ e.out
  mono : ∀ e ∈ moved, ∀ f ∈ moved, e.out < f.out → port e.out < port f.out
  free : ∀ f ∈ g.edges, f.src = op → f ∉ moved → ∀ e ∈ moved, f.out ≠ port e.out

lemma Movable.step {op : NodeId} {e : Edge} {moved : List Edge} {port : Nat → Nat}
    (hm : Movable g op (e :: moved) port) (r : Nat) :
    Movable { g.setOutPort e.id (port e.out) with revision := r } op moved port := by
  obtain ⟨he, hesrc⟩ := hm.mem e (List.mem_cons_self ..)
  obtain ⟨hlt, hrising⟩ := List.pairwise_cons.1 hm.rising
  have htail : ∀ f ∈ moved, f ∈ e :: moved := fun f hf => List.mem_cons_of_mem e hf
  have hne : ∀ f ∈ moved, f.id ≠ e.id := by
    intro f hf hid
    have := hlt f hf
    rw [Graph.eq_of_mem_edges (hm.mem f (htail f hf)).1 he hid] at this
    omega
  refine ⟨hm.source, ?_, hrising, fun f hf => hm.le f (htail f hf),
    fun f hf f' hf' => hm.mono f (htail f hf) f' (htail f' hf'), ?_⟩
  · intro f hf
    obtain ⟨hmem, hsrc⟩ := hm.mem f (htail f hf)
    exact ⟨Graph.mem_edges_setOutPort.2 (Or.inl ⟨hmem, hne f hf⟩), hsrc⟩
  · intro f hf hsrc hnot c hc
    rcases Graph.mem_edges_setOutPort.1 hf with ⟨hmem, hid⟩ | ⟨f', hmem, hid, rfl⟩
    · refine hm.free f hmem hsrc ?_ c (htail c hc)
      rw [List.mem_cons, not_or]
      exact ⟨fun heq => hid (congrArg Edge.id heq), hnot⟩
    · -- the edge that was moved stands below the ports still to be filled
      have := hm.mono e (List.mem_cons_self ..) c (htail c hc) (hlt c hc)
      show port e.out ≠ port c.out
      omega

lemma keeps_moves {op : NodeId} {moved : List Edge} (port : Nat → Nat)
    (hg : g.WellFormed) (hm : Movable g op moved port) :
    ((moved.forM fun e => renumberOutput e.id (port e.out)).run g).graph.WellFormed := by
  induction moved generalizing g with
  | nil => exact hg
  | cons e moved ih =>
    obtain ⟨he, hesrc⟩ := hm.mem e (List.mem_cons_self ..)
    obtain ⟨hlt, -⟩ := List.pairwise_cons.1 hm.rising
    obtain ⟨s, hs, hop⟩ := hm.source
    -- no other edge of the operation stands on the new port
    have hfree : ∀ f ∈ g.edges, f.src = e.src → f.id ≠ e.id → f.out ≠ port e.out := by
      intro f hf hsrc hid
      by_cases hmem : f ∈ moved
      · have hef := hlt f hmem
        have hle := hm.le e (List.mem_cons_self ..)
        omega
      · refine hm.free f hf (hsrc.trans hesrc) ?_ e (List.mem_cons_self ..)
        rw [List.mem_cons, not_or]
        exact ⟨fun heq => hid (congrArg Edge.id heq), hmem⟩
    have hstep : ∀ r, Graph.WellFormed { g.setOutPort e.id (port e.out) with revision := r } :=
      fun r => wellFormed_revision (hg.setOutPort he (hesrc ▸ hs) hop hfree) r
    refine graph_bind_of ?_ fun _ h hx => ?_
    · rcases hr : ((renumberOutput e.id (port e.out)).run g).result with err | u
      · rw [atomic_renumberOutput _ _ g err hr]
        exact hg
      · obtain ⟨-, hgr⟩ := gives_renumberOutput.1 (⟨hr, rfl⟩ : Gives _ g u _)
        rw [hgr]
        exact hstep _
    · obtain ⟨-, rfl⟩ := gives_renumberOutput.1 hx
      exact ih (hstep _) (hm.step _)

lemma pairwise_outgoing (g : Graph) (id : NodeId) :
    (g.outgoing id).Pairwise fun e f => e.out ≤ f.out := by
  have htotal : ∀ a b, Graph.outOrder a b = true ∨ Graph.outOrder b a = true := by
    intro a b
    simp only [Graph.outOrder, decide_eq_true_eq]
    omega
  have htrans : ∀ a b c, Graph.outOrder a b = true → Graph.outOrder b c = true →
      Graph.outOrder a c = true := by
    intro a b c
    simp only [Graph.outOrder, decide_eq_true_eq]
    omega
  rw [Graph.outgoing_eq]
  refine (pairwise_sortBy htotal htrans _).imp ?_
  intro e f hef
  simp only [Graph.outOrder, decide_eq_true_eq] at hef
  omega

/-- The edges out of an operation stand on rising ports. -/
lemma rising_outgoing (hg : g.WellFormed) {op : NodeId} {s : Node} (hs : g.node? op = some s)
    (hop : s.isOp = true) : (g.outgoing op).Pairwise fun e f => e.out < f.out := by
  have hdistinct : (g.outgoing op).Pairwise fun e f => e.out ≠ f.out := by
    refine List.Pairwise.imp_of_mem ?_ (g.nodup_outgoing op)
    intro e f he hf hne hout
    obtain ⟨he, hesrc⟩ := Graph.mem_outgoing.1 he
    obtain ⟨hf, hfsrc⟩ := Graph.mem_outgoing.1 hf
    exact hne (hg.out_unique he hf (hesrc ▸ hs) hop (hesrc.trans hfsrc.symm) hout)
  refine (List.pairwise_and_iff.2 ⟨pairwise_outgoing g op, hdistinct⟩).imp ?_
  rintro e f ⟨hle, hne⟩
  omega

/-- The ports in use have their places in the list below themselves, in the same order. -/
lemma movable_outgoing (hg : g.WellFormed) {op : NodeId} {s : Node} (hs : g.node? op = some s)
    (hop : s.isOp = true) (ports : List Nat) (hports : ports = (g.outgoing op).map (·.out)) :
    Movable g op ((g.outgoing op).filter fun e => ports.idxOf e.out ≠ e.out) ports.idxOf := by
  have hrising := rising_outgoing hg hs hop
  have hsorted : ports.Pairwise (· < ·) := by
    rw [hports, List.pairwise_map]
    exact hrising
  have hin : ∀ f ∈ g.edges, f.src = op → f.out ∈ ports := by
    intro f hf hsrc
    rw [hports]
    exact List.mem_map_of_mem (Graph.mem_outgoing.2 ⟨hf, hsrc⟩)
  have hmem : ∀ e ∈ (g.outgoing op).filter fun e => ports.idxOf e.out ≠ e.out,
      (e ∈ g.edges ∧ e.src = op) ∧ ports.idxOf e.out ≠ e.out := by
    intro e he
    obtain ⟨he, hne⟩ := List.mem_filter.1 he
    exact ⟨Graph.mem_outgoing.1 he, by simpa using hne⟩
  refine ⟨⟨s, hs, hop⟩, fun e he => (hmem e he).1, hrising.filter _, ?_, ?_, ?_⟩
  · intro e he
    obtain ⟨⟨he, hsrc⟩, -⟩ := hmem e he
    exact idxOf_add_le hsorted (k := 0) (fun _ _ => Nat.zero_le _) (hin e he hsrc)
  · intro e he f hf hlt
    obtain ⟨⟨he, hesrc⟩, -⟩ := hmem e he
    obtain ⟨⟨hf, hfsrc⟩, -⟩ := hmem f hf
    exact idxOf_lt_idxOf hsorted (hin e he hesrc) (hin f hf hfsrc) hlt
  · intro f hf hsrc hnot e he hout
    obtain ⟨⟨he, hesrc⟩, hmoves⟩ := hmem e he
    -- an edge that stays stands at the place of its port
    have hstays : ports.idxOf f.out = f.out := by
      by_contra hne
      exact hnot (List.mem_filter.2 ⟨Graph.mem_outgoing.2 ⟨hf, hsrc⟩, by simpa using hne⟩)
    have hplace : ports.idxOf f.out = ports.idxOf e.out := hstays.trans hout
    rcases Nat.lt_trichotomy f.out e.out with hlt | heq | hlt
    · have := idxOf_lt_idxOf hsorted (hin f hf hsrc) (hin e he hesrc) hlt
      omega
    · rw [← heq] at hmoves
      exact hmoves hstays
    · have := idxOf_lt_idxOf hsorted (hin e he hesrc) (hin f hf hsrc) hlt
      omega

lemma outEdges_eq_ok {id : NodeId} {l : List Edge} :
    g.outEdges id = .ok l ↔ (∃ n, g.node? id = some n) ∧ l = g.outgoing id := by
  rw [Graph.outEdges_eq, Graph.node]
  rcases g.node? id with _ | n
  · simp [bind, Except.bind]
  · simp [bind, Except.bind, pure, Except.pure, eq_comm]

/-- The ports of a data node have no gaps. -/
lemma filter_moved_of_data (hg : g.WellFormed) {op : NodeId} {s : Node}
    (hs : g.node? op = some s) (hdata : s.isOp = false) :
    ((g.outgoing op).filter fun e => (portsOf (g.outgoing op)).idxOf e.out ≠ e.out) = [] := by
  have hzero : ∀ e ∈ g.outgoing op, e.out = 0 := by
    intro e he
    obtain ⟨hmem, hsrc⟩ := Graph.mem_outgoing.1 he
    exact hg.out_of_data hmem (hsrc ▸ hs) hdata
  rw [List.filter_eq_nil_iff]
  intro e he
  rw [hzero e he]
  rcases hl : g.outgoing op with _ | ⟨f, l⟩
  · rw [hl] at he
    cases he
  · have hf : f.out = 0 := hzero f (by rw [hl]; exact List.mem_cons_self ..)
    simp [portsOf, List.eraseDups_cons, hf]

lemma portsOf_outgoing (hg : g.WellFormed) {op : NodeId} {s : Node} (hs : g.node? op = some s)
    (hop : s.isOp = true) : portsOf (g.outgoing op) = (g.outgoing op).map (·.out) := by
  refine eraseDups_of_nodup ?_
  rw [List.Nodup, List.pairwise_map]
  exact (rising_outgoing hg hs hop).imp fun hlt => Nat.ne_of_lt hlt

lemma keeps_compactOutputs (op : NodeId) : Keeps Graph.WellFormed (compactOutputs op) := by
  intro g hg
  refine graph_reads_bind_of (reads_query _) hg fun edges hedges => ?_
  obtain ⟨⟨s, hs⟩, rfl⟩ := outEdges_eq_ok.1 hedges
  have hmoves : ((((g.outgoing op).filter fun e =>
      (portsOf (g.outgoing op)).idxOf e.out ≠ e.out).forM fun e =>
        renumberOutput e.id ((portsOf (g.outgoing op)).idxOf e.out)).run g).graph.WellFormed := by
    rcases hop : s.isOp
    · rw [filter_moved_of_data hg hs hop]
      exact hg
    · exact keeps_moves (portsOf (g.outgoing op)).idxOf hg
        (movable_outgoing hg hs hop _ (portsOf_outgoing hg hs hop))
  exact graph_bind_of hmoves fun _ h hx => hx.2 ▸ hmoves

/-! ### Operations with their data -/

/-- The operation and its data node get the next two numbers, and nothing is known of the data. -/
lemma gives_addOpWithData {name : String} {o : Operation} {p : NodeId × NodeId}
    (hx : Gives (addOpWithData name o) g p h) :
    p = (⟨g.nodes.next⟩, ⟨g.nodes.next + 1⟩) ∧
      h.nodes = (g.nodes.push ⟨name, .op o⟩).push ⟨dataName name 0, .data .unknown⟩ ∧
      h.links = g.links.push ⟨⟨g.nodes.next⟩, ⟨g.nodes.next + 1⟩, 0, 0⟩ := by
  obtain ⟨op, g₁, hop, hx⟩ := gives_bind.1 hx
  obtain ⟨data, g₂, hdata, hx⟩ := gives_bind.1 hx
  obtain ⟨_, g₃, hedge, hx⟩ := gives_bind.1 hx
  obtain ⟨rfl, rfl⟩ := gives_pure.1 hx
  obtain ⟨hname, rfl, rfl⟩ := gives_addNode.1 hop
  obtain ⟨hname', hid, rfl⟩ := gives_addNode.1 hdata
  obtain ⟨-, -, hsrc, hdst, rfl⟩ := gives_addEdge.1 hedge
  have hnodes : (g.pushNode ⟨name, .op o⟩ hname).nodes = g.nodes.push _ :=
    Graph.nodes_pushNode hname
  obtain rfl : data = ⟨g.nodes.next + 1⟩ :=
    hid.trans (congrArg NodeId.mk ((congrArg Slots.next hnodes).trans (Slots.next_push ..)))
  exact ⟨rfl, (Graph.nodes_pushLink hsrc hdst).trans ((Graph.nodes_pushNode hname').trans
    (congrArg (Slots.push · _) hnodes)), Graph.links_pushLink hsrc hdst⟩

/-- The shape is written of data that has no value yet. -/
lemma structural_addParameter (name : String) (shape : Shape) :
    Structural (addParameter name shape) := by
  have hadd (o : Operation) : Structural (addOpWithData name o) := structural_addOpWithData name o
  have htame : Tame (addParameter name shape) :=
    orderly_bind ((hadd _).of_imp False.elim) fun _ =>
      orderly_bind (tame_modifyFact _ _) fun _ => orderly_pure _
  refine htame.orderly fun hP g hg => ?_
  refine graph_bind_of ((hadd _).keeps hP g hg) fun p h hx => ?_
  obtain ⟨rfl, hnodes, -⟩ := gives_addOpWithData hx
  have hfact : h.fact ⟨g.nodes.next + 1⟩ = .ok .unknown := by
    rw [Graph.fact, Graph.node, Graph.node?_eq_get?, hnodes, Slots.get?_push,
      if_pos (Slots.next_push ..).symm]
    rfl
  have hmodify := hP.modifyFact ⟨g.nodes.next + 1⟩ (fun f => { f with shape := some shape })
    (hx.keeps ((hadd _).keeps hP) hg) fun d hd _ t ht => by
      obtain rfl : Fact.unknown = d := Except.ok.inj (hfact.symm.trans hd)
      cases ht
  exact graph_bind_of hmodify fun _ _ hk => hk.2 ▸ hmodify

/-! ### All changes of a graph -/

lemma invariant_wellFormed : Graph.Invariant Graph.WellFormed where
  addNode := keeps_addNode
  touch := keeps_touch
  modifyOp := keeps_modifyOp
  modifyFact := keeps_modifyFact
  addEdge := keeps_addEdge
  removeEdge := keeps_removeEdge
  removeNode := keeps_removeNode
  compactOutputs := keeps_compactOutputs

lemma keeps_rewireInput (op : NodeId) (port : Nat) (data : NodeId) :
    Keeps Graph.WellFormed (rewireInput op port data) :=
  (structural_rewireInput op port data).keeps invariant_wellFormed.shaped

lemma keeps_mergeData (keep drop : NodeId) : Keeps Graph.WellFormed (mergeData keep drop) :=
  (structural_mergeData keep drop).keeps invariant_wellFormed.shaped

lemma keeps_addOpWithData (name : String) (o : Operation) :
    Keeps Graph.WellFormed (addOpWithData name o) :=
  (structural_addOpWithData name o).keeps invariant_wellFormed.shaped

lemma keeps_addConst (name : String) (value : Tensor) :
    Keeps Graph.WellFormed (addConst name value) :=
  (structural_addConst name value).keeps invariant_wellFormed.shaped

lemma keeps_removeNodes (ids : List NodeId) : Keeps Graph.WellFormed (removeNodes ids) :=
  (structural_removeNodes ids).keeps invariant_wellFormed.shaped

lemma keeps_cleanUp (fixed : String → Bool) : Keeps Graph.WellFormed (cleanUp fixed) :=
  (structural_cleanUp fixed).keeps invariant_wellFormed.shaped

end TensorGraph.Edit
