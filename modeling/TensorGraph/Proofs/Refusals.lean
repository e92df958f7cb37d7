import TensorGraph.Proofs.Merges
import TensorGraph.Proofs.Mutations

/-!
What a refused change of the structure leaves.

An edit that adds or removes one thing tests all it needs before it changes anything, and so does a
merge. Two edits do not. Rewiring an input removes the edge that is there before it is known whether
the new one can be added. Splitting data tests the edges to be moved one by one, but not whether one
of them is listed again, and it is gone when its turn comes again. `Mutation.Torn` says when this
happens, and then the graph that is left has other edges or other nodes. Any other refusal leaves
the graph as it was (`refused_unless_torn`).
-/

namespace TensorGraph

open Edit

namespace Edit

variable {g h : Graph} {id keep drop : NodeId} {cascade : Bool} {e : Error} {name : String}

/-! ### Edits that test first -/

lemma atomic_removeEdge (i : EdgeId) : Atomic (removeEdge i) :=
  atomic_bind (reads_query _) fun e => atomic_change _ e

/-- Once the test has passed, the edges of the node can be removed. -/
lemma eq_of_stops_removeNode (hg : g.WellFormed) (hx : Stops (removeNode id cascade) g e h) :
    h = g := by
  unfold removeNode at hx
  simp only [stops_bind, stops_current, stops_lift, gives_current, gives_lift, false_or] at hx
  obtain ⟨_, _, ⟨rfl, rfl⟩, ⟨-, rfl⟩ | ⟨⟨r, hr⟩, _, ⟨-, rfl⟩, ⟨-, rfl⟩ | ⟨_, _, ⟨-, rfl⟩, hx⟩⟩⟩ :=
    hx
  · rfl
  · rfl
  · obtain ⟨k, hk⟩ := exists_gives_removeStored hg hr
    rcases hx with hx | ⟨_, _, -, hx⟩
    · exact absurd hx.1 hk.not_fails
    · cases hx.1

lemma eq_of_stops_removeNamed (hg : g.WellFormed) (hx : Stops (removeNamed name cascade) g e h) :
    h = g := by
  rcases stops_bind.1 hx with hx | ⟨id, _, hquery, hx⟩
  · exact (stops_query.1 hx).2.symm
  · obtain ⟨-, rfl⟩ := gives_query.1 hquery
    exact eq_of_stops_removeNode hg hx

lemma eq_of_stops_mergeData (hg : g.WellFormed) (hx : Stops (mergeData keep drop) g e h) :
    h = g := by
  refine hx.2.symm.trans (graph_mergeData fun hok => ?_)
  obtain ⟨k, hk⟩ := (exists_gives_mergeData_iff hg).2 hok
  exact hk.not_fails hx.1

end Edit

namespace Graph

/-- A port is connected, and once the edge into it is gone an edge from `data` still cannot be added
there: there is no such node, or it is of the same sort, or a port on its side is taken. -/
def Starved (g : Graph) (op : NodeId) (port : Nat) (data : NodeId) : Prop :=
  ∃ c ∈ g.edges, c.dst = op ∧ c.inp = port ∧ ¬(g.eraseEdge c.id).Free ⟨data, op, 0, port⟩

/-- Edges out of a data node are listed, some of them twice, and the name of the copy is free. -/
structure Repeated (g : Graph) (data : NodeId) (ids : List EdgeId) (name : String) : Prop where
  twice : ¬ids.Nodup
  fact : (g.fact? data).isSome
  edges : ∀ i ∈ ids, ∃ c ∈ g.edges, c.id = i ∧ c.src = data
  free : g.contains name = false

/-- The edge was there and is gone. Its number is not given again. -/
def Retired (g : Graph) (i : EdgeId) : Prop := g.edge? i = none ∧ i.index < g.links.next

lemma free_revision {g : Graph} {l : Link} {r : Nat} :
    Graph.Free { g with revision := r } l ↔ g.Free l :=
  ⟨fun h => ⟨h.ends, h.out_of_data, h.inp_of_data, h.inp_free, h.out_free⟩,
    fun h => ⟨h.ends, h.out_of_data, h.inp_of_data, h.inp_free, h.out_free⟩⟩

end Graph

namespace Edit

variable {g h k : Graph} {op keep data : NodeId} {port : Nat} {e : Error} {i : EdgeId}
  {name : String} {ids : List EdgeId} {l : List Edge} {c : Edge}

/-! ### Rewiring -/

/-- An edge is refused exactly where it is not free. -/
lemma exists_stops_addEdge_iff (hg : g.WellFormed) {src dst : NodeId} {out inp : Nat} :
    (∃ e, Stops (addEdge src dst out inp) g e g) ↔ ¬g.Free ⟨src, dst, out, inp⟩ := by
  constructor
  · rintro ⟨e, hx⟩ hfree
    obtain ⟨s, d, hs, hd, hjoin⟩ := (free_iff hg).1 hfree
    exact (gives_addEdge.2 ⟨⟨s, d, hs, hd, hjoin⟩, rfl, Option.isSome_of_eq_some hs,
      Option.isSome_of_eq_some hd, rfl⟩).not_fails hx.1
  · intro hnot
    rcases hres : ((addEdge src dst out inp).run g).result with e | i
    · exact ⟨e, hres, atomic_addEdge src dst out inp g e hres⟩
    · obtain ⟨hjoin, -⟩ := gives_addEdge.1 ⟨hres, rfl⟩
      exact absurd ((free_iff hg).2 hjoin) hnot

lemma starved_of_stops_rewireInput (hg : g.WellFormed)
    (hx : Stops (rewireInput op port data) g e h) : h = g ∨ g.Starved op port data := by
  rcases stops_bind.1 hx with hx | ⟨es, _, hquery, hx⟩
  · exact .inl (stops_query.1 hx).2.symm
  obtain ⟨hes, rfl⟩ := gives_query.1 hquery
  obtain ⟨-, rfl⟩ := inEdges_eq_ok.1 hes
  rcases hfind : (g.incoming op).find? fun e => e.inp == port with _ | c
  · rw [hfind] at hx
    exact .inl ((stops_discard.1 hx).eq_of_atomic (atomic_addEdge _ _ _ _))
  · rw [hfind] at hx
    obtain ⟨hc, hdst, hinp⟩ := hg.find?_incoming.1 hfind
    rcases stops_bind.1 hx with hx | ⟨_, k, hremove, hx⟩
    · exact .inl ((stops_discard.1 hx).eq_of_atomic (atomic_removeEdge _))
    · -- the port is free now, and stays so
      obtain ⟨_, hremove⟩ := gives_discard.1 hremove
      obtain ⟨-, rfl⟩ := gives_removeEdge.1 hremove
      have hx := stops_discard.1 hx
      obtain rfl := hx.eq_of_atomic (atomic_addEdge _ _ _ _)
      have hnot := (exists_stops_addEdge_iff (wellFormed_revision (hg.eraseEdge c.id) _)).1 ⟨e, hx⟩
      exact .inr ⟨c, hc, hdst, hinp, Graph.free_revision.not.1 hnot⟩

/-- The edge into the port is lost. -/
lemma exists_stops_rewireInput (hg : g.WellFormed) (hs : g.Starved op port data) :
    ∃ e h, Stops (rewireInput op port data) g e h ∧ h.edges ≠ g.edges := by
  obtain ⟨c, hc, hdst, hinp, hnot⟩ := hs
  obtain ⟨-, t, -, ht, -⟩ := hg.ends hc
  let k : Graph := { g.eraseEdge c.id with revision := g.revision + 1 }
  have hremove : Gives (removeEdge c.id) g c k :=
    gives_removeEdge.2 ⟨Graph.edge?_eq_some.2 ⟨hc, rfl⟩, rfl⟩
  obtain ⟨e, hadd⟩ : ∃ e, Stops (addEdge data op 0 port) k e k :=
    (exists_stops_addEdge_iff (wellFormed_revision (hg.eraseEdge c.id) _)).2
      (Graph.free_revision.not.2 hnot)
  refine ⟨e, k, ?_, fun heq => ?_⟩
  · refine stops_bind.2 (.inr ⟨_, g, gives_query.2
      ⟨inEdges_eq_ok.2 ⟨⟨t, hdst ▸ ht⟩, rfl⟩, rfl⟩, ?_⟩)
    rw [hg.find?_incoming.2 ⟨hc, hdst, hinp⟩]
    exact stops_bind.2 (.inr ⟨(), k, gives_discard.2 ⟨c, hremove⟩, stops_discard.2 hadd⟩)
  · have hgone : c ∈ (g.eraseEdge c.id).edges := heq ▸ hc
    exact (Graph.mem_edges_eraseEdge.1 hgone).2 rfl

/-! ### Splitting -/

lemma keeps_retired_removeEdge (i j : EdgeId) : Keeps (·.Retired i) (removeEdge j) := by
  refine (atomic_removeEdge j).keeps fun g c h hg hx => ?_
  obtain ⟨-, rfl⟩ := gives_removeEdge.1 hx
  constructor
  · show (g.eraseEdge j).edge? i = none
    rw [Graph.edge?_eraseEdge, hg.1, ite_self]
  · show i.index < (g.eraseEdge j).links.next
    rw [Graph.links_eraseEdge, Slots.next_erase]
    exact hg.2

lemma keeps_retired_addEdge (i : EdgeId) (src dst : NodeId) (out inp : Nat) :
    Keeps (·.Retired i) (addEdge src dst out inp) := by
  refine (atomic_addEdge src dst out inp).keeps fun g c h hg hx => ?_
  obtain ⟨-, -, hsrc, hdst, rfl⟩ := gives_addEdge.1 hx
  constructor
  · show (g.pushLink ⟨src, dst, out, inp⟩ hsrc hdst).edge? i = none
    rw [Graph.edge?_pushLink, if_neg (Nat.ne_of_lt hg.2)]
    exact hg.1
  · show i.index < (g.pushLink ⟨src, dst, out, inp⟩ hsrc hdst).links.next
    rw [Graph.links_pushLink, Slots.next_push]
    exact Nat.lt_succ_of_lt hg.2

lemma keeps_retired_moveConsumer (i : EdgeId) (keep : NodeId) (c : Edge) :
    Keeps (·.Retired i) (moveConsumer keep c) :=
  keeps_bind (keeps_retired_removeEdge i c.id) fun _ =>
    keeps_discard (keeps_retired_addEdge i _ _ _ _)

/-- An edge that is moved is retired: another takes its place. -/
lemma retired_of_gives_moveConsumer (hx : Gives (moveConsumer keep c) g () h) :
    ¬g.Retired c.id ∧ h.Retired c.id := by
  obtain ⟨_, k, hremove, hadd⟩ := gives_bind.1 hx
  obtain ⟨i, hadd⟩ := gives_discard.1 hadd
  obtain ⟨hc, rfl⟩ := gives_removeEdge.1 hremove
  refine ⟨fun hretired => ?_, hadd.keeps (keeps_retired_addEdge c.id _ _ _ _) ⟨?_, ?_⟩⟩
  · cases hretired.1.symm.trans hc
  · exact (Graph.edge?_eraseEdge ..).trans (if_pos rfl)
  · show c.id.index < (g.eraseEdge c.id).links.next
    rw [Graph.links_eraseEdge, Slots.next_erase, Graph.next_links]
    exact Slots.lt_next_of_get?_eq_some hc

/-- Edges that are all moved are listed once. -/
lemma nodup_of_gives_moveConsumers (hx : Gives (l.forM (moveConsumer keep)) g () h) :
    (l.map (·.id)).Nodup ∧ ∀ c ∈ l, ¬g.Retired c.id := by
  induction l generalizing g with
  | nil => exact ⟨List.nodup_nil, by simp⟩
  | cons c l ih =>
    obtain ⟨_, k, hfirst, hrest⟩ := gives_bind.1 hx
    obtain ⟨hlive, hretired⟩ := retired_of_gives_moveConsumer hfirst
    obtain ⟨hnodup, hrest⟩ := ih hrest
    refine ⟨List.nodup_cons.2 ⟨fun hmem => ?_, hnodup⟩, List.forall_mem_cons.2 ⟨hlive, ?_⟩⟩
    · obtain ⟨c', hc', hid⟩ := List.mem_map.1 hmem
      exact hrest c' hc' (hid ▸ hretired)
    · exact fun c' hc' hold =>
        hrest c' hc' (hfirst.keeps (keeps_retired_moveConsumer c'.id keep c) hold)

lemma keeps_nodes_moveConsumer (keep : NodeId) (c : Edge) :
    Keeps (·.nodes = k.nodes) (moveConsumer keep c) := by
  refine keeps_bind ((atomic_removeEdge _).keeps fun g e h hg hx => ?_) fun _ =>
    keeps_discard ((atomic_addEdge _ _ _ _).keeps fun g e h hg hx => ?_)
  · obtain ⟨-, rfl⟩ := gives_removeEdge.1 hx
    exact (Graph.nodes_eraseEdge _).trans hg
  · obtain ⟨-, -, hsrc, hdst, rfl⟩ := gives_addEdge.1 hx
    exact (Graph.nodes_pushLink hsrc hdst).trans hg

lemma mem_of_mapM_edge (hmapM : ids.mapM g.edge = .ok l) :
    ∀ i ∈ ids, ∃ c ∈ l, c ∈ g.edges ∧ c.id = i := by
  induction ids generalizing l with
  | nil => simp
  | cons j ids ih =>
    rw [List.mapM_cons, bind_eq_ok] at hmapM
    obtain ⟨c, hc, hrest⟩ := hmapM
    obtain ⟨cs, hcs, heq⟩ := bind_eq_ok.1 hrest
    cases heq
    refine List.forall_mem_cons.2 ⟨⟨c, List.mem_cons_self .., ?_⟩, fun i hi => ?_⟩
    · exact Graph.edge?_eq_some.1 (Graph.edge_eq_ok.1 hc)
    · obtain ⟨c', hc', hmem⟩ := ih hcs i hi
      exact ⟨c', List.mem_cons_of_mem c hc', hmem⟩

/-- A split that passes its tests fails where it moves edges. -/
lemma stops_splitData_iff {f : Fact} {copy : NodeId} (hf : g.fact? data = some f)
    (hmapM : ids.mapM g.edge = .ok l) (hsrc : ∀ c ∈ l, c.src = data)
    (hadd : Gives (addData name f) g copy k) :
    Stops (splitData data ids name) g e h ↔ Stops (l.forM (moveConsumer copy)) k e h := by
  have hnone : (l.find? fun c => c.src ≠ data) = none := by simpa using hsrc
  unfold splitData
  rw [(gives_query.2 ⟨Graph.fact_eq_ok.2 hf, rfl⟩ : Gives (query _) g f g).stops_bind,
    (gives_query.2 ⟨hmapM, rfl⟩ : Gives (query _) g l g).stops_bind, hnone]
  refine hadd.stops_bind.trans ?_
  simp

/-- Each test comes before the copy is made, and edges that are listed once can be moved. -/
lemma repeated_of_stops_splitData (hg : g.WellFormed) (hx : Stops (splitData data ids name) g e h) :
    h = g ∨ g.Repeated data ids name := by
  have hfails := hx.1
  rcases stops_bind.1 hx with hx | ⟨f, _, hfact, hx⟩
  · exact .inl (stops_query.1 hx).2.symm
  obtain ⟨hf, rfl⟩ := gives_query.1 hfact
  rcases stops_bind.1 hx with hx | ⟨moved, _, hquery, hx⟩
  · exact .inl (stops_query.1 hx).2.symm
  obtain ⟨hmapM, rfl⟩ := gives_query.1 hquery
  rcases hfind : moved.find? fun c => c.src ≠ data with _ | c
  · rw [hfind] at hx
    rcases stops_bind.1 hx with hx | ⟨copy, k, hadd, -⟩
    · exact .inl (hx.eq_of_atomic (atomic_addNode _ _))
    · have hids : ∀ i ∈ ids, ∃ c ∈ g.edges, c.id = i ∧ c.src = data := fun i hi => by
        obtain ⟨c, hc, hmem, hid⟩ := mem_of_mapM_edge hmapM i hi
        exact ⟨c, hmem, hid, by simpa using List.find?_eq_none.1 hfind c hc⟩
      have hname := (gives_addNode.1 hadd).1
      have hf := Graph.fact_eq_ok.1 hf
      refine .inr ⟨fun hnodup => ?_, hf ▸ rfl, hids, hname⟩
      obtain ⟨_, _, hok, -⟩ := exists_gives_splitData hg hf hnodup hids hname
      exact hok.not_fails hfails
  · rw [hfind] at hx
    exact .inl hx.2.symm

/-- The copy stays behind. -/
lemma exists_stops_splitData (hr : g.Repeated data ids name) :
    ∃ e h, Stops (splitData data ids name) g e h ∧ h.nodes ≠ g.nodes := by
  obtain ⟨f, hf⟩ := Option.isSome_iff_exists.1 hr.fact
  obtain ⟨moved, hmapM, hmap, hmem⟩ := mapM_edge hr.edges
  obtain ⟨copy, k, hadd⟩ : ∃ copy k, Gives (addData name f) g copy k :=
    ⟨_, _, gives_addNode.2 ⟨hr.free, rfl, rfl⟩⟩
  have hgrown := grown_of_gives hadd
  rcases hres : ((moved.forM (moveConsumer copy)).run k).result with e | _
  · refine ⟨e, _, (stops_splitData_iff hf hmapM (fun c hc => (hmem c hc).2) hadd).2 ⟨hres, rfl⟩,
      fun heq => ?_⟩
    have hnodes : ((moved.forM (moveConsumer copy)).run k).graph.nodes = k.nodes :=
      keeps_forM (fun c _ => keeps_nodes_moveConsumer copy c) k rfl
    have hnode : k.node? copy = g.node? copy :=
      congrFun (Graph.node?_congr (hnodes.symm.trans heq)) copy
    rw [hgrown.node?, if_pos rfl, hgrown.fresh] at hnode
    cases hnode
  · exact absurd (hmap ▸ (nodup_of_gives_moveConsumers ⟨hres, rfl⟩).1) hr.twice

end Edit

namespace Mutation

variable {g : Graph} {m : Mutation}

/-! ### Refused mutations -/

/-- The mutation is one edit of nodes and edges. -/
def IsStructural : Mutation → Prop
  | addNode _ _ | addEdge _ _ _ _ | removeEdge _ | removeNode _ _ | removeNamed _ _
  | rewireInput _ _ _ | mergeData _ _ | splitData _ _ _ => True
  | _ => False

/-- The mutation is refused when it has changed something already. -/
def Torn (g : Graph) : Mutation → Prop
  | rewireInput op port data => g.Starved op port data
  | splitData data ids name => g.Repeated data ids name
  | _ => False

/-- **Refused mutations**: an edit of nodes and edges that a well-formed graph refuses leaves the
graph as it was unless it is torn. One that is torn is refused, and leaves other edges or other
nodes. -/
theorem refused_unless_torn (hg : g.WellFormed) (hm : m.IsStructural) :
    (∀ e h, Stops m.edit g e h → h = g ∨ m.Torn g) ∧
      (m.Torn g → ∃ e h, Stops m.edit g e h ∧ (h.edges ≠ g.edges ∨ h.nodes ≠ g.nodes)) := by
  constructor
  · intro e h hx
    cases m with
    | addNode => exact .inl ((stops_discard.1 hx).eq_of_atomic (atomic_addNode _ _))
    | addEdge => exact .inl ((stops_discard.1 hx).eq_of_atomic (atomic_addEdge _ _ _ _))
    | removeEdge => exact .inl ((stops_discard.1 hx).eq_of_atomic (atomic_removeEdge _))
    | removeNode => exact .inl (eq_of_stops_removeNode hg hx)
    | removeNamed => exact .inl (eq_of_stops_removeNamed hg hx)
    | rewireInput => exact starved_of_stops_rewireInput hg hx
    | mergeData => exact .inl (eq_of_stops_mergeData hg hx)
    | splitData => exact repeated_of_stops_splitData hg (stops_discard.1 hx)
    | _ => exact hm.elim
  · intro ht
    cases m with
    | rewireInput =>
      obtain ⟨e, h, hx, hne⟩ := exists_stops_rewireInput hg ht
      exact ⟨e, h, hx, .inl hne⟩
    | splitData =>
      obtain ⟨e, h, hx, hne⟩ := exists_stops_splitData ht
      exact ⟨e, h, stops_discard.2 hx, .inr hne⟩
    | _ => exact ht.elim

/-- Feeding a port from an operation takes its data away, and listing an edge twice leaves a copy
that feeds nothing else. -/
theorem refused_unless_torn_readTwice :
    let g := (readTwice.run ∅).graph
    ∀ m ∈ [rewireInput ⟨4⟩ 0 ⟨0⟩, splitData ⟨1⟩ [⟨5⟩, ⟨5⟩] "copy"],
      ∃ e h, Stops m.edit g e h ∧ (h.edges ≠ g.edges ∨ h.nodes ≠ g.nodes) := by
  intro g
  have hg : g.WellFormed := by decide +kernel
  have hstarved : g.Starved ⟨4⟩ 0 ⟨0⟩ := by
    obtain ⟨c, hc, hdst, hinp⟩ : ∃ c ∈ g.edges, c.dst = ⟨4⟩ ∧ c.inp = 0 := by decide +kernel
    refine ⟨c, hc, hdst, hinp, fun hfree => ?_⟩
    obtain ⟨s, d, hs, hd, hne⟩ := hfree.ends
    obtain ⟨hsop, hdop⟩ : (g.node? ⟨0⟩).map (·.isOp) = some true ∧
        (g.node? ⟨4⟩).map (·.isOp) = some true := by decide +kernel
    rw [Graph.node?_eraseEdge] at hs hd
    rw [hs] at hsop
    rw [hd] at hdop
    exact hne (Option.some.inj (hsop.trans hdop.symm))
  have hrepeated : g.Repeated ⟨1⟩ [⟨5⟩, ⟨5⟩] "copy" :=
    ⟨by decide, by decide +kernel, by decide +kernel, by decide +kernel⟩
  simp only [List.forall_mem_cons, List.not_mem_nil, false_implies, implies_true, and_true]
  exact ⟨(refused_unless_torn (m := rewireInput ⟨4⟩ 0 ⟨0⟩) hg trivial).2 hstarved,
    (refused_unless_torn (m := splitData ⟨1⟩ [⟨5⟩, ⟨5⟩] "copy") hg trivial).2 hrepeated⟩

end Mutation

end TensorGraph
