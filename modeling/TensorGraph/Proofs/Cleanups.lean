import Mathlib.Data.List.Perm.Basic
import TensorGraph.Proofs.Gaps
import TensorGraph.Proofs.Reach

/-!
What a clean-up leaves.

A graph is tidy when every node is live, no data node stands alone, and the output ports of its
operations have no gaps where they may be renumbered. A clean-up leaves a tidy graph
(`Cleaned.tidy`), and a tidy graph as it is (`gives_cleanUp_of_tidy`). In between, it only takes
nodes away with their edges (`Graph.Without`) and moves edges to other output ports
(`Graph.Renumbered`), and reports both (`gives_cleanUp`).
-/

namespace TensorGraph

open Edit

namespace Graph

variable {g h k : Graph} {id op : NodeId} {l m : List NodeId}

/-! ### Nodes that are taken away -/

/-- `h` is `g` without some nodes and the edges at them. -/
structure Without (g h : Graph) (l : List NodeId) : Prop where
  node? : ∀ id, h.node? id = if id ∈ l then none else g.node? id
  edges : ∀ e, e ∈ h.edges ↔ e ∈ g.edges ∧ e.src ∉ l ∧ e.dst ∉ l

lemma Without.node?_eq_some (hl : g.Without h l) {n : Node} :
    h.node? id = some n ↔ g.node? id = some n ∧ id ∉ l := by
  rw [hl.node?]
  by_cases hid : id ∈ l <;> simp [hid]

lemma Without.node?_of_ne (hl : g.Without h [op]) (hne : id ≠ op) : h.node? id = g.node? id := by
  rw [hl.node?, if_neg (by simpa using hne)]

lemma Without.mem_edges (hl : g.Without h [id]) {e : Edge} :
    e ∈ h.edges ↔ e ∈ g.edges ∧ e.src ≠ id ∧ e.dst ≠ id := by
  simpa using hl.edges e

lemma Without.refl (g : Graph) : g.Without g [] := ⟨fun _ => by simp, fun _ => by simp⟩

lemma Without.trans (hl : g.Without h l) (hm : h.Without k m) : g.Without k (l ++ m) where
  node? id := by
    rw [hm.node?, hl.node?]
    by_cases h₁ : id ∈ l <;> by_cases h₂ : id ∈ m <;> simp [h₁, h₂]
  edges e := by
    rw [hm.edges, hl.edges]
    simp only [List.mem_append, not_or]
    tauto

end Graph

namespace Edit

variable {g h : Graph} {op : NodeId}

/-! ### Removing nodes -/

lemma gives_removeNode {id : NodeId} {u : Unit} (hx : Gives (removeNode id true) g u h) :
    g.Without h [id] := by
  unfold removeNode at hx
  simp only [gives_bind, gives_current, gives_lift, gives_change] at hx
  obtain ⟨_, _, ⟨rfl, rfl⟩, ⟨r, hr⟩, _, ⟨-, rfl⟩, _, _, ⟨-, rfl⟩, _, k, hremoved, rfl⟩ := hx
  obtain ⟨hnodes, hedges⟩ := gives_removeEdges hremoved
  have hkept (e : Edge) : e ∈ k.edges ↔ e ∈ g.edges ∧ e.src ≠ id ∧ e.dst ≠ id := by
    refine (hedges e).trans (and_congr_right fun he => ?_)
    rw [Graph.mem_stored hr, ← not_or]
    refine not_congr ⟨?_, fun hat => ⟨e, he, hat, rfl⟩⟩
    rintro ⟨f, hf, hat, hid⟩
    rwa [Graph.eq_of_mem_edges hf he hid] at hat
  refine ⟨fun j => ?_, fun e => ?_⟩
  · show Graph.node? (k.eraseNode id) j = _
    rw [Graph.node?_eraseNode, Graph.node?_congr hnodes]
    simp only [List.mem_singleton]
  · have hsame : (k.eraseNode id).edges = k.edges :=
      Graph.edges_eraseNode_of_free (free_of_removeEdges hr hremoved)
    show e ∈ (k.eraseNode id).edges ↔ _
    rw [List.mem_singleton, List.mem_singleton, hsame, hkept]

lemma gives_removeNodes {ids : List NodeId} {names : List String}
    (hx : Gives (removeNodes ids) g names h) : g.Without h ids ∧ ids.Nodup ∧
      names.map some = ids.map fun id => (g.node? id).map (·.name) := by
  unfold removeNodes at hx
  induction ids generalizing g names with
  | nil =>
    obtain ⟨rfl, rfl⟩ := gives_pure.1 hx
    exact ⟨.refl g, .nil, rfl⟩
  | cons id ids ih =>
    rw [List.mapM_cons] at hx
    simp only [gives_bind, gives_query, gives_pure, Graph.node_eq_ok] at hx
    obtain ⟨_, _, ⟨n, _, ⟨hn, rfl⟩, _, k, hremove, rfl, rfl⟩, rest, _, hrest, rfl, rfl⟩ := hx
    have hfirst := gives_removeNode hremove
    obtain ⟨hwithout, hnodup, hnames⟩ := ih hrest
    -- the nodes to come are there after the first step, and so before it
    have hlater {i : NodeId} (hi : i ∈ ids) : ∃ m, k.node? i = some m ∧ g.node? i = some m ∧
        i ∉ [id] := by
      obtain ⟨name, -, hname⟩ := List.mem_map.1 (hnames.symm ▸ List.mem_map_of_mem hi)
      obtain ⟨m, hm, -⟩ := Option.map_eq_some_iff.1 hname.symm
      exact ⟨m, hm, hfirst.node?_eq_some.1 hm⟩
    refine ⟨hfirst.trans hwithout, List.nodup_cons.2 ⟨fun hin => ?_, hnodup⟩, ?_⟩
    · obtain ⟨-, -, -, hne⟩ := hlater hin
      exact hne (List.mem_singleton_self id)
    · rw [List.map_cons, List.map_cons, hn, hnames]
      refine congrArg (some n.name :: ·) (List.map_congr_left fun i hi => ?_)
      obtain ⟨m, hk, hg, -⟩ := hlater hi
      rw [hk, hg]

lemma gives_removeNodes_append {k : Graph} {l m : List NodeId} {names names' : List String}
    (hx : Gives (removeNodes l) g names k) (hy : Gives (removeNodes m) k names' h) :
    Gives (removeNodes (l ++ m)) g (names ++ names') h := by
  unfold removeNodes
  rw [List.mapM_append]
  exact gives_bind.2 ⟨names, k, hx, gives_bind.2 ⟨names', h, hy, gives_pure.2 ⟨rfl, rfl⟩⟩⟩

/-- The names are those of the nodes that are gone. -/
lemma perm_removed {ids : List NodeId} {names : List String}
    (hx : Gives (removeNodes ids) g names h) :
    names.Perm ((g.entries.filter fun e => (h.node? e.1).isNone).map (·.2.name)) := by
  obtain ⟨hwithout, hnodup, hnames⟩ := gives_removeNodes hx
  have hperm : ids.Perm ((g.entries.filter fun e => (h.node? e.1).isNone).map (·.1)) := by
    refine (List.perm_ext_iff_of_nodup hnodup
      (g.nodup_entryIds.sublist (List.filter_sublist.map _))).2 fun id => ?_
    simp only [List.mem_map, List.mem_filter, Prod.exists, Graph.mem_entries,
      Option.isNone_iff_eq_none, hwithout.node?]
    constructor
    · intro hid
      obtain ⟨name, -, hname⟩ := List.mem_map.1 (hnames.symm ▸ List.mem_map_of_mem hid)
      obtain ⟨n, hn, -⟩ := Option.map_eq_some_iff.1 hname.symm
      exact ⟨id, n, ⟨hn, if_pos hid⟩, rfl⟩
    · rintro ⟨_, n, ⟨hn, hnone⟩, rfl⟩
      by_contra hid
      rw [if_neg hid, hn] at hnone
      cases hnone
  refine (List.map_perm_map_iff (Option.some_injective _)).1 (hnames ▸ (hperm.map _).trans ?_)
  rw [List.map_map, List.map_map]
  refine .of_eq (List.map_congr_left fun e he => ?_)
  have hn := Graph.mem_entries.1 (List.mem_filter.1 he).1
  show (g.node? e.1).map _ = _
  rw [hn]
  rfl

end Edit

namespace Graph

variable {g h k : Graph} {id op : NodeId} {fixed : String → Bool}

/-! ### Live nodes -/

/-- What the roots depend on. -/
def Needed (g : Graph) (id : NodeId) : Prop := g.Reached g.sources g.roots id

lemma mem_roots : id ∈ g.roots ↔ g.kind? id = some "Result" ∨
    (∀ j, g.kind? j ≠ some "Result") ∧ (g.node? id).isSome ∧ ∀ e ∈ g.edges, e.src ≠ id := by
  unfold roots
  split
  · next hnone =>
    have hno (j : NodeId) : g.kind? j ≠ some "Result" := by
      rw [Ne, ← mem_opNodesOf, hnone]
      exact List.not_mem_nil
    have hsink : (g.outgoing id).isEmpty = true ↔ ∀ e ∈ g.edges, e.src ≠ id := by
      rw [List.isEmpty_iff, List.eq_nil_iff_forall_not_mem]
      simp only [mem_outgoing, not_and]
    simp only [hno, ne_eq, not_false_eq_true, implies_true, true_and, false_or]
    rw [sinks_eq, List.mem_filter, hsink, mem_nodeIds]
  · next hne =>
    have hsome : ∃ j, g.kind? j = some "Result" := by
      obtain ⟨j, hj⟩ := List.exists_mem_of_ne_nil _ hne
      exact ⟨j, mem_opNodesOf.1 hj⟩
    rw [mem_opNodesOf]
    refine ⟨.inl, fun h => h.resolve_right fun hall => ?_⟩
    obtain ⟨j, hj⟩ := hsome
    exact hall.1 j hj

lemma mem_live : id ∈ g.live ↔ g.Needed id ∨
    ∃ e ∈ g.edges, e.dst = id ∧ (g.op? e.src).isSome ∧ g.Needed e.src := by
  unfold live
  simp only [List.mem_append, mem_ancestors, List.mem_flatMap, List.mem_filter, mem_opNodes,
    decide_eq_true_eq, mem_targets]
  refine or_congr Iff.rfl ⟨?_, ?_⟩
  · rintro ⟨i, ⟨hop, hneeded⟩, e, he, rfl, rfl⟩
    exact ⟨e, he, rfl, hop, hneeded⟩
  · rintro ⟨e, he, rfl, hop, hneeded⟩
    exact ⟨e.src, ⟨hop, hneeded⟩, e, he, rfl, rfl⟩

lemma Needed.source (hg : g.WellFormed) {e : Edge} (he : e ∈ g.edges) (hn : g.Needed e.dst) :
    g.Needed e.src := by
  obtain ⟨s, -, hs, -⟩ := hg.ends he
  exact .step hn (mem_sources.2 ⟨e, he, rfl, rfl⟩) (hs ▸ rfl)

lemma Needed.live (hn : g.Needed id) : id ∈ g.live := mem_live.2 (.inl hn)

/-- The targets of edges out of operations are data, so that live operations are needed. -/
lemma needed_of_live (hg : g.WellFormed) (hl : id ∈ g.live) (ho : (g.op? id).isSome) :
    g.Needed id := by
  rcases mem_live.1 hl with hn | ⟨e, he, rfl, hop, -⟩
  · exact hn
  · obtain ⟨o, ho'⟩ := Option.isSome_iff_exists.1 hop
    obtain ⟨f, hf⟩ := ends_of_op_src hg he ho'
    rw [op?_eq_none_of_fact hf] at ho
    cases ho

/-- All edges at a live operation have live ends. -/
lemma live_of_source (hg : g.WellFormed) {e : Edge} (he : e ∈ g.edges) (hl : e.src ∈ g.live)
    (ho : (g.op? e.src).isSome) : e.dst ∈ g.live :=
  mem_live.2 (.inr ⟨e, he, rfl, ho, needed_of_live hg hl ho⟩)

lemma live_of_target (hg : g.WellFormed) {e : Edge} (he : e ∈ g.edges) (hl : e.dst ∈ g.live)
    (ho : (g.op? e.dst).isSome) : e.src ∈ g.live :=
  ((needed_of_live hg hl ho).source hg he).live

/-! ### Tidy graphs -/

/-- Nothing is left to clean up: every node is live, no data node stands alone, and the output
ports that may be renumbered have no gaps. -/
structure Tidy (fixed : String → Bool) (g : Graph) : Prop where
  live : ∀ id, (g.node? id).isSome → id ∈ g.live
  joined : ∀ id, (g.fact? id).isSome → ∃ e ∈ g.edges, e.src = id ∨ e.dst = id
  compact : ∀ op kind, g.kind? op = some kind → fixed kind = false → g.Compact op

/-- The operations whose output ports may be renumbered. -/
def movable (g : Graph) (fixed : String → Bool) : List NodeId :=
  (g.entries.filter fun e =>
    match e.2.operation? with
    | some o => !fixed o.kind
    | none => false).map (·.1)

lemma mem_movable : op ∈ g.movable fixed ↔ ∃ kind, g.kind? op = some kind ∧ fixed kind = false := by
  unfold movable
  constructor
  · intro hid
    obtain ⟨⟨i, name, o | f⟩, hmem, rfl⟩ := List.mem_map.1 hid
    · obtain ⟨hmem, hfixed⟩ := List.mem_filter.1 hmem
      refine ⟨o.kind, kind?_eq_some.2 ⟨o, op?_eq_some.2 ⟨name, mem_entries.1 hmem⟩, rfl⟩, ?_⟩
      simpa [Node.operation?] using hfixed
    · exact absurd (List.mem_filter.1 hmem).2 (by simp [Node.operation?])
  · rintro ⟨kind, hkind, hfixed⟩
    obtain ⟨o, ho, rfl⟩ := kind?_eq_some.1 hkind
    obtain ⟨name, hn⟩ := op?_eq_some.1 ho
    refine List.mem_map.2 ⟨(op, ⟨name, .op o⟩), List.mem_filter.2 ⟨mem_entries.2 hn, ?_⟩, rfl⟩
    simp [Node.operation?, hfixed]

lemma isolatedData_eq (g : Graph) : g.isolatedData = (g.entries.filter fun e =>
    e.2.isData && (g.incoming e.1).isEmpty && (g.outgoing e.1).isEmpty).map (·.1) := by
  rw [isolatedData, entries, List.filter_map, List.map_map]
  refine congrArg _ (List.filter_congr fun e he => ?_)
  have hr := record?_of_mem_entries he
  rw [isEmpty_inputs hr, isEmpty_outputs hr]
  rfl

lemma mem_isolatedData : id ∈ g.isolatedData ↔
    (g.fact? id).isSome ∧ ∀ e ∈ g.edges, e.src ≠ id ∧ e.dst ≠ id := by
  have hnone (l : List Edge) : l.isEmpty = true ↔ ∀ e, e ∉ l := by
    rw [List.isEmpty_iff, List.eq_nil_iff_forall_not_mem]
  rw [isolatedData_eq]
  simp only [List.mem_map, List.mem_filter, Bool.and_eq_true, hnone, mem_incoming, mem_outgoing,
    not_and, Prod.exists, mem_entries, isSome_fact?, Node.isData_eq, Bool.not_eq_true']
  constructor
  · rintro ⟨i, n, ⟨hn, ⟨hdata, hin⟩, hout⟩, rfl⟩
    exact ⟨⟨n, hn, hdata⟩, fun e he => ⟨hout e he, hin e he⟩⟩
  · rintro ⟨⟨n, hn, hdata⟩, hedges⟩
    exact ⟨id, n, ⟨hn, ⟨hdata, fun e he => (hedges e he).2⟩, fun e he => (hedges e he).1⟩, rfl⟩

lemma isSome_op?_of_mem_movable (hmem : op ∈ g.movable fixed) : (g.op? op).isSome := by
  obtain ⟨kind, hkind, -⟩ := mem_movable.1 hmem
  obtain ⟨o, ho, -⟩ := kind?_eq_some.1 hkind
  exact ho ▸ rfl

lemma nodup_movable (g : Graph) (fixed : String → Bool) : (g.movable fixed).Nodup :=
  g.nodup_entryIds.sublist (List.filter_sublist.map _)

lemma nodup_isolatedData (g : Graph) : g.isolatedData.Nodup := by
  rw [isolatedData_eq]
  exact g.nodup_entryIds.sublist (List.filter_sublist.map _)

/-- What is left of a graph when its dead parts are taken away: the live nodes, of the data nodes
among them those with an edge, and the edges between live nodes. -/
structure Swept (g k : Graph) : Prop where
  wellFormed : k.WellFormed
  node? : ∀ id n, k.node? id = some n ↔ g.node? id = some n ∧ id ∈ g.live ∧
    (n.isOp = true ∨ ∃ e ∈ g.edges, e.src ∈ g.live ∧ e.dst ∈ g.live ∧ (e.src = id ∨ e.dst = id))
  edges : ∀ e, e ∈ k.edges ↔ e ∈ g.edges ∧ e.src ∈ g.live ∧ e.dst ∈ g.live

/-- The nodes that are not live go first, then the data nodes that stand alone without them. -/
lemma swept_of_without (hg : g.WellFormed) (hk : k.WellFormed)
    (hdead : g.Without h (g.nodeIds.filter (· ∉ g.live))) (hisolated : h.Without k h.isolatedData) :
    g.Swept k := by
  have hnode {id : NodeId} {n : Node} :
      h.node? id = some n ↔ g.node? id = some n ∧ id ∈ g.live := by
    rw [hdead.node?_eq_some]
    refine and_congr_right fun hn => ?_
    simp [mem_nodeIds, hn]
  have hedges (e : Edge) : e ∈ h.edges ↔ e ∈ g.edges ∧ e.src ∈ g.live ∧ e.dst ∈ g.live := by
    rw [hdead.edges]
    refine and_congr_right fun he => ?_
    obtain ⟨s, d, hs, hd, -⟩ := hg.ends he
    simp [mem_nodeIds, hs, hd]
  refine ⟨hk, fun id n => ?_, fun e => ?_⟩
  · rw [hisolated.node?_eq_some, hnode, and_assoc]
    refine and_congr_right fun hn => and_congr_right fun hl => ?_
    have hdata : (h.fact? id).isSome ↔ n.isOp = false := by
      rw [isSome_fact?]
      simp [hnode.2 ⟨hn, hl⟩]
    rw [mem_isolatedData, hdata, not_and_or, Bool.not_eq_false]
    simp only [hedges, ne_eq, not_forall, not_and_or, not_not, and_assoc, exists_prop]
  · rw [hisolated.edges, hedges]
    refine and_iff_left_of_imp fun he => ⟨fun hin => ?_, fun hin => ?_⟩
    · exact ((mem_isolatedData.1 hin).2 e ((hedges e).2 he)).1 rfl
    · exact ((mem_isolatedData.1 hin).2 e ((hedges e).2 he)).2 rfl

lemma Swept.op? (hs : g.Swept k) {o : Operation} (ho : k.op? id = some o) :
    g.op? id = some o ∧ id ∈ g.live := by
  obtain ⟨name, hn⟩ := op?_eq_some.1 ho
  obtain ⟨hn, hl, -⟩ := (hs.node? _ _).1 hn
  exact ⟨op?_eq_some.2 ⟨name, hn⟩, hl⟩

/-- What a clean-up leaves of a graph: the live nodes, of the data nodes among them those with an
edge, and the edges between live nodes. Edges stay on their ports unless these may be renumbered and
have gaps. -/
structure Cleaned (fixed : String → Bool) (g h : Graph) (port : Edge → Nat) : Prop where
  wellFormed : h.WellFormed
  node? : ∀ id n, h.node? id = some n ↔ g.node? id = some n ∧ id ∈ g.live ∧
    (n.isOp = true ∨ ∃ e ∈ g.edges, e.src ∈ g.live ∧ e.dst ∈ g.live ∧ (e.src = id ∨ e.dst = id))
  edges : ∀ e, e ∈ h.edges ↔ ∃ e' ∈ g.edges, e'.src ∈ g.live ∧ e'.dst ∈ g.live ∧
    e = { e' with out := port e' }
  stays : ∀ e ∈ g.edges, e.src ∈ g.live → e.dst ∈ g.live →
    (∀ kind, g.kind? e.src = some kind → fixed kind = false → g.Compact e.src) → port e = e.out
  compact : ∀ op kind, h.kind? op = some kind → fixed kind = false → h.Compact op

/-- The dead parts are taken away, then the gaps in the ports are closed. -/
lemma Swept.cleaned (hg : g.WellFormed) (hs : g.Swept k) (hh : h.WellFormed)
    (hren : k.Renumbered h (closedPort k (k.movable fixed))) :
    g.Cleaned fixed h (closedPort k (k.movable fixed)) where
  wellFormed := hh
  node? id n := by rw [hren.node?, hs.node?]
  edges e := by
    rw [hren.edges]
    refine exists_congr fun e' => ?_
    rw [hs.edges]
    simp only [and_assoc]
  stays e he hsrc hdst hwhy := by
    refine closedPort_of_compact hs.wellFormed (fun _ => isSome_op?_of_mem_movable)
      ((hs.edges e).2 ⟨he, hsrc, hdst⟩) fun hin => ?_
    obtain ⟨kind, hkind, hfixed⟩ := mem_movable.1 hin
    obtain ⟨o, ho, rfl⟩ := kind?_eq_some.1 hkind
    obtain ⟨ho, -⟩ := hs.op? ho
    intro e' he' hsrc' n hn
    obtain ⟨f, hf, hfsrc, hfout⟩ := hwhy _ (kind?_eq_some.2 ⟨o, ho, rfl⟩) hfixed e'
      ((hs.edges e').1 he').1 hsrc' n hn
    have hlive : f.dst ∈ g.live := live_of_source hg hf (hfsrc ▸ hsrc) (hfsrc ▸ ho ▸ rfl)
    exact ⟨f, (hs.edges f).2 ⟨hf, hfsrc ▸ hsrc, hlive⟩, hfsrc, hfout⟩
  compact op kind hkind hfixed := by
    have hmem : op ∈ k.movable fixed := mem_movable.2 ⟨kind, by
      rwa [Graph.kind?, hren.op?, ← Graph.kind?] at hkind, hfixed⟩
    exact compact_of_renumbered hs.wellFormed (isSome_op?_of_mem_movable hmem) hmem hren

end Graph

namespace Edit

variable {g h : Graph} {fixed : String → Bool}

/-- A clean-up does what it is to do, and its report says so. -/
lemma gives_cleanUp (hg : g.WellFormed) {r : CleanupReport} (hx : Gives (cleanUp fixed) g r h) :
    ∃ k, g.Swept k ∧ k.Renumbered h (closedPort k (k.movable fixed)) ∧
      r.removed.Pairwise (· ≤ ·) ∧
      r.removed.Perm ((g.entries.filter fun e => (h.node? e.1).isNone).map (·.2.name)) ∧
      r.renumbered = k.edges.countP fun e => closedPort k (k.movable fixed) e ≠ e.out := by
  obtain ⟨_, _, hcurrent, hx⟩ := gives_bind.1 hx
  obtain ⟨rfl, rfl⟩ := gives_current.1 hcurrent
  obtain ⟨dead, g₁, hdead, hx⟩ := gives_bind.1 hx
  obtain ⟨_, _, hcurrent, hx⟩ := gives_bind.1 hx
  obtain ⟨rfl, rfl⟩ := gives_current.1 hcurrent
  obtain ⟨isolated, k, hisolated, hx⟩ := gives_bind.1 hx
  obtain ⟨_, _, hcurrent, hx⟩ := gives_bind.1 hx
  obtain ⟨rfl, rfl⟩ := gives_current.1 hcurrent
  obtain ⟨ns, k', hmoved, hx⟩ := gives_bind.1 hx
  -- the rest makes the report and logs it
  obtain ⟨rfl, rfl⟩ : ⟨sortBy (fun a b => decide (a ≤ b)) (dead ++ isolated),
      ns.foldl (· + ·) 0⟩ = r ∧ k' = h := by
    simp only at hx
    split at hx
    · exact gives_pure.1 hx
    · obtain ⟨_, _, hnote, hx⟩ := gives_bind.1 hx
      rw [gives_note.1 hnote]
      exact gives_pure.1 hx
  have hwf : k.WellFormed :=
    hisolated.keeps (keeps_removeNodes _) (hdead.keeps (keeps_removeNodes _) hg)
  have hswept := Graph.swept_of_without hg hwf (gives_removeNodes hdead).1
    (gives_removeNodes hisolated).1
  obtain ⟨hren, hsum⟩ := gives_compactAll hwf (k.nodup_movable fixed)
    (fun _ => Graph.isSome_op?_of_mem_movable) hmoved
  refine ⟨k, hswept, hren, ?_, ?_, ?_⟩
  · have hsorted : (sortBy (fun a b : String => decide (a ≤ b)) (dead ++ isolated)).Pairwise
        fun a b => decide (a ≤ b) = true := pairwise_sortBy (by simpa using String.le_total)
      (by simpa using fun _ _ _ => String.le_trans) _
    simpa using hsorted
  · simpa only [hren.node?] using (sortBy_perm ..).trans
      (perm_removed (gives_removeNodes_append hdead hisolated))
  · rw [← hsum, List.sum_eq_foldl]

lemma cleaned_of_gives (hg : g.WellFormed) {r : CleanupReport} (hx : Gives (cleanUp fixed) g r h) :
    ∃ port, g.Cleaned fixed h port := by
  obtain ⟨k, hs, hren, -⟩ := gives_cleanUp hg hx
  exact ⟨_, hs.cleaned hg (hx.keeps (keeps_cleanUp fixed) hg) hren⟩

end Edit

namespace Graph

variable {g h : Graph} {id op : NodeId} {fixed : String → Bool} {port : Edge → Nat}

/-! ### After a clean-up -/

lemma Cleaned.kind? (hc : g.Cleaned fixed h port) {kind : String} :
    h.kind? id = some kind ↔ g.kind? id = some kind ∧ id ∈ g.live := by
  constructor
  · intro hk
    obtain ⟨o, ho, rfl⟩ := kind?_eq_some.1 hk
    obtain ⟨name, hn⟩ := op?_eq_some.1 ho
    obtain ⟨hn, hl, -⟩ := (hc.node? _ _).1 hn
    exact ⟨kind?_eq_some.2 ⟨o, op?_eq_some.2 ⟨name, hn⟩, rfl⟩, hl⟩
  · rintro ⟨hk, hl⟩
    obtain ⟨o, ho, rfl⟩ := kind?_eq_some.1 hk
    obtain ⟨name, hn⟩ := op?_eq_some.1 ho
    have hn' := (hc.node? _ _).2 ⟨hn, hl, .inl rfl⟩
    exact kind?_eq_some.2 ⟨o, op?_eq_some.2 ⟨name, hn'⟩, rfl⟩

/-- A kept edge, on its new port. -/
lemma Cleaned.mem_edges (hc : g.Cleaned fixed h port) {e : Edge} (he : e ∈ g.edges)
    (hsrc : e.src ∈ g.live) (hdst : e.dst ∈ g.live) : { e with out := port e } ∈ h.edges :=
  (hc.edges _).2 ⟨e, he, hsrc, hdst, rfl⟩

/-- A root that is kept is a root again. -/
lemma Cleaned.mem_roots (hc : g.Cleaned fixed h port) (hid : id ∈ g.roots)
    (hkept : (h.node? id).isSome) : id ∈ h.roots := by
  rcases Graph.mem_roots.1 hid with hresult | ⟨hno, hlive, hsink⟩
  · have hneeded : g.Needed id := by
      obtain ⟨o, ho, -⟩ := kind?_eq_some.1 hresult
      obtain ⟨name, hn⟩ := op?_eq_some.1 ho
      exact .start hid (hn ▸ rfl)
    exact Graph.mem_roots.2 (.inl (hc.kind?.2 ⟨hresult, hneeded.live⟩))
  · refine Graph.mem_roots.2
      (.inr ⟨fun j hj => hno j (hc.kind?.1 hj).1, hkept, fun e he hsrc => ?_⟩)
    obtain ⟨e', he', -, -, rfl⟩ := (hc.edges e).1 he
    exact hsink e' he' hsrc

/-- What is needed before the clean-up is needed after it, if it is kept. -/
lemma Cleaned.needed (hg : g.WellFormed) (hc : g.Cleaned fixed h port) (hn : g.Needed id)
    (hkept : (h.node? id).isSome) : h.Needed id := by
  unfold Needed at hn
  induction hn with
  | start hroot _ => exact .start (hc.mem_roots hroot hkept) hkept
  | step hi hj hlive ih =>
    obtain ⟨e, he, rfl, rfl⟩ := mem_sources.1 hj
    have hdst : g.Needed e.dst := hi
    have he' := hc.mem_edges he (hdst.source hg he).live hdst.live
    obtain ⟨-, d, -, hd, -⟩ := hc.wellFormed.ends he'
    have hdst' : h.Needed e.dst := ih (hd ▸ rfl)
    exact Needed.source (e := { e with out := port e }) hc.wellFormed he' hdst'

/-- A clean-up leaves a tidy graph. -/
theorem Cleaned.tidy (hg : g.WellFormed) (hc : g.Cleaned fixed h port) : h.Tidy fixed where
  live id hkept := by
    obtain ⟨n, hn⟩ := Option.isSome_iff_exists.1 hkept
    obtain ⟨-, hl, -⟩ := (hc.node? id n).1 hn
    rcases mem_live.1 hl with hneeded | ⟨e, he, rfl, hop, hneeded⟩
    · exact (hc.needed hg hneeded hkept).live
    · have he' := hc.mem_edges he hneeded.live hl
      obtain ⟨s, -, hs, -⟩ := hc.wellFormed.ends he'
      obtain ⟨o, ho⟩ := Option.isSome_iff_exists.1 hop
      have hk := hc.kind?.2 ⟨kind?_eq_some.2 ⟨o, ho, rfl⟩, hneeded.live⟩
      obtain ⟨o', ho', -⟩ := kind?_eq_some.1 hk
      exact mem_live.2 (.inr ⟨_, he', rfl, ho' ▸ rfl, hc.needed hg hneeded (hs ▸ rfl)⟩)
  joined id hdata := by
    obtain ⟨n, hn, hdata⟩ := isSome_fact?.1 hdata
    obtain ⟨-, -, hwhy⟩ := (hc.node? id n).1 hn
    obtain ⟨e, he, hsrc, hdst, hid⟩ := hwhy.resolve_left (by simp [hdata])
    exact ⟨_, hc.mem_edges he hsrc hdst, hid⟩
  compact := hc.compact

lemma Needed.of_skeleton (hs : h.skeleton = g.skeleton) (hn : g.Needed id) : h.Needed id := by
  unfold Needed at hn
  induction hn with
  | start hroot hlive =>
    have hlive' : (h.node? _).isSome := (isSome_node?_of_skeleton hs _).trans hlive
    refine .start ?_ hlive'
    rw [Graph.mem_roots] at hroot ⊢
    simpa only [kind?_of_skeleton hs, isSome_node?_of_skeleton hs, edges_of_skeleton hs] using hroot
  | step _ hj hlive ih =>
    refine .step ih ?_ ((isSome_node?_of_skeleton hs _).trans hlive)
    rw [mem_sources] at hj ⊢
    rwa [edges_of_skeleton hs]

/-- Inference leaves a tidy graph tidy. -/
lemma Tidy.of_skeleton (hs : h.skeleton = g.skeleton) (ht : g.Tidy fixed) : h.Tidy fixed where
  live id hid := by
    rw [isSome_node?_of_skeleton hs] at hid
    rcases mem_live.1 (ht.live id hid) with hn | ⟨e, he, hdst, hop, hn⟩
    · exact (hn.of_skeleton hs).live
    · refine mem_live.2 (.inr ⟨e, edges_of_skeleton hs ▸ he, hdst, ?_, hn.of_skeleton hs⟩)
      rwa [isSome_op?_of_skeleton hs]
  joined id hid := by
    rw [isSome_fact?_of_skeleton hs] at hid
    rw [edges_of_skeleton hs]
    exact ht.joined id hid
  compact op kind hkind hfixed := by
    rw [kind?_of_skeleton hs] at hkind
    unfold Compact
    rw [edges_of_skeleton hs]
    exact ht.compact op kind hkind hfixed

end Graph

namespace Edit

variable {g h : Graph} {op : NodeId} {fixed : String → Bool}

/-- A clean-up leaves a tidy graph as it is, and reports nothing. -/
theorem gives_cleanUp_of_tidy (hg : g.WellFormed) (ht : g.Tidy fixed) :
    Gives (cleanUp fixed) g ⟨[], 0⟩ g := by
  have hdead : g.nodeIds.filter (· ∉ g.live) = [] := by
    refine List.filter_eq_nil_iff.2 fun id hid => ?_
    simpa using ht.live id (Graph.mem_nodeIds.1 hid)
  have hisolated : g.isolatedData = [] := by
    refine List.eq_nil_iff_forall_not_mem.2 fun id hid => ?_
    obtain ⟨hdata, hnone⟩ := Graph.mem_isolatedData.1 hid
    obtain ⟨e, he, hat⟩ := ht.joined id hdata
    exact hat.elim (hnone e he).1 (hnone e he).2
  have hcompact (l : List NodeId) (hl : ∀ op ∈ l, op ∈ g.movable fixed) :
      Gives (l.mapM compactOutputs) g (l.map fun _ => 0) g := by
    induction l with
    | nil => exact ⟨rfl, rfl⟩
    | cons op l ih =>
      obtain ⟨kind, hkind, hfixed⟩ := Graph.mem_movable.1 (hl op (List.mem_cons_self ..))
      have hfirst := gives_compactOutputs_of_compact hg
        (Graph.isSome_op?_of_mem_movable (hl op (List.mem_cons_self ..)))
        (ht.compact op kind hkind hfixed)
      rw [List.mapM_cons]
      refine gives_bind.2 ⟨0, g, hfirst, gives_bind.2 ⟨_, g, ?_, gives_pure.2 ⟨rfl, rfl⟩⟩⟩
      exact ih fun a ha => hl a (List.mem_cons_of_mem op ha)
  have hzero (l : List NodeId) : (l.map fun _ => 0).foldl (· + ·) 0 = 0 := by
    induction l with
    | nil => rfl
    | cons _ l ih => exact ih
  unfold cleanUp
  refine gives_bind.2 ⟨g, g, gives_current.2 ⟨rfl, rfl⟩, ?_⟩
  simp only
  rw [hdead]
  refine gives_bind.2 ⟨[], g, ⟨rfl, rfl⟩, gives_bind.2 ⟨g, g, gives_current.2 ⟨rfl, rfl⟩, ?_⟩⟩
  rw [hisolated]
  refine gives_bind.2 ⟨[], g, ⟨rfl, rfl⟩, gives_bind.2 ⟨g, g, gives_current.2 ⟨rfl, rfl⟩, ?_⟩⟩
  refine gives_bind.2 ⟨_, g, hcompact (g.movable fixed) fun _ h => h, ?_⟩
  rw [hzero]
  exact ⟨rfl, rfl⟩

end Edit

end TensorGraph
