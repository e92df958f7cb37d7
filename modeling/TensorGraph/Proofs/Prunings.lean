import TensorGraph.Proofs.EvalOrders
import TensorGraph.Proofs.Successes

/-!
What a clean-up takes away.

A clean-up succeeds, on graphs with cycles too. What stays is what the goals of the model depend on,
with all outputs of the operations among it; the gaps in the output ports are closed, and the report
says what was done (`cleanUp_prunes`). A second clean-up has nothing to do (`cleanUp_cleanUp`).
-/

namespace TensorGraph

open Edit

namespace Graph

variable {g h k : Graph} {id : NodeId} {fixed : String → Bool} {port : Edge → Nat}

/-! ### Nodes that are alive -/

/-- What a model is for: its results, or, without any, the nodes that nothing comes after. -/
def Goal (g : Graph) (id : NodeId) : Prop :=
  g.kind? id = some "Result" ∨
    (∀ j, g.kind? j ≠ some "Result") ∧ (g.node? id).isSome ∧ ∀ e ∈ g.edges, e.src ≠ id

/-- A path leads from the node to a goal, or the node is an output of an operation from which one
does. -/
def Alive (g : Graph) (id : NodeId) : Prop :=
  g.Supports g.Goal id ∨
    ∃ e ∈ g.edges, e.dst = id ∧ (g.op? e.src).isSome ∧ g.Supports g.Goal e.src

lemma Goal.isSome_node? (hgoal : g.Goal id) : (g.node? id).isSome := by
  rcases hgoal with hresult | ⟨-, hlive, -⟩
  · obtain ⟨o, ho, -⟩ := kind?_eq_some.1 hresult
    obtain ⟨name, hn⟩ := op?_eq_some.1 ho
    exact hn ▸ rfl
  · exact hlive

lemma needed_iff (hg : g.WellFormed) : g.Needed id ↔ g.Supports g.Goal id := by
  constructor
  · intro hn
    unfold Needed at hn
    induction hn with
    | start hroot _ => exact .self (mem_roots.1 hroot)
    | step _ hj _ ih => exact ih.source hj
  · rintro ⟨j, hgoal, hpath⟩
    -- from the goal back along the path
    induction hpath using Relation.ReflTransGen.head_induction_on with
    | refl => exact .start (mem_roots.2 hgoal) hgoal.isSome_node?
    | head hstep _ ih => exact .step ih (mem_sources_iff_leads.2 hstep) (hstep.live hg).1

lemma mem_live_iff_alive (hg : g.WellFormed) : id ∈ g.live ↔ g.Alive id := by
  simp only [mem_live, needed_iff hg, Alive]

/-! ### What stays -/

/-- An edge between nodes that stay. -/
def Kept (g h : Graph) (e : Edge) : Prop :=
  e ∈ g.edges ∧ (h.node? e.src).isSome ∧ (h.node? e.dst).isSome

/-- What a clean-up is to leave of a graph, with the edges on the given output ports, and to
report. -/
structure Pruned (fixed : String → Bool) (g : Graph) (r : CleanupReport) (h : Graph)
    (port : Edge → Nat) : Prop where
  /-- The nodes that are alive stay as they are, but for data nodes left without edges. -/
  node? : ∀ id n, h.node? id = some n ↔ g.node? id = some n ∧ g.Alive id ∧
    (n.isOp = true ∨ ∃ e ∈ g.edges, g.Alive e.src ∧ g.Alive e.dst ∧ (e.src = id ∨ e.dst = id))
  edges : ∀ e, e ∈ h.edges ↔ ∃ e', g.Kept h e' ∧ e = { e' with out := port e' }
  /-- Edges out of data nodes, and out of operations with fixed ports, stay on their ports. -/
  stays : ∀ e, g.Kept h e → (∀ kind, h.kind? e.src = some kind → fixed kind = true) →
    port e = e.out
  /-- Edges out of other operations keep their order. -/
  rises : ∀ e f, g.Kept h e → g.Kept h f → e.src = f.src → e.out < f.out → port e < port f
  numbered : ∀ op kind, h.kind? op = some kind → fixed kind = false →
    (h.outgoing op).map (·.out) = List.range (h.outgoing op).length
  sorted : r.removed.Pairwise (· ≤ ·)
  removed : r.removed.Perm ((g.entries.filter fun e => (h.node? e.1).isNone).map (·.2.name))
  renumbered : r.renumbered = g.edges.countP fun e => (h.edge? e.id).any (·.out ≠ e.out)

/-- The edges between nodes that stay are those that are left before the gaps are closed. -/
lemma Swept.kept (hs : g.Swept k) (hren : k.Renumbered h port) {e : Edge} :
    g.Kept h e ↔ e ∈ k.edges := by
  unfold Kept
  rw [hren.node?, hren.node?]
  have hlive {i : NodeId} (hi : (k.node? i).isSome) : i ∈ g.live := by
    obtain ⟨n, hn⟩ := Option.isSome_iff_exists.1 hi
    exact ((hs.node? i n).1 hn).2.1
  constructor
  · rintro ⟨he, hsrc, hdst⟩
    exact (hs.edges e).2 ⟨he, hlive hsrc, hlive hdst⟩
  · intro he
    obtain ⟨s, d, hsrc, hdst, -⟩ := hs.wellFormed.ends he
    exact ⟨((hs.edges e).1 he).1, hsrc ▸ rfl, hdst ▸ rfl⟩

/-- The edges moved are those that are on another port in the end. -/
lemma Swept.countP_moved (hs : g.Swept k) (hren : k.Renumbered h port) :
    (k.edges.countP fun e => port e ≠ e.out) =
      g.edges.countP fun e => (h.edge? e.id).any (·.out ≠ e.out) := by
  have hperm : k.edges.Perm (g.edges.filter (· ∈ k.edges)) := by
    refine (List.perm_ext_iff_of_nodup k.nodup_edges (g.nodup_edges.filter _)).2 fun e => ?_
    rw [List.mem_filter, decide_eq_true_eq]
    exact (and_iff_right_of_imp fun he => ((hs.edges e).1 he).1).symm
  rw [hperm.countP_eq, List.countP_filter]
  refine List.countP_congr fun e he => ?_
  by_cases hk : e ∈ k.edges
  · have hmem := edge?_eq_some.2 ⟨(hren.edges _).2 ⟨e, hk, rfl⟩, rfl⟩
    simp [hk, hmem]
  · have hnone : h.edge? e.id = none := by
      refine Option.eq_none_iff_forall_ne_some.2 fun f hf => hk ?_
      obtain ⟨hf, hid⟩ := edge?_eq_some.1 hf
      obtain ⟨e', he', rfl⟩ := (hren.edges f).1 hf
      exact eq_of_mem_edges he ((hs.edges e').1 he').1 hid.symm ▸ he'
    simp [hk, hnone]

/-- **Pruning**: a clean-up of a well-formed graph succeeds. It takes away the nodes that are not
alive, and data nodes left without edges, closes the gaps in the output ports that are not fixed,
and reports both. -/
theorem cleanUp_prunes (p : Registry) (hg : g.WellFormed) :
    ∃ r h port, Gives (cleanUp p.isFixed) g r h ∧ g.Pruned p.isFixed r h port := by
  obtain ⟨r, h, hx⟩ := exists_gives_cleanUp p.isFixed hg
  have hh : h.WellFormed := hx.keeps (keeps_cleanUp _) hg
  obtain ⟨k, hs, hren, hsorted, hremoved, hrenumbered⟩ := gives_cleanUp hg hx
  have hc := hs.cleaned hg hh hren
  have hkind {op : NodeId} : h.kind? op = k.kind? op := by rw [kind?, hren.op?, ← kind?]
  refine ⟨r, h, closedPort k (k.movable p.isFixed), hx, ?node, ?edges, ?stays, ?rises, ?numbered,
    hsorted, hremoved, ?renumbered⟩
  case node =>
    intro id n
    rw [hc.node?]
    simp only [mem_live_iff_alive hg]
  case edges => simpa only [hs.kept hren] using hren.edges
  case stays =>
    refine fun e _ hwhy => closedPort_of_notMem fun hin => ?_
    obtain ⟨kind, hk, hunfixed⟩ := mem_movable.1 hin
    rw [hwhy kind (hkind.trans hk)] at hunfixed
    cases hunfixed
  case rises =>
    intro e f he hf
    exact closedPort_lt hs.wellFormed (fun _ => isSome_op?_of_mem_movable) ((hs.kept hren).1 he)
      ((hs.kept hren).1 hf)
  case numbered =>
    intro op kind hk hunfixed
    obtain ⟨o, ho, -⟩ := kind?_eq_some.1 hk
    exact outgoing_of_compact (hc.compact op kind hk hunfixed) hh (ho ▸ rfl)
  case renumbered => exact hrenumbered.trans (hs.countP_moved hren)

end Graph

/-- A split without its output 1, whose output 0 only an operation reads that feeds itself, and a
data node on its own. -/
def overgrown : Edit Unit := do
  let x ← addParameter "x" [2]
  let (s, a) ← addOpWithData "s" (.ofKind "Split")
  discard (addEdge x s 0 0)
  let b ← addData "b" .unknown
  discard (addEdge s b 2 0)
  let (c, d) ← addOpWithData "c" (.ofKind "Add")
  discard (addEdge a c 0 0)
  discard (addEdge d c 0 1)
  discard (addData "lone" .unknown)

/-- Without a result the goals are the nodes that nothing comes after. -/
theorem cleanUp_prunes_overgrown :
    let g := (overgrown.run ∅).graph
    g.WellFormed ∧ ∃ h port, Gives (cleanUp Registry.standard.isFixed) g
        ⟨["c", "c_d", "lone"], 1⟩ h ∧
      g.Pruned Registry.standard.isFixed ⟨["c", "c_d", "lone"], 1⟩ h port := by
  intro g
  have hg : g.WellFormed := by decide +kernel
  obtain ⟨r, h, port, hx, hpruned⟩ := Graph.cleanUp_prunes Registry.standard hg
  have hreport : Gives (cleanUp Registry.standard.isFixed) g ⟨["c", "c_d", "lone"], 1⟩ _ :=
    ⟨toOption_eq_some.1 (by decide +kernel), rfl⟩
  obtain ⟨rfl, rfl⟩ := hx.unique hreport
  exact ⟨hg, _, port, hx, hpruned⟩

namespace Graph

/-- **Idempotence**: a clean-up right after a clean-up reports nothing and leaves the graph as it
is. -/
theorem cleanUp_cleanUp (p : Registry) (hg : g.WellFormed) : ∃ r h,
    Gives (cleanUp p.isFixed) g r h ∧ Gives (cleanUp p.isFixed) h ⟨[], 0⟩ h := by
  obtain ⟨r, h, hx⟩ := exists_gives_cleanUp p.isFixed hg
  obtain ⟨port, hc⟩ := cleaned_of_gives hg hx
  exact ⟨r, h, hx, gives_cleanUp_of_tidy hc.wellFormed (hc.tidy hg)⟩

end Graph

/-- After the first clean-up nothing reads output 0 of the split any more. -/
theorem cleanUp_cleanUp_overgrown :
    let g := (overgrown.run ∅).graph
    let h := ((cleanUp Registry.standard.isFixed).run g).graph
    g.WellFormed ∧ Gives (cleanUp Registry.standard.isFixed) g ⟨["c", "c_d", "lone"], 1⟩ h ∧
      g.sinks = [⟨4⟩, ⟨7⟩] ∧ h.sinks = [⟨3⟩, ⟨4⟩] ∧
      Gives (cleanUp Registry.standard.isFixed) h ⟨[], 0⟩ h := by
  intro g h
  have hg : g.WellFormed := by decide +kernel
  obtain ⟨r, k, hx, hagain⟩ := Graph.cleanUp_cleanUp Registry.standard hg
  have hreport : Gives (cleanUp Registry.standard.isFixed) g ⟨["c", "c_d", "lone"], 1⟩ h :=
    ⟨toOption_eq_some.1 (by decide +kernel), rfl⟩
  obtain ⟨-, rfl⟩ := hx.unique hreport
  exact ⟨hg, hreport, by decide +kernel, by decide +kernel, hagain⟩

end TensorGraph
