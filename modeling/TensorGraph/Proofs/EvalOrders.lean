import TensorGraph.Proofs.Orders
import TensorGraph.Proofs.Structure

/-!
What evaluation orders of some nodes are.

An order for targets lists what they depend on, each node once and after its inputs
(`evalOrder_sorts`). Without it, a node that a target depends on lies on a cycle, and the search
names one that does.
-/

namespace TensorGraph

open Edit

namespace Graph

variable {g : Graph} {id : NodeId} {targets l : List NodeId} {goal goal' : NodeId → Prop}

/-- A path leads from the node to one of the goals, or it is one of them. -/
def Supports (g : Graph) (goal : NodeId → Prop) (id : NodeId) : Prop :=
  ∃ j, goal j ∧ Relation.ReflTransGen g.Leads id j

lemma Supports.self (h : goal id) : g.Supports goal id := ⟨id, h, .refl⟩

lemma Supports.source (h : g.Supports goal id) {j : NodeId} (hj : j ∈ g.sources id) :
    g.Supports goal j := by
  obtain ⟨i, hi, hpath⟩ := h
  exact ⟨i, hi, hpath.head (mem_sources_iff_leads.1 hj)⟩

lemma Supports.congr (hgoal : ∀ j, goal j ↔ goal' j) : g.Supports goal id ↔ g.Supports goal' id :=
  exists_congr fun j => and_congr_left fun _ => hgoal j

/-- In a well-formed graph what leads to nodes that are there is there. -/
lemma Supports.live (hg : g.WellFormed) (hgoal : ∀ j, goal j → (g.node? j).isSome)
    (h : g.Supports goal id) : (g.node? id).isSome := by
  obtain ⟨j, hj, hpath⟩ := h
  rcases hpath.cases_head with rfl | ⟨i, hstep, -⟩
  · exact hgoal _ hj
  · exact (hstep.live hg).1

/-- What asking for an order of what the goals depend on may come to: a list of these nodes, each
once and after its inputs, when none of them lies on a cycle, and else an error that names a node
on a cycle. -/
structure Sorts (g : Graph) (goal : NodeId → Prop) (r : Except Error (List NodeId)) : Prop where
  ordered : (∀ id, g.Supports goal id → ¬ g.OnCycle id) → ∃ l, r = .ok l ∧ l.Nodup ∧
    (∀ id, id ∈ l ↔ g.Supports goal id) ∧
    ∀ before id after, l = before ++ id :: after → g.sources id ⊆ before
  cyclic : (∃ id, g.Supports goal id ∧ g.OnCycle id) → ∃ id n, g.node? id = some n ∧
    g.OnCycle id ∧ r = .error (GraphFault.cycle n.name)

/-- A list of nodes that is ready and holds the goals holds what these depend on. -/
lemma Ready.mem_of_supports (hl : g.Ready [] l) (hgoal : ∀ j, goal j → j ∈ l)
    (h : g.Supports goal id) : id ∈ l := by
  obtain ⟨j, hj, hpath⟩ := h
  rcases Relation.reflTransGen_iff_eq_or_transGen.1 hpath with rfl | hpath
  · exact hgoal _ hj
  · obtain ⟨l₁, l₂, rfl⟩ := List.append_of_mem (hgoal j hj)
    exact List.mem_append_left _ (hl.mem_before hpath rfl)

lemma Sorts.congr {r : Except Error (List NodeId)} (hgoal : ∀ j, goal j ↔ goal' j)
    (h : g.Sorts goal r) : g.Sorts goal' r where
  ordered := by simpa only [Supports.congr hgoal] using h.ordered
  cyclic := by simpa only [Supports.congr hgoal] using h.cyclic

/-- The order for some targets. -/
lemma sorts_evalOrderFor (hg : g.WellFormed) (hlive : ∀ id ∈ targets, (g.node? id).isSome) :
    g.Sorts (· ∈ targets) (g.evalOrderFor targets) := by
  have hself : ∀ i ∈ targets, g.Supports (· ∈ targets) i := fun i hi => .self hi
  have hsource : ∀ i, g.Supports (· ∈ targets) i → ∀ j ∈ g.sources i,
      g.Supports (· ∈ targets) j := fun i hi j hj => hi.source hj
  rcases hl : g.evalOrderFor targets with e | l
  · -- the node that the error names supports a target
    obtain ⟨id, n, hn, hid, rfl, hcycle⟩ :=
      cycle_of_arrange hsource (fun i hi => hi.live hg hlive) hself (by simp) hl
    exact ⟨fun hno => absurd hcycle (hno id hid), fun _ => ⟨id, n, hn, hcycle, rfl⟩⟩
  · obtain ⟨hp, -, htargets, -⟩ := placed_of_arrange (show g.Placed [] from trivial) (by simp) hl
    rw [← List.append_nil l.reverse] at hp
    have hready : g.Ready [] l := (ready_of_placed hp).1
    have hmem (id : NodeId) : id ∈ l ↔ g.Supports (· ∈ targets) id :=
      ⟨of_mem_arrange hsource (by simp) hself hl id, hready.mem_of_supports fun _ hj => htargets hj⟩
    refine ⟨fun _ => ⟨l, rfl, hready.nodup, hmem, ?_⟩, ?_⟩
    · rintro before id after rfl
      simpa using hready.split.2.1
    · rintro ⟨id, hid, hcycle⟩
      exact absurd hcycle (hready.not_onCycle ((hmem id).2 hid))

/-- **Evaluation orders**: the order for nodes that are there is found, and is what it should be,
exactly when nothing they depend on lies on a cycle, and the order of the graph is that for all
nodes. -/
theorem evalOrder_sorts (hg : g.WellFormed) :
    (∀ targets : List NodeId, (∀ id ∈ targets, (g.node? id).isSome) →
      g.Sorts (· ∈ targets) (g.evalOrderFor targets)) ∧
    g.Sorts (fun id => (g.node? id).isSome) g.evalOrder := by
  refine ⟨fun _ => sorts_evalOrderFor hg, ?_⟩
  have hmem (id : NodeId) : id ∈ g.sinks ++ g.nodeIds ↔ (g.node? id).isSome := by
    rw [List.mem_append, ← mem_nodeIds]
    exact or_iff_right_of_imp fun h => (List.mem_filter.1 (sinks_eq ▸ h)).1
  exact (sorts_evalOrderFor hg fun id => (hmem id).1).congr hmem

end Graph

/-- An input that two operations read whose results are multiplied, and beside it two operations
that feed each other. -/
def knotted : Edit Unit := do
  let x ← addParameter "x" [2]
  let a ← wire "a" (.ofKind "Relu") [x]
  let b ← wire "b" (.ofKind "Abs") [x]
  discard (wire "y" (.ofKind "Multiply") [a, b, a])
  let (c, p) ← addOpWithData "c" (.ofKind "Relu")
  let (d, q) ← addOpWithData "d" (.ofKind "Relu")
  discard (addEdge p d 0 0)
  discard (addEdge q c 0 0)

/-- The repeated input and the repeated target are no cycle, and the loop beside them is one. -/
theorem evalOrder_sorts_knotted :
    let g := (knotted.run ∅).graph
    let targets : List NodeId := [⟨7⟩, ⟨4⟩, ⟨7⟩]
    g.WellFormed ∧ (∀ id ∈ targets, (g.node? id).isSome) ∧
      g.Sorts (· ∈ targets) (g.evalOrderFor targets) ∧
      (g.evalOrderFor targets).toOption = some [⟨0⟩, ⟨1⟩, ⟨2⟩, ⟨3⟩, ⟨4⟩, ⟨5⟩, ⟨6⟩, ⟨7⟩] ∧
      g.Sorts (fun id => (g.node? id).isSome) g.evalOrder ∧
      g.evalOrder = .error (GraphFault.cycle "c") := by
  intro g targets
  have hg : g.WellFormed := by decide +kernel
  have hlive : ∀ id ∈ targets, (g.node? id).isSome := by decide +kernel
  obtain ⟨hfor, hall⟩ := Graph.evalOrder_sorts hg
  exact ⟨hg, hlive, hfor targets hlive, by decide +kernel, hall, by decide +kernel⟩

end TensorGraph
