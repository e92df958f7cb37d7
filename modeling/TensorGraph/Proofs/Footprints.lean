import TensorGraph.Proofs.Agreements
import TensorGraph.Proofs.Effects
import TensorGraph.Proofs.Structure

/-!
What inferring an operation may touch.

A rule looks at what it likes, but it writes through the commands of `Write` only. Whichever writes
it makes, and whether it succeeds or fails after them, the graph that is left differs from the one
before within the footprint of the operation (`Graph.Footprint`): its own attributes and mark, the
data it makes, and, where the edge out of a data node leads into it and is the only one, those data
with the constant they come from. Data that several edges lead out of change with the operation
they come from, and with no other (`inferNode_footprint`).
-/

namespace TensorGraph

open Edit

namespace Graph

variable {g h k : Graph} {op d : NodeId} {o : Operation}

/-! ### Footprints -/

/-- The one edge out of a data node leads into an operation. -/
def ReadOnlyBy (g : Graph) (op d : NodeId) : Prop := ∃ e, g.outgoing d = [e] ∧ e.dst = op

/-- The graphs differ by what inferring an operation may write, and by nothing else: names and
numbers, kinds and types, edges and their ports are the same. -/
structure Footprint (g h : Graph) (op : NodeId) : Prop where
  skeleton : h.skeleton = g.skeleton
  flag? : ∀ i, h.flag? i ≠ g.flag? i → i = op
  attributes? : ∀ i, h.attributes? i ≠ g.attributes? i →
    i = op ∨ g.kind? i = some "Const" ∧ ∃ d, g.Leads i d ∧ g.ReadOnlyBy op d
  fact? : ∀ d, h.fact? d ≠ g.fact? d → g.Leads op d ∨ g.ReadOnlyBy op d

lemma Footprint.refl (g : Graph) (op : NodeId) : g.Footprint g op :=
  ⟨rfl, fun _ h => absurd rfl h, fun _ h => absurd rfl h, fun _ h => absurd rfl h⟩

lemma readOnlyBy_of_length_le {e : Edge} (he : e ∈ g.edges) (hsrc : e.src = d) (hdst : e.dst = op)
    (hl : (g.outgoing d).length ≤ 1) : g.ReadOnlyBy op d := by
  have hmem := mem_outgoing.2 ⟨he, hsrc⟩
  refine ⟨e, ?_, hdst⟩
  obtain ⟨e', hout⟩ := List.length_eq_one_iff.1
    (Nat.le_antisymm hl (List.length_pos_of_mem hmem))
  rw [hout, List.mem_singleton] at hmem
  rw [hout, hmem]

lemma footprint_settle (hg : g.WellFormed) (ho : g.op? op = some o) (ws : List Write) :
    g.Footprint (g.settle op ws) op where
  skeleton := skeleton_settle ws
  flag? i hi := absurd (flag?_settle ws) hi
  attributes? i hi := by
    by_contra hnot
    obtain ⟨hne, hnot⟩ := not_or.1 hnot
    refine hi (attributes?_settle_of_not_feeding hne (fun p hfeeds => hnot ?_) ws)
    obtain ⟨e, he, hdst, -, hl, hkind, e', he', hdst', hsrc'⟩ := (feeder?_eq_some hg ho).1 hfeeds
    exact ⟨hkind, e.src, ⟨e', he', hsrc', hdst'⟩, readOnlyBy_of_length_le he rfl hdst hl⟩
  fact? d hd := by
    by_contra hnot
    obtain ⟨hmakes, hreads⟩ := not_or.1 hnot
    refine hd (fact?_settle_of_shared hg ho (fun e he hsrc hdst => hmakes ⟨e, he, hsrc, hdst⟩)
      (fun e he hdst hsrc => ?_) ws)
    by_contra hl
    exact hreads (readOnlyBy_of_length_le he hsrc hdst (Nat.le_of_not_lt hl))

lemma Footprint.unmark (hf : g.Footprint h op) : g.Footprint (h.unmark op) op where
  skeleton := (skeleton_unmark h op).trans hf.skeleton
  flag? i hi := by
    by_contra hne
    rw [flag?_unmark, if_neg hne] at hi
    exact hne (hf.flag? i hi)
  attributes? i hi := hf.attributes? i (by rwa [attributes?_unmark] at hi)
  fact? d hd := hf.fact? d (by rwa [fact?_unmark] at hd)

lemma Footprint.of_alike (hf : g.Footprint h op) (hl : k.Alike h) : g.Footprint k op where
  skeleton := hl.skeleton.trans hf.skeleton
  flag? i hi := hf.flag? i (hl.flag? i ▸ hi)
  attributes? i hi := hf.attributes? i (hl.agrees.attributes i ▸ hi)
  fact? d hd := hf.fact? d (hl.fact? d ▸ hd)

/-- Data with several edges out of them change with the operation they come from. -/
lemma Footprint.producer_eq (hf : g.Footprint h op) (hg : g.WellFormed)
    (hd : 2 ≤ (g.outgoing d).length) (hne : h.fact? d ≠ g.fact? d) :
    g.producer d = .ok (some op) := by
  rcases hf.fact? d hne with ⟨e, he, hsrc, rfl⟩ | ⟨e, hout, -⟩
  · rcases hfact : g.fact? e.dst with _ | f
    · have hsome := isSome_fact?_of_skeleton hf.skeleton e.dst
      rw [hfact, Option.isSome_none, Option.isSome_eq_false_iff, Option.isNone_iff_eq_none] at hsome
      exact absurd (hsome.trans hfact.symm) hne
    · -- data have one producer
      rw [Graph.producer_eq hfact]
      rcases hin : g.incoming e.dst with _ | ⟨e', l⟩
      · exact absurd (mem_incoming.2 ⟨he, rfl⟩) (by simp [hin])
      · obtain ⟨he', hdst'⟩ := mem_incoming.1 (hin ▸ List.mem_cons_self : e' ∈ g.incoming e.dst)
        obtain rfl := eq_of_dst_eq hg he he' hdst'.symm hfact
        rw [← hsrc]
        rfl
  · rw [hout, List.length_singleton] at hd
    omega

end Graph

namespace Registry

variable {g : Graph} {id : NodeId}

lemma graph_inferNode_of_none (r : Registry) (ho : g.op? id = none) :
    ((r.inferNode id).run g).graph = g := by
  refine graph_bind_of (P := (· = g)) rfl fun n _ hnode => ?_
  obtain ⟨-, rfl⟩ := gives_query.1 hnode
  refine graph_bind_of (P := (· = _)) rfl fun o _ hop => ?_
  obtain ⟨hop, -⟩ := gives_query.1 hop
  cases ho.symm.trans (Graph.operation_eq_ok.1 hop)

/-- **What inferring a node may touch**: whatever the rules of the registry are, and whether
inference succeeds or fails, the graph changes within the footprint of the node, and data with
several edges out of them change only if the node is the operation they come from. -/
theorem inferNode_footprint (r : Registry) (hg : g.WellFormed) (id : NodeId) :
    let h := ((r.inferNode id).run g).graph
    g.Footprint h id ∧ ∀ d, 2 ≤ (g.outgoing d).length → h.fact? d ≠ g.fact? d →
      g.producer d = .ok (some id) := by
  intro h
  have hf : g.Footprint h id := by
    rcases ho : g.op? id with _ | o
    · rw [show h = g from graph_inferNode_of_none r ho]
      exact .refl g id
    · rcases hres : ((r.inferNode id).run g).result with e | changed
      · obtain ⟨ws, hl⟩ := exists_settle_of_stops hg ho ⟨hres, rfl⟩
        exact (Graph.footprint_settle hg ho ws).of_alike hl
      · obtain ⟨ws, hl, -⟩ := exists_settle_of_inferNode hg ho ⟨hres, rfl⟩
        exact (Graph.footprint_settle hg ho ws).unmark.of_alike hl
  exact ⟨hf, fun d hd hne => hf.producer_eq hg hd hne⟩

end Registry

/-! ### A rule that writes and fails -/

/-- A rule that writes to itself, to both inputs and to its output, and then fails. -/
def Rules.meddling : Rule := do
  RuleM.setAttribute "tried" (.bool true)
  RuleM.setInputValue 0 (.i64 (.vector [1, 2]))
  RuleM.setInputValue 1 (.i64 (.vector [1, 2]))
  RuleM.setOutputShape 0 [2]
  RuleM.fail (RuleFault.notConnected 2)

/-- An operation with this rule that reads two constants, one of which is read again. -/
def meddledConstants : Edit Unit := do
  let own ← addConst "own" (.i64 (.vector [0]))
  let shared ← addConst "shared" (.i64 (.vector [0]))
  discard (wire "y" (.ofKind "Meddle") [own, shared])
  discard (wire "z" (.ofKind "Relu") [shared])

/-- What was written before the failure stays, and the constant that is shared is left. -/
theorem inferNode_footprint_meddledConstants :
    let r := Registry.insert ∅ (.ofRule "Meddle" Rules.meddling)
    let g := (meddledConstants.run ∅).graph
    let h := ((r.inferNode ⟨4⟩).run g).graph
    g.WellFormed ∧ (∃ e, Fails (r.inferNode ⟨4⟩) g e) ∧ 2 ≤ (g.outgoing ⟨3⟩).length ∧
      h.attributes? ⟨4⟩ ≠ g.attributes? ⟨4⟩ ∧ h.attributes? ⟨0⟩ ≠ g.attributes? ⟨0⟩ ∧
      h.fact? ⟨1⟩ ≠ g.fact? ⟨1⟩ ∧ h.fact? ⟨5⟩ ≠ g.fact? ⟨5⟩ ∧ g.Footprint h ⟨4⟩ ∧
      ∀ d, 2 ≤ (g.outgoing d).length → h.fact? d ≠ g.fact? d → g.producer d = .ok (some ⟨4⟩) := by
  intro r g h
  have hg : g.WellFormed := by decide +kernel
  obtain ⟨hfails, hshared, hattr, hconst, hin, hout⟩ :
      ((r.inferNode ⟨4⟩).run g).result.toOption = none ∧ 2 ≤ (g.outgoing ⟨3⟩).length ∧
        (h.attributes? ⟨4⟩).map (·.keys) ≠ (g.attributes? ⟨4⟩).map (·.keys) ∧
        (((h.attributes? ⟨0⟩).bind (·.find? "value")).bind (·.toTensor?)).map (·.shape) ≠
          (((g.attributes? ⟨0⟩).bind (·.find? "value")).bind (·.toTensor?)).map (·.shape) ∧
        (h.fact? ⟨1⟩).map (·.shape) ≠ (g.fact? ⟨1⟩).map (·.shape) ∧
        (h.fact? ⟨5⟩).map (·.shape) ≠ (g.fact? ⟨5⟩).map (·.shape) := by decide +kernel
  obtain ⟨e, he⟩ : ∃ e, ((r.inferNode ⟨4⟩).run g).result = .error e := by
    rcases hres : ((r.inferNode ⟨4⟩).run g).result with e | changed
    · exact ⟨e, rfl⟩
    · rw [hres] at hfails
      cases hfails
  exact ⟨hg, ⟨e, he⟩, hshared, fun hsame => hattr (by rw [hsame]),
    fun hsame => hconst (by rw [hsame]), fun hsame => hin (by rw [hsame]),
    fun hsame => hout (by rw [hsame]), Registry.inferNode_footprint r hg ⟨4⟩⟩

end TensorGraph
