import TensorGraph.Proofs.Mutations
import TensorGraph.Proofs.Poised

/-!
Values go with their shapes.

In a `Shaped` graph each data node that has a value has the shape of that value. The changes of a
graph keep this as long as what they write of data is shaped (`Graph.shapedInvariant_shapedFacts`),
and this is all that builders, rules, clean-ups and the standard transformations write. So it stays
true whatever is done to a graph (`shaped_of_mutations`).
-/

namespace TensorGraph

open Edit

/-! ### The basic changes -/

namespace Graph

variable {g h : Graph} {id d : NodeId} {f : Fact}

lemma ShapedFacts.of_nodes (hs : g.ShapedFacts)
    (hnodes : ∀ d n, h.node? d = some n → g.node? d = some n) : h.ShapedFacts := by
  refine hs.of_facts fun d f hf => ?_
  obtain ⟨name, hn⟩ := fact?_eq_some.1 hf
  exact fact?_eq_some.2 ⟨name, hnodes d _ hn⟩

lemma ShapedFacts.pushNode (hs : g.ShapedFacts) {name : String} {c : Content}
    (hc : ∀ f, c = .data f → f.Shaped) (hfree : g.contains name = false) :
    (g.pushNode ⟨name, c⟩ hfree).ShapedFacts := by
  intro d f hf
  obtain ⟨name', hn⟩ := fact?_eq_some.1 hf
  rcases (node?_pushNode_eq_some hfree).1 hn with ⟨-, hnew⟩ | hold
  · exact hc f (congrArg Node.content hnew).symm
  · exact hs d f (fact?_eq_some.2 ⟨name', hold⟩)

lemma ShapedFacts.modifyFact (hs : g.ShapedFacts) {u : Fact → Fact}
    (hu : ∀ f, g.fact? id = some f → (u f).Shaped) : (g.modifyFact id u).ShapedFacts := by
  intro d f hf
  rw [fact?_modifyFact] at hf
  split at hf
  · obtain ⟨f₀, hf₀, rfl⟩ := Option.map_eq_some_iff.1 hf
    exact hu f₀ hf₀
  · exact hs d f hf

end Graph

lemma keeps_shapedFacts_change {u : Graph → Graph}
    (hu : ∀ g : Graph, g.ShapedFacts → (u g).ShapedFacts) : Keeps Graph.ShapedFacts (change u) :=
  fun g hg => (hu g hg).of_nodes fun _ _ hn => hn

lemma keeps_shapedFacts_removeEdge (i : EdgeId) : Keeps Graph.ShapedFacts (removeEdge i) :=
  keeps_bind (keeps_query _) fun _ =>
    keeps_bind (keeps_shapedFacts_change fun g hg => hg.of_nodes fun d n hn => by
      rwa [Graph.node?_eraseEdge] at hn) fun _ => keeps_pure _

/-- A node that is added is shaped if it is an operation or its fact is. -/
lemma shapedFacts_of_addNode {g : Graph} {name : String} {c : Content} (hg : g.ShapedFacts)
    (hc : ∀ f, c = .data f → f.Shaped) : ((addNode name c).run g).graph.ShapedFacts := by
  rcases hr : ((addNode name c).run g).result with e | id
  · rw [atomic_addNode name c g e hr]
    exact hg
  · obtain ⟨hfree, -, hh⟩ := gives_addNode.1 ⟨hr, rfl⟩
    rw [hh]
    exact (hg.pushNode hc hfree).of_nodes fun _ _ hn => hn

/-- Changes that write of data what is shaped leave a shaped graph shaped. -/
lemma Graph.shapedInvariant_shapedFacts : Graph.ShapedInvariant Graph.ShapedFacts where
  addOp name o g hg := shapedFacts_of_addNode hg nofun
  addData name f hg hf := by
    refine shapedFacts_of_addNode hg fun f' hf' => ?_
    cases hf'
    rcases hf with hf | ⟨d, hd⟩
    · exact hf
    · exact hg d f (fact_eq_ok.1 hd)
  touch id := keeps_bind (keeps_shapedFacts_change fun _ hg => hg) fun _ => keeps_query _
  modifyOp id u :=
    keeps_bind (keeps_shapedFacts_change fun g hg =>
      hg.of_facts fun _ _ hf => (fact?_modifyOp ..).symm.trans hf) fun _ =>
        keeps_bind (keeps_query _) fun _ => keeps_pure _
  modifyFact {g} id u hg hu := by
    have hfact : (g.modifyFact id u).ShapedFacts :=
      hg.modifyFact fun f hf => hu f (fact_eq_ok.2 hf) (hg id f hf)
    exact keeps_bind (keeps_query fun k => k.fact id) (fun _ => keeps_pure ()) _
      (hfact.of_nodes fun _ _ hn => hn)
  addEdge src dst out inp := (atomic_addEdge src dst out inp).keeps fun g i h hg hx => by
    obtain ⟨-, -, hsrc, hdst, rfl⟩ := gives_addEdge.1 hx
    exact hg.of_nodes fun d n hn => congrFun (node?_pushLink hsrc hdst) d ▸ hn
  removeEdge := keeps_shapedFacts_removeEdge
  removeNode := keeps_removeNode_of keeps_shapedFacts_removeEdge fun hg _ =>
    hg.of_nodes fun d n hn => by
      have hn : Graph.node? (Graph.eraseNode _ _) d = some n := hn
      rw [node?_eraseNode] at hn
      exact (Option.ite_none_left_eq_some.1 hn).2
  compactOutputs op :=
    keeps_bind (keeps_query _) fun _ =>
      keeps_bind (keeps_forM fun _ _ => keeps_bind (keeps_query _) fun _ =>
        keeps_shapedFacts_change fun _ hg => hg.of_nodes fun _ _ hn => hn) fun _ => keeps_pure _

/-! ### Runs of mutations -/

/-- **Coherence**: if every value in a graph has the shape that is known, this stays so whatever
truthful mutations are run on it, whether they succeed or fail halfway. -/
theorem shaped_of_mutations {ms : List Mutation} (hms : ∀ m ∈ ms, m.Truthful) {g : Graph}
    (hg : g.Shaped) : (Mutation.runAll ms g).Shaped := by
  have hkeeps : ∀ m ∈ ms, Keeps Graph.ShapedFacts m.edit := fun m hm =>
    Mutation.keeps_edit_of_truthful Graph.shapedInvariant_shapedFacts
      (fun _ _ hk => hk.of_nodes fun _ _ hn => hn) (hms m hm)
  have hfacts : (Mutation.runAll ms g).ShapedFacts := Mutation.runAll_of_keeps hkeeps hg.facts
  intro d f t hf ht
  exact hfacts d f hf t ht

/-- A sum of data with a value and a constant is inferred, the constant is changed to one that does
not fit, and inference fails. -/
def brokenSum : List Mutation :=
  [.addNode "x" (.data (.ofValue (.ofInts [1, 2]))), .addConst "c" (.ofInts [3, 4]),
    .wire "sum" (.ofKind "Add") [⟨0⟩, ⟨2⟩], .inferAll .standard, .splitData ⟨0⟩ [] "copy",
    .setConstValue ⟨1⟩ (.ofInts [5, 6, 7]), .inferAll .standard]

/-- The values of the changed constant, of the sum and of the copy still go with their shapes. -/
theorem shaped_of_brokenSum : (∀ m ∈ brokenSum, m.Truthful) ∧ Graph.Shaped ∅ ∧
    ((Mutation.inferAll .standard).edit.run (Mutation.runAll brokenSum ∅)).result.toOption = none ∧
    ((Mutation.runAll brokenSum ∅).entries.map fun e =>
      (e.2.fact?.bind (·.value)).map (·.toInts)) =
        [some [1, 2], none, some [5, 6, 7], none, some [4, 6], some [1, 2]] ∧
    (Mutation.runAll brokenSum ∅).Shaped := by
  have hms : ∀ m ∈ brokenSum, m.Truthful := by
    intro m hm
    simp only [brokenSum, List.mem_cons, List.not_mem_nil, or_false] at hm
    rcases hm with rfl | rfl | rfl | rfl | rfl | rfl | rfl
    · exact Fact.shaped_ofValue _
    all_goals trivial
  have hempty : Graph.Shaped ∅ := by decide +kernel
  exact ⟨hms, hempty, by decide +kernel, by decide +kernel, shaped_of_mutations hms hempty⟩

end TensorGraph
