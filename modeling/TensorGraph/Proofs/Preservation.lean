import TensorGraph.Proofs.Optimized
import TensorGraph.Proofs.Pinning
import TensorGraph.Proofs.Splices
import TensorGraph.Proofs.Sweeps

/-!
Optimizing keeps what the outputs of a model read.

The first normalization infers every operation that it does not clean up, as inference of all
operations would, and leaves a poised graph (`poised_of_normalize`). From there each pass, with the
normalization after it, leaves the graph poised and what its outputs read. The last pass changes
attributes only.
-/

namespace TensorGraph

open Edit

namespace Graph

variable {g h k : Graph} {id : NodeId} {kind : String} {fixed : String → Bool} {port : Edge → Nat}

instance : Decidable g.SingleInput :=
  inferInstanceAs (Decidable (∀ e ∈ g.edges, ∀ e' ∈ g.edges,
    g.kind? e.dst = some "Identity" → e.dst = e'.dst → e = e'))

/-! ### The first normalization -/

/-- The kept edges of a clean-up, as they were. -/
lemma Cleaned.exists_edge (hc : g.Cleaned fixed h port) {e : Edge} (he : e ∈ h.edges) :
    ∃ e' ∈ g.edges, e'.src = e.src ∧ e'.dst = e.dst ∧ e = { e' with out := port e' } := by
  obtain ⟨e', he', -, -, heq⟩ := (hc.edges e).1 he
  exact ⟨e', he', by rw [heq], by rw [heq], heq⟩

lemma Cleaned.op? (hc : g.Cleaned fixed h port) {o : Operation} (ho : h.op? id = some o) :
    g.op? id = some o := by
  obtain ⟨name, hn⟩ := op?_eq_some.1 ho
  exact op?_eq_some.2 ⟨name, ((hc.node? id _).1 hn).1⟩

lemma Cleaned.lone (hc : g.Cleaned fixed h port) (hl : g.Lone kind) : h.Lone kind := by
  intro e he e' he' hkind hsrc
  obtain ⟨e₀, he₀, hsrc₀, -, heq⟩ := hc.exists_edge he
  obtain ⟨e₁, he₁, hsrc₁, -, heq'⟩ := hc.exists_edge he'
  rw [heq, heq', hl e₀ he₀ e₁ he₁ (hsrc₀ ▸ (hc.kind?.1 hkind).1)
    (hsrc₀.trans (hsrc.trans hsrc₁.symm))]

lemma Cleaned.singleInput (hc : g.Cleaned fixed h port) (hs : g.SingleInput) : h.SingleInput := by
  intro e he e' he' hkind hdst
  obtain ⟨e₀, he₀, -, hdst₀, heq⟩ := hc.exists_edge he
  obtain ⟨e₁, he₁, -, hdst₁, heq'⟩ := hc.exists_edge he'
  rw [heq, heq', hs e₀ he₀ e₁ he₁ (hdst₀ ▸ (hc.kind?.1 hkind).1)
    (hdst₀.trans (hdst.trans hdst₁.symm))]

lemma Cleaned.shapedFacts (hc : g.Cleaned fixed h port) (hs : g.ShapedFacts) : h.ShapedFacts := by
  refine hs.of_facts fun d f hf => ?_
  obtain ⟨name, hn⟩ := fact?_eq_some.1 hf
  exact fact?_eq_some.2 ⟨name, ((hc.node? d _).1 hn).1⟩

lemma Cleaned.flagged (hc : g.Cleaned fixed h port) (hf : ∀ id, g.flag? id ≠ some false)
    (l : List NodeId) : h.Flagged l := by
  intro id _ hid
  obtain ⟨o, ho, hflag⟩ := Option.map_eq_some_iff.1 hid
  refine hf id ?_
  rw [flag?_of_op? (hc.op? ho), hflag]

/-- When all operations are marked, inference of what is marked does what inference of all does. -/
lemma alike_of_inferAll (hg : g.WellFormed) (hf : ∀ id, g.flag? id ≠ some false) {n m : Nat}
    (hx : Gives Registry.standard.inferMarked g n h) (hy : Gives Registry.standard.inferAll g m k) :
    h.Alike k := by
  obtain ⟨g', -, hmarked, hy⟩ := Registry.gives_inferAll.1 hy
  have hl : g'.Alike g := hmarked.trans (alike_flagOps fun i _ => hf i)
  have hflag (l : List NodeId) : g.Flagged l := fun id _ => hf id
  obtain ⟨l, s, hord, hs, hhs⟩ := Registry.sweep_of_gives Registry.local_standard hg hflag hx
  obtain ⟨l', s', hord', hs', hks⟩ := Registry.sweep_of_gives Registry.local_standard
    (hg.of_skeleton hl.skeleton) (fun l => (hflag l).alike hl.symm) hy
  obtain rfl := Except.ok.inj ((evalOrder_of_skeleton hl.skeleton.symm hord').symm.trans hord)
  obtain ⟨s'', hs'', hss⟩ := Registry.sweep_of_alike hl.symm hs
  obtain rfl := Except.ok.inj (hs'.symm.trans hs'')
  exact hhs.trans (hss.trans hks.symm)

/-- **First normalization**: a graph of which every operation is marked is poised once it is
normalized, and reads what it reads after a clean-up and inference of all operations. -/
theorem poised_of_normalize (hg : g.WellFormed) (hover : g.NoOverrides)
    (hf : ∀ id, g.flag? id ≠ some false) (hconst : g.Lone "Const") (hid : g.Lone "Identity")
    (hsingle : g.SingleInput) (hshaped : g.Shaped)
    (hx : Gives Pipeline.standard.normalize g () h) : h.Poised := by
  obtain ⟨report, k, n, hclean, hinfer⟩ := Pipeline.gives_normalize hx
  obtain ⟨port, hc⟩ := cleaned_of_gives hg hclean
  have hk := hc.wellFormed
  obtain ⟨l, s, hl, hs, hhs⟩ :=
    Registry.sweep_of_gives Registry.local_standard hk (hc.flagged hf) hinfer
  have hord := ordered_of_evalOrder hl
  have hway : k.Underway [] l := underway_of_evalOrder hk (fun ho => hover (hc.op? ho)) hl
  have hskel : s.skeleton = k.skeleton := Registry.skeleton_sweep hs
  have hquiescent : s.Quiescent := by
    intro id hop
    refine hway.sweep_calm (hc.lone hconst) hs ?_ hop
    obtain ⟨node, hn, -⟩ := isSome_op?.1 (isSome_op?_of_skeleton hskel id ▸ hop)
    exact hord.mem.2 (hn ▸ rfl)
  obtain ⟨l', -, hrun⟩ := Registry.run_of_inferMarked Registry.local_standard hk hinfer
  have hskel' : h.skeleton = k.skeleton := hhs.skeleton.trans hskel
  have hs' : s.WellFormed := hk.of_skeleton hskel
  exact
    { wellFormed := hk.of_skeleton hskel'
      quiescent := hquiescent.of_agrees hs' hhs.agrees
      shaped := (hc.shapedFacts hshaped.facts).run hrun
      compact := fun op kind hkind hfixed => by
        unfold Compact
        rw [edges_of_skeleton hskel']
        exact hc.compact op kind (kind?_of_skeleton hskel' op ▸ hkind) hfixed
      constants := (hc.lone hconst).of_skeleton hskel'
      identities := (hc.lone hid).of_skeleton hskel'
      single := by
        unfold SingleInput
        simp only [edges_of_skeleton hskel', kind?_of_skeleton hskel']
        exact hc.singleInput hsingle }

end Graph

/-! ### The passes -/

namespace Pipeline

variable {g h : Graph}

lemma agrees_stage (g : Graph) (s : Stage) : Graph.Agrees { g with stage := s } g :=
  Graph.Alike.agrees ⟨rfl, rfl⟩

/-- Nothing is done about queues when nothing is taken out of them. -/
lemma eq_of_replaceQueues (hq : ∀ id, g.kind? id ≠ some "QueueDequeueUpToV2")
    (hx : Gives Transformation.replaceQueues.apply g () h) : h = g := by
  obtain ⟨_, _, hcurrent, hx⟩ := gives_bind.1 hx
  obtain ⟨rfl, rfl⟩ := gives_current.1 hcurrent
  have hnone : g.opNodesOf "QueueDequeueUpToV2" = [] :=
    List.eq_nil_iff_forall_not_mem.2 fun id hid => hq id (Graph.mem_opNodesOf.1 hid)
  rw [hnone] at hx
  exact (gives_pure.1 hx).2.symm

/-- Removing identities to the end leaves a poised graph poised, and what its outputs read. -/
lemma poised_of_settles (hp : g.Poised) (hx : standard.Settles .removeIdentity g h) :
    h.Poised ∧ g.SameResults h := by
  induction hx with
  | last happly _ hnormal =>
    obtain ⟨hk, hsame⟩ := hp.removeIdentities happly
    obtain ⟨hh, hsame'⟩ := hk.normalize hnormal
    exact ⟨hh, hsame.trans hsame'⟩
  | more hfirst _ ih =>
    obtain ⟨m, happly, hnormal⟩ := hfirst
    obtain ⟨hm, hsame⟩ := hp.removeIdentities happly
    obtain ⟨hk, hsame'⟩ := hm.normalize hnormal
    obtain ⟨hh, hsame''⟩ := ih hk
    exact ⟨hh, (hsame.trans hsame').trans hsame''⟩

/-- The last pass leaves what the outputs of the model read. -/
lemma sameResults_of_normalizeGatherAxes
    (hx : Gives Transformation.normalizeGatherAxes.apply g () h) : g.SameResults h := by
  have hskel := (skeleton_of_normalizeGatherAxes hx).1
  have hfact : ∀ d, h.fact? d = g.fact? d := by
    refine hx.keeps (P := fun k => ∀ d, k.fact? d = g.fact? d) ?_ fun _ => rfl
    refine keeps_bind keeps_current fun _ => keeps_forM fun op _ =>
      keeps_normalizeGatherAxis_of (fun {k} id name value r hk d => ?_) op
    exact (Graph.fact?_modifyOp ..).trans (hk d)
  intro id hid
  refine ⟨(Graph.kind?_of_skeleton hskel id).trans hid, ?_⟩
  unfold Graph.inputFact?
  rw [Graph.inSource_of_skeleton hskel, show h.fact? = g.fact? from funext hfact]

/-- **What optimizing preserves**: every output of the model is still there, and reads the shape and
the value that it reads after a clean-up and inference of all operations. -/
theorem optimize_sameResults {k g₁ g₂ : Graph} (hg : g.WellFormed) (hover : g.NoOverrides)
    (hqueues : ∀ id, g.kind? id ≠ some "QueueDequeueUpToV2")
    (hmarked : ∀ id, g.flag? id ≠ some false) (hconst : g.Lone "Const")
    (hidentities : g.Lone "Identity") (hsingle : g.SingleInput) (hshaped : g.Shaped)
    {report : CleanupReport} {n : Nat}
    (hclean : Gives (cleanUp Registry.standard.isFixed) g report k)
    (hinfer : Gives Registry.standard.inferAll k n g₁) (hx : Gives standard.optimize g () g₂) :
    ∀ id, g.kind? id = some "Result" → g₁.kind? id = some "Result" ∧
      g₂.kind? id = some "Result" ∧ g₂.inputFact? id 0 = g₁.inputFact? id 0 := by
  obtain ⟨h₀, h₁, h₂, h₃, hfirst, ⟨k₁, hreplace, hnormal₁⟩, hsettles,
    ⟨k₃, hpin, hnormal₃⟩, haxes⟩ :=
    gives_optimize hx
  have hp₀ := Graph.poised_of_normalize hg hover hmarked hconst hidentities hsingle hshaped hfirst
  obtain ⟨report', k', m, hclean', hinfer'⟩ := gives_normalize hfirst
  obtain ⟨-, rfl⟩ := hclean.unique hclean'
  obtain ⟨port, hc⟩ := cleaned_of_gives hg hclean
  have hagree : h₀.Agrees g₁ := (Graph.alike_of_inferAll hc.wellFormed
    (fun id => hc.flagged hmarked [id] id (List.mem_singleton_self id)) hinfer' hinfer).agrees
  have hskel : g₁.skeleton = k.skeleton :=
    hinfer.keeps (Registry.standard.keeps_inferAll_of (Graph.unaffected_skeleton _)) rfl
  have hkind (id : NodeId) : h₀.kind? id = k.kind? id :=
    Graph.kind?_of_skeleton (hagree.skeleton.trans hskel) id
  -- the passes, one after the other
  obtain rfl := eq_of_replaceQueues (g := { h₀ with stage := .front })
    (fun id hid => hqueues id (hc.kind?.1 ((hkind id).symm.trans hid)).1) hreplace
  obtain ⟨hp₁, hsame₁⟩ := (hp₀.of_agrees (agrees_stage h₀ .front)).normalize hnormal₁
  obtain ⟨hp₂, hsame₂⟩ := poised_of_settles (hp₁.of_agrees (agrees_stage h₁ .middle)) hsettles
  obtain ⟨hp₃, hsame₃⟩ := poised_of_pinReshapes (hp₂.of_agrees (agrees_stage h₂ .back)) hpin
  obtain ⟨-, hsame₄⟩ := hp₃.normalize hnormal₃
  have hsame : g₁.SameResults g₂ := hagree.sameResults.trans <|
    (agrees_stage h₀ .front).sameResults.trans <| hsame₁.trans <|
    (agrees_stage h₁ .middle).sameResults.trans <| hsame₂.trans <|
    (agrees_stage h₂ .back).sameResults.trans <| hsame₃.trans <|
    hsame₄.trans (sameResults_of_normalizeGatherAxes haxes)
  intro id hid
  have hid₁ := (Graph.kind?_of_skeleton hskel id).trans (hc.kind?_result hid)
  exact ⟨hid₁, hsame id hid₁⟩

end Pipeline

/-- A product of a reshaped input, that an identity passes on, with another one. -/
def reshapedProduct : Edit Unit := do
  let x ← addParameter "x" [2, 6]
  let same ← wire "same" (.ofKind "Identity") [x]
  let pattern ← addConst "pattern" (.ofInts [4, 3])
  let y ← wire "y" (.ofKind "Reshape") [same, pattern]
  let w ← addParameter "w" [3, 5]
  let z ← wire "z" (.ofKind "MatMul") [y, w]
  discard (addResult "out" z)

/-- The identity is removed and the reshape pinned; the output reads the same. -/
theorem optimize_sameResults_reshapedProduct :
    let g := (reshapedProduct.run ∅).graph
    let k := ((cleanUp Registry.standard.isFixed).run g).graph
    let g₁ := (Registry.standard.inferAll.run k).graph
    let g₂ := (Pipeline.standard.optimize.run g).graph
    g.WellFormed ∧ g.NoOverrides ∧ (∀ id, g.kind? id ≠ some "QueueDequeueUpToV2") ∧
      (∀ id, g.flag? id ≠ some false) ∧ g.Lone "Const" ∧ g.Lone "Identity" ∧ g.SingleInput ∧
      g.Shaped ∧ Gives (cleanUp Registry.standard.isFixed) g ⟨[], 0⟩ k ∧
      Gives Registry.standard.inferAll k 7 g₁ ∧ Gives Pipeline.standard.optimize g () g₂ ∧
      ∀ id, g.kind? id = some "Result" → g₁.kind? id = some "Result" ∧
        g₂.kind? id = some "Result" ∧ g₂.inputFact? id 0 = g₁.inputFact? id 0 := by
  intro g k g₁ g₂
  have hg : g.WellFormed := by decide +kernel
  have hover : g.NoOverrides := by decide +kernel
  have hqueues : ∀ id, g.kind? id ≠ some "QueueDequeueUpToV2" := by
    have hnone : g.opNodesOf "QueueDequeueUpToV2" = [] := by decide +kernel
    exact fun id hid => List.not_mem_nil (hnone ▸ Graph.mem_opNodesOf.2 hid)
  have hmarked : ∀ id, g.flag? id ≠ some false := by
    intro id hid
    obtain ⟨o, ho, hflag⟩ := Option.map_eq_some_iff.1 hid
    have hall : ∀ {id : NodeId} {o : Operation}, g.op? id = some o → o.needsInference = true :=
      (Graph.forall_op_iff (P := fun o => o.needsInference = true)).2 (by decide +kernel)
    rw [hall ho] at hflag
    cases hflag
  have hconst : g.Lone "Const" := by decide +kernel
  have hid : g.Lone "Identity" := by decide +kernel
  have hsingle : g.SingleInput := by decide +kernel
  have hshaped : g.Shaped := by decide +kernel
  have hclean : Gives (cleanUp Registry.standard.isFixed) g ⟨[], 0⟩ k :=
    ⟨toOption_eq_some.1 (by decide +kernel), rfl⟩
  have hinfer : Gives Registry.standard.inferAll k 7 g₁ :=
    ⟨toOption_eq_some.1 (by decide +kernel), rfl⟩
  have hx : Gives Pipeline.standard.optimize g () g₂ :=
    ⟨toOption_eq_some.1 (by decide +kernel), rfl⟩
  exact ⟨hg, hover, hqueues, hmarked, hconst, hid, hsingle, hshaped, hclean, hinfer, hx,
    Pipeline.optimize_sameResults hg hover hqueues hmarked hconst hid hsingle hshaped hclean hinfer
      hx⟩

end TensorGraph
