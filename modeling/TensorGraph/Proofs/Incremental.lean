import TensorGraph.Proofs.Settled
import TensorGraph.Proofs.Transformations

/-!
Incremental inference.

On a settled graph some attributes are changed and the operations they belong to are marked.
Inference of what is marked then ends as inference of everything does
(`inferMarked_meets_inferAll`). The two runs go through one order side by side. `Graph.Tracks` is
what the first one knows at each node: data that it has not recorded as changed are as they were in
the settled graph, so an operation that it passes over is idle, and the second run changes nothing
there.
-/

namespace TensorGraph

open Edit

namespace Graph

variable {g₀ g a b k : Graph} {id : NodeId} {done rest changed : List NodeId} {o : Operation}

/-- The graph after changes to the attributes of some operations, which are the marked ones. -/
structure Edited (g₀ : Graph) (M : NodeId → Prop) (g : Graph) : Prop where
  skeleton : g.skeleton = g₀.skeleton
  fact : ∀ d, g.fact? d = g₀.fact? d
  attributes : ∀ id, ¬M id → g.attributes? id = g₀.attributes? id
  flag : ∀ id b, g.flag? id = some b → (b = true ↔ M id)

/-- A graph on the way of a run that began near a settled one, with data recorded as changed and
nodes ahead: the rest is as it was. -/
structure Tracks (g₀ : Graph) (changed rest : List NodeId) (g : Graph) : Prop where
  skeleton : g.skeleton = g₀.skeleton
  attributes : ∀ id ∈ rest, g.flag? id = some false → g.attributes? id = g₀.attributes? id
  fact : ∀ d ∉ changed, g.fact? d = g₀.fact? d
  ahead : ∀ e ∈ g₀.edges, e.src ∈ rest → g.fact? e.dst = g₀.fact? e.dst

namespace Tracks

lemma tail (h : Tracks g₀ changed (id :: rest) g) : Tracks g₀ changed rest g where
  skeleton := h.skeleton
  attributes j hj := h.attributes j (List.mem_cons_of_mem id hj)
  fact := h.fact
  ahead e he hsrc := h.ahead e he (List.mem_cons_of_mem id hsrc)

/-- An operation whose sources are not recorded and that is not marked is idle. -/
lemma idle (h : Tracks g₀ changed (id :: rest) g) (hg₀ : g₀.WellFormed) (hidle : g₀.Idle id)
    (hflag : g.flag? id = some false) (hsrc : ∀ d ∈ g.sources id, d ∉ changed) : g.Idle id := by
  have hid : id ∈ id :: rest := List.mem_cons_self ..
  refine hidle.congr hg₀ h.skeleton (h.attributes id hid hflag) (fun d hd => h.fact d ?_)
    fun e he hs => h.ahead e he (hs ▸ hid)
  exact hsrc d (sources_of_skeleton h.skeleton id ▸ hd)

/-- A visit that records what it changes. -/
lemma visit (h : Tracks g₀ changed (id :: rest) g) (hg : g.Midway done (id :: rest))
    (ho : g.op? id = some o) {ws : List Write} {more : List NodeId}
    (hk : k.Alike ((g.settle id ws).unmark id))
    (hmore : ∀ d ∉ more, (g.settle id ws).fact? d = g.fact? d) :
    Tracks g₀ (more ++ changed) rest k where
  skeleton := by
    rw [hk.skeleton, skeleton_unmark, skeleton_settle, h.skeleton]
  attributes j hj hflag := by
    have hne : j ≠ id := fun heq => (List.nodup_cons.1 hg.ready.nodup).1 (heq ▸ hj)
    rw [hk.flag?, flag?_unmark, if_neg hne, flag?_settle] at hflag
    rw [hk.agrees.attributes, attributes?_unmark, hg.attributes_ahead hj]
    exact h.attributes j (List.mem_cons_of_mem id hj) hflag
  fact d hd := by
    obtain ⟨hd₁, hd₂⟩ := not_or.1 fun hmem => hd (List.mem_append.2 hmem)
    rw [hk.fact?, fact?_unmark, hmore d hd₁, h.fact d hd₂]
  ahead e he hsrc := by
    rw [hk.fact?, fact?_unmark, fact?_settle_of_later hg.ready hg.closed hg.runnable.wellFormed ho
      (edges_of_skeleton h.skeleton ▸ he) hsrc]
    exact h.ahead e he (List.mem_cons_of_mem id hsrc)

end Tracks

end Graph

/-- Two edits fail with the same error, or both succeed and leave graphs that agree. -/
def Edit.Meet {α β : Type} (x : Edit α) (a : Graph) (y : Edit β) (b : Graph) : Prop :=
  (∃ e, Fails x a e ∧ Fails y b e) ∨
    ∃ n h m k, Gives x a n h ∧ Gives y b m k ∧ h.Agrees k

namespace Registry

variable {g₀ a b : Graph} {id : NodeId} {done rest changed changed' : List NodeId}
  {visited visited' : Nat}

/-! ### One node in both runs -/

lemma meet_data (ha : a.op? id = none) (hb : b.op? id = none) (hlive : (a.node? id).isSome)
    (hlive' : (b.node? id).isSome) (h : Meet (standard.inferAmong changed visited rest) a
      (standard.inferAmong changed' visited' rest) b) :
    Meet (standard.inferAmong changed visited (id :: rest)) a
      (standard.inferAmong changed' visited' (id :: rest)) b := by
  have hfact : ∀ {g : Graph}, g.op? id = none → (g.node? id).isSome → ∃ f, g.fact? id = some f := by
    intro g hop hn
    obtain ⟨⟨name, o | f⟩, hn⟩ := Option.isSome_iff_exists.1 hn
    · rw [Graph.op?_eq_some.2 ⟨name, hn⟩] at hop
      cases hop
    · exact ⟨f, Graph.fact?_eq_some.2 ⟨name, hn⟩⟩
  rcases h with ⟨e, hx, hy⟩ | ⟨n, h, m, k, hx, hy, hagree⟩
  · exact Or.inl ⟨e, (fails_inferAmong_cons hlive).2 (Or.inl ⟨ha, hx⟩),
      (fails_inferAmong_cons hlive').2 (Or.inl ⟨hb, hy⟩)⟩
  · obtain ⟨f, hf⟩ := hfact ha hlive
    obtain ⟨f', hf'⟩ := hfact hb hlive'
    exact Or.inr ⟨n, h, m, k, gives_inferAmong_cons.2 (Or.inl ⟨f, hf, hx⟩),
      gives_inferAmong_cons.2 (Or.inl ⟨f', hf', hy⟩), hagree⟩

lemma meet_skip {o o' : Operation} {more : List NodeId} {b' : Graph} (ho : a.op? id = some o)
    (ho' : b.op? id = some o')
    (hskip : ¬(o.needsInference || (a.sources id).any (· ∈ changed)) = true)
    (hflag : o'.needsInference = true) (hb : Gives (standard.inferNode id) b more b')
    (h : Meet (standard.inferAmong changed visited rest) a
      (standard.inferAmong (more ++ changed') (visited' + 1) rest) b') :
    Meet (standard.inferAmong changed visited (id :: rest)) a
      (standard.inferAmong changed' visited' (id :: rest)) b := by
  have hwhy : (o'.needsInference || (b.sources id).any (· ∈ changed')) = true := by
    rw [hflag, Bool.true_or]
  have hlive : ∀ {g : Graph} {o : Operation}, g.op? id = some o → (g.node? id).isSome := by
    intro g o ho
    obtain ⟨name, hn⟩ := Graph.op?_eq_some.1 ho
    rw [hn]
    rfl
  rcases h with ⟨e, hx, hy⟩ | ⟨n, h, m, k, hx, hy, hagree⟩
  · refine Or.inl ⟨e, (fails_inferAmong_cons (hlive ho)).2 (Or.inr ⟨o, ho, ?_⟩),
      (fails_inferAmong_cons (hlive ho')).2 (Or.inr ⟨o', ho', ?_⟩)⟩
    · rwa [if_neg hskip]
    · rw [if_pos hwhy]
      exact Or.inr ⟨more, b', hb, hy⟩
  · refine Or.inr ⟨n, h, m, k, gives_inferAmong_cons.2 (Or.inr ⟨o, ho, ?_⟩),
      gives_inferAmong_cons.2 (Or.inr ⟨o', ho', ?_⟩), hagree⟩
    · rwa [if_neg hskip]
    · rw [if_pos hwhy]
      exact ⟨more, b', hb, hy⟩

lemma meet_visit {o o' : Operation} (ho : a.op? id = some o) (ho' : b.op? id = some o')
    (hwhy : (o.needsInference || (a.sources id).any (· ∈ changed)) = true)
    (hflag : o'.needsInference = true)
    (h : (∃ e, Fails (standard.inferNode id) a e ∧ Fails (standard.inferNode id) b e) ∨
      ∃ more a' more' b', Gives (standard.inferNode id) a more a' ∧
        Gives (standard.inferNode id) b more' b' ∧
        Meet (standard.inferAmong (more ++ changed) (visited + 1) rest) a'
          (standard.inferAmong (more' ++ changed') (visited' + 1) rest) b') :
    Meet (standard.inferAmong changed visited (id :: rest)) a
      (standard.inferAmong changed' visited' (id :: rest)) b := by
  have hwhy' : (o'.needsInference || (b.sources id).any (· ∈ changed')) = true := by
    rw [hflag, Bool.true_or]
  have hlive : ∀ {g : Graph} {o : Operation}, g.op? id = some o → (g.node? id).isSome := by
    intro g o ho
    obtain ⟨name, hn⟩ := Graph.op?_eq_some.1 ho
    rw [hn]
    rfl
  have hfails : ∀ {e : Error},
      (Fails (standard.inferNode id) a e ∨ ∃ more k, Gives (standard.inferNode id) a more k ∧
        Fails (standard.inferAmong (more ++ changed) (visited + 1) rest) k e) →
      (Fails (standard.inferNode id) b e ∨ ∃ more k, Gives (standard.inferNode id) b more k ∧
        Fails (standard.inferAmong (more ++ changed') (visited' + 1) rest) k e) →
      Meet (standard.inferAmong changed visited (id :: rest)) a
        (standard.inferAmong changed' visited' (id :: rest)) b := by
    intro e hx hy
    refine Or.inl ⟨e, (fails_inferAmong_cons (hlive ho)).2 (Or.inr ⟨o, ho, ?_⟩),
      (fails_inferAmong_cons (hlive ho')).2 (Or.inr ⟨o', ho', ?_⟩)⟩
    · rwa [if_pos hwhy]
    · rwa [if_pos hwhy']
  rcases h with ⟨e, hx, hy⟩ | ⟨more, a', more', b', ha, hb, hmeet⟩
  · exact hfails (Or.inl hx) (Or.inl hy)
  · rcases hmeet with ⟨e, hx, hy⟩ | ⟨n, h, m, k, hx, hy, hagree⟩
    · exact hfails (Or.inr ⟨more, a', ha, hx⟩) (Or.inr ⟨more', b', hb, hy⟩)
    · refine Or.inr ⟨n, h, m, k, gives_inferAmong_cons.2 (Or.inr ⟨o, ho, ?_⟩),
        gives_inferAmong_cons.2 (Or.inr ⟨o', ho', ?_⟩), hagree⟩
      · rw [if_pos hwhy]
        exact ⟨more, a', ha, hx⟩
      · rw [if_pos hwhy']
        exact ⟨more', b', hb, hy⟩

/-! ### Both runs -/

/-- The run over what is marked and changed meets the run over everything. -/
theorem meet_inferAmong (hg₀ : g₀.WellFormed) (hidle : ∀ id, (g₀.op? id).isSome → g₀.Idle id)
    (ha : a.Midway done rest) (ht : g₀.Tracks changed rest a) (hab : b.Agrees a)
    (hb : b.Flagged rest) (hlive : ∀ id ∈ rest, (a.node? id).isSome) :
    Meet (standard.inferAmong changed visited rest) a
      (standard.inferAmong changed' visited' rest) b := by
  induction rest generalizing a b done changed changed' visited visited' with
  | nil => exact Or.inr ⟨visited, a, visited', b, ⟨rfl, rfl⟩, ⟨rfl, rfl⟩, hab.symm⟩
  | cons id rest ih =>
    have hwf := ha.runnable.wellFormed
    have hwf' := hwf.of_skeleton hab.skeleton
    have hapart' := (ha.runnable.apart id).of_skeleton hab.skeleton
    have hnode : (a.node? id).isSome := hlive id (List.mem_cons_self ..)
    have hnode' : (b.node? id).isSome := Graph.isSome_node?_of_skeleton hab.skeleton id ▸ hnode
    have hid : id ∉ rest := (List.nodup_cons.1 ha.ready.nodup).1
    have hrest : ∀ {c : Graph}, c.skeleton = a.skeleton → ∀ i ∈ rest, (c.node? i).isSome :=
      fun hs i hi => by
        rw [Graph.isSome_node?_of_skeleton hs]
        exact hlive i (List.mem_cons_of_mem id hi)
    obtain ⟨⟨name, o | f⟩, hn⟩ := Option.isSome_iff_exists.1 hnode
    · have ho : a.op? id = some o := Graph.op?_eq_some.2 ⟨name, hn⟩
      obtain ⟨o', hn', hkind, hattr⟩ :=
        Graph.exists_op_of_skeleton hab.skeleton (hab.attributes id) hn
      have ho' : b.op? id = some o' := Graph.op?_eq_some.2 ⟨name, hn'⟩
      have hflag : o'.needsInference = true := by
        have := hb id (List.mem_cons_self ..)
        rw [Graph.flag?_of_op? ho'] at this
        simpa using this
      by_cases hwhy : (o.needsInference || (a.sources id).any (· ∈ changed)) = true
      · -- both runs come to the same verdict
        refine meet_visit ho ho' hwhy hflag ?_
        have hscene : b.scene id name o'.attributes = a.scene id name o.attributes := by
          rw [hattr]
          exact hab.symm.scene hwf ho name _
        rcases hv : standard.verdict o.kind (a.scene id name o.attributes) with e | ws
        · have hv' : standard.verdict o'.kind (b.scene id name o'.attributes) = .error e := by
            rw [hkind, hscene, hv]
          have hfail := fails_inferNode local_standard hwf' hn' hapart' hv'
          rw [hkind, hscene] at hfail
          exact Or.inl ⟨_, fails_inferNode local_standard hwf hn (ha.runnable.apart id) hv, hfail⟩
        · have hv' : standard.verdict o'.kind (b.scene id name o'.attributes) = .ok ws := by
            rw [hkind, hscene, hv]
          obtain ⟨more, a', hx, hl, hmore, -⟩ :=
            gives_inferNode local_standard hwf hn (ha.runnable.apart id) hv
          obtain ⟨more', b', hy, hl', -, -⟩ := gives_inferNode local_standard hwf' hn' hapart' hv'
          refine Or.inr ⟨more, a', more', b', hx, hy, ?_⟩
          have hvisit : standard.visit a id = .ok ((a.settle id ws).unmark id) :=
            visit_eq_ok.2 (Or.inr ⟨name, o, ws, hn, hv, rfl⟩)
          have hvisit' : standard.visit b id = .ok ((b.settle id ws).unmark id) :=
            visit_eq_ok.2 (Or.inr ⟨name, o', ws, hn', hv', rfl⟩)
          have hagree : b'.Agrees a' := by
            refine hl'.agrees.trans (Graph.Agrees.trans ?_ hl.symm.agrees)
            exact (Graph.agrees_unmark _ id).trans
              ((hab.settle ws).trans (Graph.agrees_unmark _ id).symm)
          refine ih ((ha.visit hvisit).of_agrees hl.agrees) (ht.visit ha ho hl hmore) hagree
            ((flagged_visit hvisit' hb hid).alike hl'.symm) (hrest ?_)
          exact hl.skeleton.trans (skeleton_visit hvisit)
      · -- an operation that is passed over would change nothing
        have hskip := hwhy
        simp only [Bool.or_eq_true, not_or, Bool.not_eq_true, List.any_eq_true, decide_eq_true_eq,
          not_exists, not_and] at hskip
        have hflag₀ : a.flag? id = some false := by
          rw [Graph.flag?_of_op? ho, hskip.1]
        have hop₀ : (g₀.op? id).isSome := by
          rw [← Graph.isSome_op?_of_skeleton ht.skeleton, ho]
          rfl
        have hidle' : b.Idle id := (ht.idle hg₀ (hidle id hop₀) hflag₀ hskip.2).of_agrees hwf hab
        obtain ⟨k, hk, hagree⟩ := hidle'.visit hwf' hapart'
        obtain ⟨more, b', hy, hl, -⟩ := gives_of_visit local_standard hwf' ho' hapart' hk
        have hmid : a.Midway (id :: done) rest := ha.step rfl fun _ _ => rfl
        exact meet_skip ho ho' hwhy hflag hy (ih hmid ht.tail
          (hl.agrees.trans (hagree.trans hab))
            ((flagged_visit hk hb hid).alike hl.symm) (hrest rfl))
    · have hop : a.op? id = none :=
        Graph.op?_eq_none_of_fact (Graph.fact?_eq_some.2 ⟨name, hn⟩)
      have hop' : b.op? id = none := Graph.op?_eq_none_of_skeleton hab.skeleton hop
      have hmid : a.Midway (id :: done) rest := ha.step rfl fun _ _ => rfl
      exact meet_data hop hop' hnode hnode' (ih hmid ht.tail hab
        (fun i hi => hb i (List.mem_cons_of_mem id hi)) (hrest rfl))

end Registry

namespace Graph

variable {g₀ g : Graph} {M : NodeId → Prop}

lemma Edited.tracks (h : g₀.Edited M g) (l : List NodeId) : g₀.Tracks [] l g where
  skeleton := h.skeleton
  attributes id _ hflag := h.attributes id fun hM => by
    cases (h.flag id false hflag).2 hM
  fact d _ := h.fact d
  ahead _ _ _ := h.fact _

/-- **Incremental inference**: when attributes of a settled graph are changed, inference of the
operations they belong to fails with the error that inference of all operations fails with, or both
succeed and leave the same attributes, shapes and values. -/
theorem inferMarked_meets_inferAll (hg : g₀.WellFormed) (hover : g₀.NoOverrides)
    (hax : g₀.ConstantAxes) (hset : g₀.Settled) (hedit : g₀.Edited M g) (hover' : g.NoOverrides) :
    (∃ e, Fails Registry.standard.inferMarked g e ∧ Fails Registry.standard.inferAll g e) ∨
      ∃ n h m k, Gives Registry.standard.inferMarked g n h ∧
        Gives Registry.standard.inferAll g m k ∧ h.Agrees k := by
  obtain ⟨l, hl₀, hidle⟩ := hset.idle hg hover hax
  obtain ⟨b, hmarks, hb⟩ := gives_flagOps gives_mark_op (g := g) (l := g.opNodes)
    fun _ hi => mem_opNodes.1 hi
  have hab : b.Agrees g := hb.agrees.trans (agrees_flagOps g _)
  have hl : g.evalOrder = .ok l := evalOrder_of_skeleton hedit.skeleton hl₀
  have hl' : b.evalOrder = .ok l := evalOrder_of_skeleton hab.skeleton hl
  have hwf := hg.of_skeleton hedit.skeleton
  have hord := ordered_of_evalOrder hl
  have hmid : g.Midway [] l :=
    { runnable := Registry.runnable_of_evalOrder hwf hl
      ready := hord.ready
      closed := by simp
      plain := fun _ ho => hover' ho
      axes := hax.of_skeleton hedit.skeleton }
  have hmeet : Meet (Registry.standard.inferAmong [] 0 l) g
    (Registry.standard.inferAmong [] 0 l) b :=
    Registry.meet_inferAmong hg hidle hmid (hedit.tracks l) hab
      ((g.flagged_flagOps l).alike hb.symm) fun id hid => hord.mem.1 hid
  rcases hmeet with ⟨e, hx, hy⟩ | ⟨n, h, m, k, hx, hy, hagree⟩
  · exact Or.inl ⟨e, Registry.fails_inferMarked hl hx,
      Registry.fails_inferAll hmarks (Registry.fails_inferMarked hl' hy)⟩
  · exact Or.inr ⟨n, h, m, k, Registry.gives_inferMarked.2 ⟨l, hl, hx⟩,
      Registry.gives_inferAll.2 ⟨b, hmarks, hb, Registry.gives_inferMarked.2 ⟨l, hl', hy⟩⟩, hagree⟩

/-- A settled graph with one attribute set and its operation marked. -/
lemma edited_setAttribute (hg : ∀ id, g₀.flag? id ≠ some true) (i : NodeId) (name : String)
    (value : Attribute) : g₀.Edited (· = i) (g₀.modifyOp i fun o =>
      { o.withAttribute name value with needsInference := true }) where
  skeleton := skeleton_modifyOp i (fun _ => rfl) fun _ => rfl
  fact _ := fact?_modifyOp ..
  attributes id hid := by
    refine attributes?_congr ((op?_modifyOp ..).trans (if_neg hid))
  flag id b hb := by
    unfold flag? at hb
    rw [op?_modifyOp] at hb
    split at hb
    · next hid =>
      obtain ⟨o, ho, rfl⟩ := Option.map_eq_some_iff.1 hb
      obtain ⟨o', -, rfl⟩ := Option.map_eq_some_iff.1 ho
      exact ⟨fun _ => hid, fun _ => rfl⟩
    · next hid =>
      refine ⟨fun hb' => absurd ?_ (hg id), fun h => absurd h hid⟩
      rw [← hb']
      exact hb

end Graph

/-- An input with a unit axis inserted at its front, after inference. -/
def unsqueezed : Edit Unit := do
  let x ← addParameter "x" [2, 3]
  let axes ← addConst "axes" (.ofInts [0])
  let y ← wire "y" (.ofKind "Unsqueeze") [x, axes]
  let z ← wire "z" (.ofKind "Relu") [y]
  discard (addResult "out" z)
  discard Registry.standard.inferAll

/-- The axis counted from the right instead: inference of what is marked counts it from the left
again and finds the shapes that inference of everything finds. -/
theorem inferMarked_meets_inferAll_unsqueezed :
    let g₀ := (unsqueezed.run ∅).graph
    let g := g₀.modifyOp ⟨2⟩ fun o =>
      { o.withAttribute "value" (.tensor (.ofInts [-1])) with needsInference := true }
    g₀.WellFormed ∧ g₀.NoOverrides ∧ g₀.ConstantAxes ∧ g₀.Settled ∧ g₀.Edited (· = ⟨2⟩) g ∧
      g.NoOverrides ∧
      ((∃ e, Fails Registry.standard.inferMarked g e ∧ Fails Registry.standard.inferAll g e) ∨
        ∃ n h m k, Gives Registry.standard.inferMarked g n h ∧
          Gives Registry.standard.inferAll g m k ∧ h.Agrees k) := by
  intro g₀ g
  have hg : g₀.WellFormed := by decide +kernel
  have hover : g₀.NoOverrides := by decide +kernel
  have hax : g₀.ConstantAxes := by decide +kernel
  have hset : g₀.Settled := by
    refine ⟨5, _, ⟨toOption_eq_some.1 (by decide +kernel), rfl⟩, Graph.agrees_of_sameContents ?_ ?_⟩
    · exact Registry.standard.keeps_inferAll_of (Graph.unaffected_skeleton g₀.skeleton) g₀ rfl
    · decide +kernel
  have hmarks : ∀ id, g₀.flag? id ≠ some true := by
    intro id hid
    obtain ⟨o, ho, hflag⟩ := Option.map_eq_some_iff.1 hid
    have hall : ∀ {id : NodeId} {o : Operation}, g₀.op? id = some o → o.needsInference = false :=
      (Graph.forall_op_iff (P := fun o => o.needsInference = false)).2 (by decide +kernel)
    rw [hall ho] at hflag
    cases hflag
  have hedit := Graph.edited_setAttribute hmarks ⟨2⟩ "value" (.tensor (.ofInts [-1]))
  have hover' : g.NoOverrides := by decide +kernel
  exact ⟨hg, hover, hax, hset, hedit, hover',
    Graph.inferMarked_meets_inferAll hg hover hax hset hedit hover'⟩

end TensorGraph
