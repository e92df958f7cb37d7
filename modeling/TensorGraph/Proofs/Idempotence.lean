import TensorGraph.Proofs.Upheld

/-!
Inference of all operations, twice.

A second inference does not leave the graph as it is on its way: an operation other than a constant
may write axes again as it derives them, and these stay so until the sweep comes to the unsqueeze
that reads them, which counts them from the left as it did the first time. `Graph.Resumes` says that
this is all that differs from the first result. Every visit keeps it so (`Resumes.visit`), and at
the end nothing is left to be counted (`Resumes.sweep`).
-/

namespace TensorGraph

open Edit

namespace Graph

variable {g h k : Graph} {id d : NodeId} {o : Operation} {name : String} {ws : List Write}
  {done rest : List NodeId}

/-- The data hold axes that an unsqueeze of `rest` is to count from the left, as they are in `h`,
and that no constant holds. -/
structure Lags (h g : Graph) (rest : List NodeId) (d : NodeId) : Prop where
  counts : ∃ f f', g.fact? d = some f ∧ h.fact? d = some f' ∧ f.shape.isSome ∧
    h.Counts (· ∈ rest) d f f'
  feeder : ∀ e ∈ h.edges, e.dst = d → h.kind? e.src ≠ some "Const"

/-- The graph is `h`, but for axes that unsqueezes of `rest` are to count. -/
structure Resumes (h g : Graph) (rest : List NodeId) : Prop where
  skeleton : g.skeleton = h.skeleton
  attributes : ∀ j, g.attributes? j = h.attributes? j
  fact : ∀ d, g.fact? d = h.fact? d ∨ h.Lags g rest d

lemma Agrees.resumes (ha : g.Agrees h) (rest : List NodeId) : h.Resumes g rest :=
  ⟨ha.skeleton, ha.attributes, fun d => .inl (ha.fact d)⟩

lemma Resumes.of_agrees (hr : h.Resumes g rest) (ha : k.Agrees g) : h.Resumes k rest where
  skeleton := ha.skeleton.trans hr.skeleton
  attributes j := (ha.attributes j).trans (hr.attributes j)
  fact d := by
    rw [ha.fact]
    refine (hr.fact d).imp_right ?_
    rintro ⟨⟨f, f', hf, hrest⟩, hfeeder⟩
    exact ⟨⟨f, f', (ha.fact d).trans hf, hrest⟩, hfeeder⟩

/-- What reads an output of an operation lies ahead of it. -/
lemma Underway.mem_rest_of_reader (hg : g.Underway done (id :: rest)) {e e' : Edge}
    (he : e ∈ g.edges) (hsrc : e.src = id) (he' : e' ∈ g.edges) (hread : e'.src = e.dst)
    (hall : e'.dst ∈ done ∨ e'.dst ∈ id :: rest) : e'.dst ∈ rest := by
  rcases hall with hmem | hmem
  · have hdst := hg.closed _ hmem (mem_sources.2 ⟨e', he', rfl, hread⟩)
    have hid := hg.closed _ hdst (mem_sources.2 ⟨e, he, rfl, hsrc⟩)
    exact absurd hid (hg.ready.not_mem_done (List.mem_cons_self ..))
  · refine (List.mem_cons.1 hmem).resolve_left fun heq => ?_
    exact hg.runnable.apart id e he e' he' hsrc heq hread.symm

namespace Resumes

section

variable (hr : h.Resumes g (id :: rest)) (hh : h.WellFormed) (hn : h.node? id = some ⟨name, .op o⟩)
  (hi : o.attributes.find? "infer" = none)
  (hv : Registry.standard.verdict o.kind (h.scene id name o.attributes) = .ok ws)

include hr hh hn

/-- The operation finds what it finds in `h`, or axes that mean the same. -/
lemma findsAlike (p : Nat) : h.FindsAlike g o.kind id p := by
  have ho : h.op? id = some o := op?_eq_some.2 ⟨name, hn⟩
  rcases hd : h.inSource id p with _ | d
  · refine .inl ?_
    unfold Graph.inputFact?
    rw [inSource_of_skeleton hr.skeleton, hd]
    rfl
  obtain ⟨e, he, rfl, rfl, rfl⟩ := (inSource_eq_some hh).1 hd
  have hin : g.inputFact? e.dst e.inp = g.fact? e.src :=
    inputFact?_of_edge (hh.of_skeleton hr.skeleton) (edges_of_skeleton hr.skeleton ▸ he)
  rcases hr.fact e.src with hsame | ⟨⟨f, f', hf, hf', hsome, r, a, -, hreads, hshape,
    hcounted⟩, -⟩
  · exact .inl (hin.trans (hsame.trans (inputFact?_of_edge hh he).symm))
  · obtain ⟨e₁, he₁, hsrc₁, rfl, hinp⟩ := hreads.edge
    obtain rfl := eq_of_unshared hreads.lone he₁ he hsrc₁ rfl
    have hkind : o.kind = "Unsqueeze" := by
      have := hreads.kind
      rw [kind?, ho, Option.map_some] at this
      exact Option.some.inj this
    rw [hinp] at hin ⊢
    refine .inr ⟨hkind, rfl, a, f', f, hshape, ?_, hin.trans hf, (hcounted.sameAxes hsome).symm⟩
    rw [← hinp, inputFact?_of_edge hh he, hf']

lemma inputShape? : g.inputShape? id 0 = h.inputShape? id 0 := (hr.findsAlike hh hn 0).inputShape?

lemma resembles (attributes : Attributes) :
    (h.scene id name attributes).Resembles o.kind (g.scene id name attributes) :=
  resembles_of_skeleton hh hr.skeleton (op?_eq_some.2 ⟨name, hn⟩)
    (hr.findsAlike hh hn) name attributes

lemma readsAxes_iff : g.ReadsAxes id d ↔ h.ReadsAxes id d :=
  readsAxes_iff_of_skeleton hh hr.skeleton (op?_eq_some.2 ⟨name, hn⟩) (hr.findsAlike hh hn)

include hi hv

/-- What the operation writes, compared with what it writes in `h`. -/
lemma verdict : ∃ o' ws', g.node? id = some ⟨name, .op o'⟩ ∧ o'.kind = o.kind ∧
    o'.attributes = o.attributes ∧
    Registry.standard.verdict o'.kind (g.scene id name o'.attributes) = .ok ws' ∧
    ∀ p f, portFact p f ws' = portFact p f ws := by
  obtain ⟨o', hn', hkind, hattr⟩ := exists_op_of_skeleton hr.skeleton (hr.attributes id) hn
  obtain ⟨ws', hv', hsame⟩ := (hr.resembles hh hn o.attributes).akin hi ws hv
  exact ⟨o', ws', hn', hkind, hattr, by rw [hkind, hattr, hv'], hsame⟩

/-- Axes that the operation counts from the left are as they are in `h`, where it counts none. -/
lemma of_rephrased (hquiet : Quiet ws) (hd : g.Rephrased k id d) :
    k.fact? d = h.fact? d ∧ ∀ e ∈ h.edges, e.dst = d → h.kind? e.src ≠ some "Const" := by
  obtain ⟨hreads, a, f, cells, hshape, hf, hf', hcounted, -⟩ := hd
  rw [hr.readsAxes_iff hh hn] at hreads
  rw [hr.inputShape? hh hn] at hshape
  rcases hr.fact d with hsame
    | ⟨⟨f₁, f₂, hf₁, hf₂, -, r, a', -, hreads', hshape', hcounted'⟩, hfeeder⟩
  · exact absurd hquiet (hreads.not_quiet hh hn hi hv hshape (hsame ▸ hf) hcounted)
  · obtain rfl := hreads.eq_reader hreads'
    obtain rfl := Option.some.inj (hshape.symm.trans hshape')
    obtain rfl := Option.some.inj (hf.symm.trans hf₁)
    obtain rfl := hcounted.unique hcounted'
    exact ⟨hf'.trans hf₂.symm, hfeeder⟩

/-- The outputs of the operation are as they are in `h`, or hold axes that are still to be
counted. -/
lemma of_output {e : Edge} (he : e ∈ h.edges) (hsrc : e.src = id) (hlone : h.Lone "Const")
    (hports : ∀ f, h.fact? e.dst = some f → h.Upheld (fun _ => True) o.kind ws e f)
    (hlater : ∀ r, h.ReadsAxes r e.dst → r ∈ rest)
    (hk : k.fact? e.dst = (g.fact? e.dst).map (portFact e.out · ws)) :
    k.fact? e.dst = h.fact? e.dst ∨ h.Lags k rest e.dst := by
  have ho : h.op? id = some o := op?_eq_some.2 ⟨name, hn⟩
  obtain ⟨f, hf⟩ := ends_of_op_src hh he (hsrc ▸ ho)
  have hfeeder (hconst : o.kind ≠ "Const") : ∀ e' ∈ h.edges, e'.dst = e.dst →
      h.kind? e'.src ≠ some "Const" := fun e' he' hdst => by
    rw [eq_of_dst_eq hh he' he hdst (hdst ▸ hf), hsrc, kind?, ho, Option.map_some]
    simpa using hconst
  -- what the operation writes where `h` holds what it held
  have hwritten (hk : k.fact? e.dst = some (portFact e.out f ws)) :
      k.fact? e.dst = h.fact? e.dst ∨ h.Lags k rest e.dst := by
    cases hports f hf with
    | same hsame => exact .inl (hk.trans ((congrArg some hsame).trans hf.symm))
    | counted hconst hcounts =>
      obtain ⟨r, a, -, hreads, hshape, hcounted⟩ := hcounts
      have hsome := hcounted.isSome_shape (hcounted.shaped.written e.out ws)
      exact .inr ⟨⟨_, f, hk, hf, hsome, r, a, hlater r hreads, hreads, hshape, hcounted⟩,
        hfeeder hconst⟩
    | stored hconst _ _ he' hsrc' hne =>
      refine absurd (hlone _ he' e he ?_ hsrc') hne
      rw [hsrc', hsrc, kind?, ho, Option.map_some, hconst]
  rcases hr.fact e.dst with hsame
    | ⟨⟨f₁, f₂, hf₁, hf₂, hsome, r, a, -, hreads, hshape, hcounted⟩, hconst⟩
  · rw [hsame, hf] at hk
    exact hwritten hk
  obtain rfl := Option.some.inj (hf.symm.trans hf₂)
  rw [hf₁, Option.map_some] at hk
  have hkind : o.kind ≠ "Const" := fun heq => hconst e he rfl (by
    rw [hsrc, kind?, ho, Option.map_some, heq])
  rcases Registry.steady_verdict hi hkind hv e.out with hsilent | ⟨f', hsteady⟩
  · rw [hsilent] at hk
    exact .inr ⟨⟨f₁, f, hk, hf, hsome, r, a, hlater r hreads, hreads, hshape, hcounted⟩,
      hfeeder hkind⟩
  · rw [hsteady, ← hsteady f] at hk
    exact hwritten hk

end

/-- Inferring an operation leaves what is still to be counted to the operations ahead. -/
lemma visit_op (hr : h.Resumes g (id :: rest)) (hh : h.WellFormed) (hlone : h.Lone "Const")
    (hu : h.Upholds (fun _ => True) id) (hg : g.Underway done (id :: rest))
    (hall : ∀ r, (h.op? r).isSome → r ∈ done ∨ r ∈ id :: rest) :
    ∃ k, Registry.standard.visit g id = .ok k ∧ h.Resumes k rest := by
  obtain ⟨kind, ws, ⟨⟨name, o, hn, rfl, hi, htaken, hv⟩, hquiet⟩, hports⟩ := hu
  obtain ⟨o', ws', hn', hkind, hattr, hv', hsame⟩ := hr.verdict hh hn hi hv
  refine ⟨_, Registry.visit_eq_ok.2 (.inr ⟨name, o', ws', hn', hv', rfl⟩), ?_⟩
  refine Resumes.of_agrees ?_ (agrees_unmark _ id)
  have hwf := hg.runnable.wellFormed
  have ha := hg.runnable.apart id
  have ho' : g.op? id = some o' := op?_eq_some.2 ⟨name, hn'⟩
  have hi' : o'.attributes.find? "infer" = none := hattr ▸ hi
  have hcaught (d : NodeId) (hd : g.Rephrased (g.settle id ws') id d) :=
    hr.of_rephrased hh hn hi hv hquiet hd
  obtain ⟨hspares, hself, hloud⟩ := spares_settle hwf ha hn' hi' hv'
  refine ⟨(skeleton_settle ws').trans hr.skeleton, fun j => ?_, fun d => ?_⟩
  · by_cases hj : j = id
    · subst hj
      have hagain := Attributes.taken_again hi hv (hattr.trans htaken.symm)
        (hr.resembles hh hn o'.attributes).hasUnknownInput (hkind ▸ hv')
      rw [hself, attributes?_of_op? (op?_eq_some.2 ⟨name, hn⟩), ← hattr]
      exact congrArg some hagain
    · refine (hspares.attributes j hj).elim (·.trans (hr.attributes j)) ?_
      rintro ⟨hconst, e, he, rfl, hrephrased⟩
      rw [edges_of_skeleton hr.skeleton] at he
      rw [kind?_of_skeleton hr.skeleton] at hconst
      exact absurd hconst ((hcaught e.dst hrephrased).2 e he rfl)
  by_cases hout : ∃ e ∈ g.edges, e.src = id ∧ e.dst = d
  · obtain ⟨e, he, hsrc, rfl⟩ := hout
    have he' : e ∈ h.edges := edges_of_skeleton hr.skeleton ▸ he
    refine hr.of_output hh hn hi hv he' hsrc hlone (hports e he' hsrc) (fun r hreads => ?_) ?_
    · obtain ⟨e₁, he₁, hread, rfl, -⟩ := hreads.edge
      refine hg.mem_rest_of_reader he hsrc (edges_of_skeleton hr.skeleton ▸ he₁) hread (hall _ ?_)
      obtain ⟨o₁, ho₁, -⟩ := kind?_eq_some.1 hreads.kind
      exact ho₁ ▸ rfl
    · rw [fact?_settle_out hwf ho' ha he hsrc]
      exact congrArg (Option.map · _) (funext fun f => hsame e.out f)
  rcases hspares.fact d fun e he hsrc hdst => hout ⟨e, he, hsrc, hdst⟩ with hstays | hrephrased
  swap
  · exact .inl (hcaught d hrephrased).1
  rcases hr.fact d with heq
    | ⟨⟨f, f', hf, hf', hsome, r, a, hmem, hreads, hshape, hcounted⟩, hconst⟩
  · exact .inl (hstays.trans heq)
  rcases List.mem_cons.1 hmem with rfl | hmem
  · -- axes that differ are written over
    rcases hloud with hquiet' | ⟨d', hrephrased⟩
    · refine absurd hquiet'
        (((hr.readsAxes_iff hh hn).2 hreads).not_quiet hwf hn' hi' hv' ?_ hf hcounted)
      rw [hr.inputShape? hh hn, hshape]
    · obtain rfl := hreads.eq_source ((hr.readsAxes_iff hh hn).1 hrephrased.1) hh
      exact .inl (hcaught _ hrephrased).1
  · exact .inr ⟨⟨f, f', hstays.trans hf, hf', hsome, r, a, hmem, hreads, hshape, hcounted⟩, hconst⟩

lemma visit (hr : h.Resumes g (id :: rest)) (hh : h.WellFormed) (hlone : h.Lone "Const")
    (hu : ∀ id, (h.op? id).isSome → h.Upholds (fun _ => True) id)
    (hg : g.Underway done (id :: rest))
    (hall : ∀ r, (h.op? r).isSome → r ∈ done ∨ r ∈ id :: rest) :
    ∃ k, Registry.standard.visit g id = .ok k ∧ h.Resumes k rest := by
  by_cases hop : (h.op? id).isSome
  · exact hr.visit_op hh hlone (hu id hop) hg hall
  have hnone : g.op? id = none := by
    rw [← isSome_op?_of_skeleton hr.skeleton] at hop
    simpa using hop
  refine ⟨g, Registry.visit_eq_ok.2 (.inl ⟨hnone, rfl⟩), hr.skeleton, hr.attributes, fun d => ?_⟩
  refine (hr.fact d).imp_right ?_
  rintro ⟨⟨f, f', hf, hf', hsome, r, a, hmem, hreads, hrest⟩, hfeeder⟩
  refine ⟨⟨f, f', hf, hf', hsome, r, a, ?_, hreads, hrest⟩, hfeeder⟩
  refine (List.mem_cons.1 hmem).resolve_left fun heq => hop ?_
  obtain ⟨o, ho, -⟩ := kind?_eq_some.1 hreads.kind
  exact heq ▸ ho ▸ rfl

/-- A sweep counts all that is still to be counted. -/
theorem sweep (hr : h.Resumes g rest) (hh : h.WellFormed) (hlone : h.Lone "Const")
    (hu : ∀ id, (h.op? id).isSome → h.Upholds (fun _ => True) id) (hg : g.Underway done rest)
    (hall : ∀ r, (h.op? r).isSome → r ∈ done ∨ r ∈ rest) :
    ∃ k, Registry.standard.sweep g rest = .ok k ∧ k.Agrees h := by
  induction rest generalizing g done with
  | nil =>
    refine ⟨g, rfl, hr.skeleton, hr.attributes, fun d => (hr.fact d).resolve_right ?_⟩
    rintro ⟨⟨f, f', -, -, -, r, a, hmem, -⟩, -⟩
    cases hmem
  | cons id rest ih =>
    obtain ⟨k, hk, hr'⟩ := hr.visit hh hlone hu hg hall
    have hsplit (r : NodeId) (hop : (h.op? r).isSome) : r ∈ id :: done ∨ r ∈ rest := by
      rcases hall r hop with hdone | hahead
      · exact .inl (List.mem_cons_of_mem id hdone)
      · exact (List.mem_cons.1 hahead).imp_left fun heq => List.mem_cons.2 (.inl heq)
    obtain ⟨k', hk', hagree⟩ := ih hr' (hg.visit hk) hsplit
    exact ⟨k', Registry.sweep_cons_eq_ok.2 ⟨k, hk, hk'⟩, hagree⟩

end Resumes

/-- **Idempotence**: where constants have one output at most, inferring all operations a second time
succeeds and changes no attribute, shape or value. -/
theorem settled_of_inferAll (hg : g.WellFormed) (hover : g.NoOverrides) (hlone : g.Lone "Const")
    {n : Nat} (hx : Gives Registry.standard.inferAll g n h) : h.Settled := by
  have hh : h.WellFormed := hx.keeps (Registry.standard.keeps_inferAll_of unaffected_wellFormed) hg
  have hskel : h.skeleton = g.skeleton :=
    hx.keeps (Registry.standard.keeps_inferAll_of (unaffected_skeleton _)) rfl
  obtain ⟨l, hl, hupholds⟩ := upholds_of_inferAll hg hover hx
  have hover' : h.NoOverrides := by
    intro id o ho
    obtain ⟨kind, ws, ⟨⟨name, o', hn, -, hi, -⟩, -⟩, -⟩ := hupholds id (ho ▸ rfl)
    obtain rfl := Option.some.inj (ho.symm.trans (op?_eq_some.2 ⟨name, hn⟩))
    exact hi
  refine inferAll_of_sweep Registry.local_standard hh hl fun m hm => ?_
  have hway := underway_of_evalOrder (hh.of_skeleton hm.skeleton) (hover'.of_agrees hm)
    (evalOrder_of_skeleton hm.skeleton hl)
  refine (hm.resumes l).sweep hh (hlone.of_skeleton hskel) hupholds hway fun r hop => .inr ?_
  obtain ⟨node, hnode, -⟩ := isSome_op?.1 hop
  exact (ordered_of_evalOrder hl).mem.2 (hnode ▸ rfl)

end Graph

/-- An unsqueeze with axes that an identity copies. -/
def copiedAxis : Edit Unit := do
  let x ← addParameter "x" [2, 3]
  let last ← addConst "last" (.ofInts [-1])
  let copy ← wire "copy" (.ofKind "Identity") [last]
  let y ← wire "y" (.ofKind "Unsqueeze") [x, copy]
  discard (addResult "out" y)

/-- On its way the second inference copies the axis once more as the constant holds it, counted from
the right. -/
theorem settled_of_inferAll_copiedAxis :
    let g := (copiedAxis.run ∅).graph
    let h := (Registry.standard.inferAll.run g).graph
    g.WellFormed ∧ g.NoOverrides ∧ g.Lone "Const" ∧ Gives Registry.standard.inferAll g 5 h ∧
      h.Settled := by
  intro g h
  have hg : g.WellFormed := by decide +kernel
  have hover : g.NoOverrides := by decide +kernel
  have hlone : g.Lone "Const" := by decide +kernel
  have hx : Gives Registry.standard.inferAll g 5 h := ⟨toOption_eq_some.1 (by decide +kernel), rfl⟩
  exact ⟨hg, hover, hlone, hx, Graph.settled_of_inferAll hg hover hlone hx⟩

end TensorGraph
