import TensorGraph.Proofs.Identities
import TensorGraph.Proofs.Passes

/-!
What the pass over reshapes does to a graph.

It writes a pattern into the constant of a reshape, or into a new constant that the reshape is then
fed from (`gives_pinReshape`). Either way it leaves the identities and the outputs of the model
alone (`merged_of_pinReshapes`).
-/

namespace TensorGraph

open Edit

namespace Graph

variable {g h : Graph} {id op d : NodeId} {p : Nat}

/-! ### Neighbours that were found -/

lemma mem_of_inputData (hx : g.inputData op p = .ok (some d)) :
    ∃ e ∈ g.edges, e.src = d ∧ e.dst = op ∧ e.inp = p := by
  obtain ⟨edges, hedges, hx⟩ := bind_eq_ok.1 hx
  obtain ⟨-, rfl⟩ := Edit.inEdges_eq_ok.1 hedges
  obtain ⟨e, he, rfl⟩ := Option.map_eq_some_iff.1 (Except.ok.inj hx)
  obtain ⟨hmem, hdst⟩ := mem_incoming.1 (List.mem_of_find?_eq_some he)
  exact ⟨e, hmem, rfl, hdst, by simpa using List.find?_some he⟩

lemma mem_of_producer (hx : g.producer d = .ok (some op)) :
    ∃ e ∈ g.edges, e.src = op ∧ e.dst = d := by
  obtain ⟨sources, hsources, hx⟩ := bind_eq_ok.1 hx
  obtain ⟨edges, hedges, hsources⟩ := bind_eq_ok.1 hsources
  obtain ⟨-, rfl⟩ := Edit.inEdges_eq_ok.1 hedges
  obtain rfl := Except.ok.inj hsources
  obtain ⟨e, he, rfl⟩ := List.mem_map.1 (List.mem_of_head? (Except.ok.inj hx))
  obtain ⟨hmem, hdst⟩ := mem_incoming.1 he
  exact ⟨e, hmem, rfl, hdst⟩

/-! ### Sites -/

/-- A reshape by a constant pattern, in a graph. -/
structure HasSite (g : Graph) (s : ReshapeSite) : Prop where
  reshape : g.kind? s.reshape = some "Reshape"
  constant : g.kind? s.constant = some "Const"
  read : ∃ e ∈ g.edges, e.src = s.data ∧ e.dst = s.reshape ∧ e.inp = 1
  written : ∃ e ∈ g.edges, e.src = s.constant ∧ e.dst = s.data
  value : ∃ f t, g.fact? s.data = some f ∧ f.value = some t ∧ s.pattern = t.toInts

variable {matmul : NodeId} {o : Operand} {s : ReshapeSite}

lemma found_of_reshapeSite (hx : g.reshapeSite matmul o = .ok (some s)) :
    g.producerOp matmul o.port = .ok (some s.reshape) ∧ g.HasSite s ∧ s.pattern.length = 2 := by
  obtain ⟨reshape?, hreshape, hx⟩ := bind_eq_ok.1 hx
  rcases reshape? with _ | reshape
  · cases hx
  obtain ⟨n, hn, hx⟩ := bind_eq_ok.1 hx
  split at hx
  · cases hx
  next hkind =>
  obtain ⟨data?, hdata, hx⟩ := bind_eq_ok.1 hx
  rcases data? with _ | data
  · cases hx
  obtain ⟨constant?, hconstant, hx⟩ := bind_eq_ok.1 hx
  rcases constant? with _ | constant
  · cases hx
  obtain ⟨m, hm, hx⟩ := bind_eq_ok.1 hx
  split at hx
  · cases hx
  next hconst =>
  obtain ⟨f, hf, hx⟩ := bind_eq_ok.1 hx
  rcases hv : f.value with _ | t
  · rw [hv] at hx
    cases hx
  rw [hv] at hx
  simp only at hx
  split at hx
  · cases hx
  next htwo =>
  obtain rfl := Option.some.inj (Except.ok.inj hx)
  have hkind : n.isOpOf "Reshape" = true := by simpa using hkind
  have hconst : m.isOpOf "Const" = true := by simpa using hconst
  exact ⟨hreshape, ⟨(isOpOf_iff (node_eq_ok.1 hn)).1 hkind, (isOpOf_iff (node_eq_ok.1 hm)).1 hconst,
    mem_of_inputData hdata, mem_of_producer hconstant, f, t, fact_eq_ok.1 hf, hv, rfl⟩,
      not_not.1 htwo⟩

lemma hasSite_of_reshapeSite (hx : g.reshapeSite matmul o = .ok (some s)) : g.HasSite s :=
  (found_of_reshapeSite hx).2.1

/-! ### Graphs that stay merged -/

/-- The reshape of a site may be fed from other data. -/
lemma Merged.rewired (hm : g.Merged) (hg : g.WellFormed) {e e' : Edge} (he : e ∈ g.edges)
    (hreshape : g.kind? e.dst = some "Reshape") (hdst : e'.dst = e.dst)
    (hsrc : g.kind? e'.src ≠ some "Identity") (hnodes : h.nodes = g.nodes)
    (hedges : ∀ c, c ∈ h.edges ↔ c ∈ g.edges ∧ c ≠ e ∨ c = e') : h.Merged := by
  have hkind (id : NodeId) : h.kind? id = g.kind? id := by
    rw [kind?, kind?, op?, op?, node?_congr hnodes]
  have hne {kind : String} (hk : kind ≠ "Reshape") : g.kind? e.dst ≠ some kind := by
    rw [hreshape]
    exact fun heq => hk (Option.some.inj heq).symm
  have hdata : g.kind? e.src = none := by
    unfold kind?
    rw [op?_eq_none_of_reader hg he hreshape]
    rfl
  refine hm.of_spared (fun id hid => hkind id ▸ hid) (fun c hat => (hedges c).trans ?_)
    fun c hc hread => ⟨(hedges c).2 (.inl ⟨hc, ?_⟩), (hkind _).trans hread⟩
  · simp only [hkind] at hat
    constructor
    · rintro (⟨hc, -⟩ | rfl)
      · exact hc
      · exact (hat.elim hsrc (hdst ▸ hne (by decide))).elim
    · refine fun hc => .inl ⟨hc, ?_⟩
      rintro rfl
      exact hat.elim (by simp [hdata]) (hne (by decide))
  · rintro rfl
    exact hne (by decide) hread

end Graph

namespace Edit

variable {g h : Graph}

/-! ### Writing a pattern -/

/-- The operation that a constant of a value is. -/
def constOf (value : Tensor) : Operation :=
  (Operation.ofKind "Const").withAttribute "value" (.tensor value)

/-- A new constant is an operation with its data, of which then the value is written. -/
lemma gives_addConst {name : String} {value : Tensor} {d : NodeId}
    (hx : Gives (addConst name value) g d h) : d = g.freshData ∧ ∃ k : Graph,
      k.nodes = (g.nodes.push ⟨name, .op (constOf value)⟩).push ⟨dataName name 0, .data .unknown⟩ ∧
      k.links = g.links.push ⟨g.freshOp, d, 0, 0⟩ ∧
        h.Alike (k.modifyFact d fun _ => .ofValue value) := by
  obtain ⟨⟨op, data⟩, k, hadd, hx⟩ := gives_bind.1 hx
  obtain ⟨_, k', hmodify, hx⟩ := gives_bind.1 hx
  obtain ⟨rfl, rfl⟩ := gives_pure.1 hx
  obtain ⟨heq, hnodes, hlinks⟩ := gives_addOpWithData hadd
  obtain ⟨rfl, rfl⟩ := Prod.mk.inj heq
  exact ⟨rfl, k, hnodes, hlinks, alike_of_modifyFact hmodify⟩

/-- Pinning does nothing where no site has a pattern to be replaced, and else writes the new one. -/
lemma gives_pinReshape {matmul : NodeId} {o : Operand} (hx : Gives (pinReshape matmul o) g () h) :
    (h = g ∧ ∀ s new, g.reshapeSite matmul o = .ok (some s) →
      g.replacement matmul o s ≠ .ok (some new)) ∨
    ∃ s new name k, g.reshapeSite matmul o = .ok (some s) ∧
      g.replacement matmul o s = .ok (some new) ∧ Gives (writePattern s name new) g () k ∧
      Gives (markNeighbourhood s.reshape) k () h := by
  obtain ⟨site?, _, hquery, hx⟩ := gives_bind.1 hx
  obtain ⟨hsite, rfl⟩ := gives_query.1 hquery
  rcases site? with _ | s
  · refine .inl ⟨(gives_pure.1 hx).2.symm, fun s new hs => ?_⟩
    cases hsite.symm.trans hs
  obtain ⟨new?, _, hquery, hx⟩ := gives_bind.1 hx
  obtain ⟨hnew, rfl⟩ := gives_query.1 hquery
  rcases new? with _ | new
  · refine .inl ⟨(gives_pure.1 hx).2.symm, fun s' new hs hnew' => ?_⟩
    obtain rfl := Option.some.inj (Except.ok.inj (hsite.symm.trans hs))
    cases hnew.symm.trans hnew'
  obtain ⟨n, _, hquery, hx⟩ := gives_bind.1 hx
  obtain ⟨-, rfl⟩ := gives_query.1 hquery
  obtain ⟨_, _, hnote, hx⟩ := gives_bind.1 hx
  obtain rfl := gives_note.1 hnote
  obtain ⟨_, k, hwrite, hmark⟩ := gives_bind.1 hx
  exact .inr ⟨s, new, n.name, k, hsite, hnew, hwrite, hmark⟩

/-- Writing a pattern changes the value of a constant and of its data, which nothing else reads, or
adds a constant and feeds the reshape from it. -/
lemma gives_writePattern {s : Graph.ReshapeSite} {name : String} {pattern : Shape}
    (hx : Gives (writePattern s name pattern) g () h) :
    (g.outgoing s.data).length ≤ 1 ∧ Gives (setConstValue s.constant (.ofInts pattern)) g () h ∨
      ∃ name' d k, Gives (addConst name' (.ofInts pattern)) g d k ∧
        Gives (rewireInput s.reshape 1 d) k () h := by
  obtain ⟨edges, _, hquery, hx⟩ := gives_bind.1 hx
  obtain ⟨hedges, rfl⟩ := gives_query.1 hquery
  obtain ⟨-, rfl⟩ := outEdges_eq_ok.1 hedges
  split at hx
  · obtain ⟨_, _, hcurrent, hx⟩ := gives_bind.1 hx
    obtain ⟨rfl, rfl⟩ := gives_current.1 hcurrent
    obtain ⟨d, k, hadd, hrewire⟩ := gives_bind.1 hx
    exact .inr ⟨_, d, k, hadd, hrewire⟩
  · next hl => exact .inl ⟨Nat.le_of_not_lt hl, hx⟩

/-! ### What stays -/

lemma merged_of_addConst {name : String} {value : Tensor} {d : NodeId} (hm : g.Merged)
    (hx : Gives (addConst name value) g d h) :
    h.Merged ∧ h.kind? d = none ∧ (∀ e ∈ g.edges, e ∈ h.edges) ∧
      ∀ id kind, g.kind? id = some kind → h.kind? id = some kind := by
  obtain ⟨rfl, k, hnodes, hlinks, halike⟩ := gives_addConst hx
  have hskel : h.skeleton = k.skeleton := halike.skeleton.trans (Graph.skeleton_modifyFact _ _)
  have hkind (j : NodeId) : k.kind? j = if j = g.freshData then none else
      if j = g.freshOp then some "Const" else g.kind? j := by
    rw [Graph.kind?, Graph.op?, Graph.node?_of_push hnodes]
    split_ifs <;> rfl
  have hkept {j : NodeId} {kind : String} (hk : g.kind? j = some kind) : k.kind? j = some kind := by
    obtain ⟨o, ho, -⟩ := Graph.kind?_eq_some.1 hk
    obtain ⟨name, hn⟩ := Graph.op?_eq_some.1 ho
    have hdata : j ≠ g.freshData := fun heq => by cases hn.symm.trans (heq ▸ g.node?_freshData)
    have hop : j ≠ g.freshOp := fun heq => by cases hn.symm.trans (heq ▸ g.node?_freshOp)
    rw [hkind, if_neg hdata, if_neg hop, hk]
  have hedges {e : Edge} := Graph.mem_edges_of_push (e := e) hlinks
  have hmerged : k.Merged := by
    refine hm.of_spared (fun j hj => ?_) (fun e hat => hedges.trans (or_iff_left ?_))
      fun c hc hread => ⟨hedges.2 (.inl hc), hkept hread⟩
    · rw [hkind] at hj
      split_ifs at hj
      · simp at hj
      · exact hj
    · rintro rfl
      simp [hkind, g.freshOp_ne_freshData] at hat
  refine ⟨hmerged.of_skeleton hskel, ?_, fun e he => ?_, fun id kind hk => ?_⟩
  · rw [Graph.kind?_of_skeleton hskel, hkind, if_pos rfl]
  · rw [Graph.edges_of_skeleton hskel]
    exact hedges.2 (.inl he)
  · rw [Graph.kind?_of_skeleton hskel]
    exact hkept hk

lemma merged_of_pinReshape {matmul : NodeId} {o : Operand} (hg : g.WellFormed) (hm : g.Merged)
    (hx : Gives (pinReshape matmul o) g () h) : h.Merged := by
  rcases gives_pinReshape hx with ⟨rfl, -⟩ | ⟨s, new, name, k, hsite, -, hwrite, hmark⟩
  · exact hm
  have hsite := Graph.hasSite_of_reshapeSite hsite
  refine Graph.Merged.of_skeleton
    (hmark.keeps (keeps_markNeighbourhood_of (Graph.unaffected_skeleton _) _) rfl) ?_
  rcases gives_writePattern hwrite with ⟨-, hset⟩ | ⟨name', d, k', hadd, hrewire⟩
  · exact hm.of_skeleton
      (hset.keeps (keeps_setConstValue_of (Graph.unaffected_skeleton _) _ _) rfl)
  · obtain ⟨e, he, -, hdst, hinp⟩ := hsite.read
    obtain ⟨hm', hd, hedges, hkind⟩ := merged_of_addConst hm hadd
    have hwf : k'.WellFormed := hadd.keeps (keeps_addConst _ _) hg
    rw [← hdst, ← hinp] at hrewire
    obtain ⟨hnodes, i, hnew⟩ := gives_rewireInput hwf (hedges e he) hrewire
    have hnot : k'.kind? d ≠ some "Identity" := by simp [hd]
    have hend : (⟨⟨d, e.dst, 0, e.inp⟩, i⟩ : Edge).dst = e.dst := rfl
    exact hm'.rewired hwf (hedges e he) (hkind _ _ (hdst ▸ hsite.reshape)) hend hnot hnodes hnew

/-- Pinning reshapes leaves the identities and the outputs of the model alone. -/
theorem merged_of_pinReshapes (hg : g.WellFormed) (hm : g.Merged)
    (hx : Gives Transformation.pinReshapes.apply g () h) : h.Merged := by
  obtain ⟨_, _, hcurrent, hloop⟩ := gives_bind.1 hx
  obtain ⟨rfl, rfl⟩ := gives_current.1 hcurrent
  clear hx hcurrent
  generalize g.opNodesOf "MatMul" = l at hloop
  induction l generalizing g with
  | nil =>
    obtain ⟨-, rfl⟩ := gives_pure.1 hloop
    exact hm
  | cons id l ih =>
    obtain ⟨_, k, hfirst, hrest⟩ := gives_bind.1 hloop
    obtain ⟨_, m, hleft, hright⟩ := gives_bind.1 hfirst
    have hwm : m.WellFormed := hleft.keeps (keeps_pinReshape id .left) hg
    have hwk : k.WellFormed := hright.keeps (keeps_pinReshape id .right) hwm
    exact ih hwk (merged_of_pinReshape hwm (merged_of_pinReshape hg hm hleft) hright) hrest

end Edit

end TensorGraph
