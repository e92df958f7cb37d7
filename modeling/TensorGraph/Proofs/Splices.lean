import TensorGraph.Proofs.Poised

/-!
Removing identities from poised graphs.

An identity that is removed takes its output with it, and what read the output reads the input
(`Graph.Spliced`). When the identity is calm, the same is known of both, or they are axes that mean
the same (`Poised.passes_on`). So no other operation notices (`Spliced.unnoticed`).
-/

namespace TensorGraph

open Edit

namespace Graph

variable {g h : Graph} {keep : NodeId} {l : List Edge}

/-- Some edges of `g` were replaced by edges out of `keep` to the same ports. -/
structure Moved (g h : Graph) (keep : NodeId) (l : List Edge) : Prop where
  nodes : h.nodes = g.nodes
  stays : ∀ e ∈ g.edges, e ∉ l → e ∈ h.edges
  moved : ∀ c ∈ l, ∃ e ∈ h.edges, e.src = keep ∧ e.dst = c.dst ∧ e.inp = c.inp
  old : ∀ e ∈ h.edges, e ∈ g.edges ∧ e ∉ l ∨ e.src = keep ∧ ∃ c ∈ l, c.dst = e.dst ∧ c.inp = e.inp

lemma Moved.node?_eq (hm : g.Moved h keep l) (id : NodeId) : h.node? id = g.node? id :=
  congrFun (node?_congr hm.nodes) id

/-- `h` is `g` without an identity and its output `drop`. What read the output reads the input
`keep`. -/
structure Spliced (g h : Graph) (id keep drop : NodeId) : Prop where
  node? : ∀ j, h.node? j = if j = drop ∨ j = id then none else g.node? j
  stays : ∀ e ∈ g.edges, e.src ≠ drop → e.dst ≠ drop → e.src ≠ id → e.dst ≠ id → e ∈ h.edges
  moved : ∀ c ∈ g.edges, c.src = drop → c.dst ≠ drop → c.dst ≠ id →
    ∃ e ∈ h.edges, e.src = keep ∧ e.dst = c.dst ∧ e.inp = c.inp
  old : ∀ e ∈ h.edges, e ∈ g.edges ∧ e.src ≠ drop ∨
    e.src = keep ∧ ∃ c ∈ g.edges, c.src = drop ∧ c.dst = e.dst ∧ c.inp = e.inp

/-- An identity, its input and its output. -/
structure Passes (g : Graph) (id : NodeId) (c e : Edge) : Prop where
  kind : g.kind? id = some "Identity"
  input : c ∈ g.edges
  dst : c.dst = id
  inp : c.inp = 0
  output : e ∈ g.edges
  src : e.src = id
  out : e.out = 0

end Graph

namespace Edit

variable {g h : Graph} {keep drop id : NodeId} {l : List Edge}

/-! ### Merging data -/

/-- Moving a consumer puts another edge in the place of its edge. -/
lemma gives_moveConsumer {e : Edge} (he : e ∈ g.edges) (hx : Gives (moveConsumer keep e) g () h) :
    h.nodes = g.nodes ∧ ∃ i, ∀ c, c ∈ h.edges ↔
      c ∈ g.edges ∧ c ≠ e ∨ c = { src := keep, dst := e.dst, out := 0, inp := e.inp, id := i } := by
  obtain ⟨_, g₁, hremove, hadd⟩ := gives_bind.1 hx
  obtain ⟨i, hadd⟩ := gives_discard.1 hadd
  obtain ⟨hnodes, hedges⟩ := edges_of_replaced he hremove hadd
  exact ⟨hnodes, i, hedges⟩

lemma gives_moveConsumers (hl : ∀ c ∈ l, c ∈ g.edges ∧ c.src ≠ keep) (hnodup : l.Nodup)
    (hx : Gives (l.forM (moveConsumer keep)) g () h) : g.Moved h keep l := by
  induction l generalizing g with
  | nil =>
    obtain ⟨-, rfl⟩ := gives_pure.1 hx
    exact ⟨rfl, fun e he _ => he, by simp, fun e he => .inl ⟨he, List.not_mem_nil⟩⟩
  | cons c l ih =>
    obtain ⟨_, k, hfirst, hrest⟩ := gives_bind.1 hx
    obtain ⟨hc, hcsrc⟩ := hl c (List.mem_cons_self ..)
    obtain ⟨hnot, hnodup⟩ := List.nodup_cons.1 hnodup
    obtain ⟨hnodes, i, hedges⟩ := gives_moveConsumer hc hfirst
    have hl' : ∀ e ∈ l, e ∈ k.edges ∧ e.src ≠ keep := fun e he =>
      have hmem := hl e (List.mem_cons_of_mem c he)
      ⟨(hedges e).2 (.inl ⟨hmem.1, fun heq => hnot (heq ▸ he)⟩), hmem.2⟩
    have hm := ih hl' hnodup hrest
    refine ⟨hm.nodes.trans hnodes, fun e he hmem => ?_, fun c' hc' => ?_, fun e he => ?_⟩
    · rw [List.mem_cons, not_or] at hmem
      exact hm.stays e ((hedges e).2 (.inl ⟨he, hmem.1⟩)) hmem.2
    · rcases List.mem_cons.1 hc' with rfl | hc'
      · -- the new edge is none of those to come, which have other sources
        refine ⟨_, hm.stays _ ((hedges _).2 (.inr rfl)) fun hmem => ?_, rfl, rfl, rfl⟩
        exact (hl' _ hmem).2 rfl
      · exact hm.moved c' hc'
    · rcases hm.old e he with ⟨he, hmem⟩ | ⟨hsrc, c', hc', hto⟩
      · rcases (hedges e).1 he with ⟨he, hne⟩ | rfl
        · exact .inl ⟨he, by simp [hne, hmem]⟩
        · exact .inr ⟨rfl, c, List.mem_cons_self .., rfl, rfl⟩
      · exact .inr ⟨hsrc, c', List.mem_cons_of_mem c hc', hto⟩

/-- Merging data moves all consumers and removes what has none left. -/
lemma gives_mergeData (hx : Gives (mergeData keep drop) g () h) :
    keep ≠ drop ∧ ∃ k, g.Moved k keep (g.outgoing drop) ∧ k.Without h [drop] := by
  unfold mergeData at hx
  simp only [gives_bind, gives_lift, gives_query, ensure_eq_ok] at hx
  obtain ⟨_, _, ⟨hne, rfl⟩, _, _, ⟨-, rfl⟩, _, _, ⟨-, rfl⟩, _, _, ⟨hout, rfl⟩, _, k, hmove,
    hremove⟩ := hx
  obtain ⟨-, rfl⟩ := outEdges_eq_ok.1 hout
  refine ⟨hne, k, gives_moveConsumers (fun c hc => ?_) (g.nodup_outgoing drop) hmove,
    gives_removeNode hremove⟩
  obtain ⟨hmem, rfl⟩ := Graph.mem_outgoing.1 hc
  exact ⟨hmem, hne.symm⟩

/-- An identity stays, or it can be removed and is spliced out. -/
lemma gives_removeIdentity (hg : g.WellFormed) (hid : g.kind? id = some "Identity")
    (hx : Gives (removeIdentity id) g () h) :
    h = g ∨ g.Removable id ∧ ∃ c e k, g.Passes id c e ∧ g.Spliced k id c.src e.dst ∧
      k.WellFormed ∧ h.Agrees k := by
  obtain ⟨o, ho, -⟩ := Graph.kind?_eq_some.1 hid
  unfold removeIdentity at hx
  obtain ⟨input?, _, hquery, hx⟩ := gives_bind.1 hx
  obtain ⟨hinput, rfl⟩ := gives_query.1 hquery
  obtain ⟨output?, _, hquery, hx⟩ := gives_bind.1 hx
  obtain ⟨houtput, rfl⟩ := gives_query.1 hquery
  rw [Graph.inputData_eq ho, Except.ok.injEq] at hinput
  rw [Graph.outputData_eq ho, Except.ok.injEq] at houtput
  split at hx
  · obtain ⟨b, _, hquery, hx⟩ := gives_bind.1 hx
    obtain ⟨hfeeds, rfl⟩ := gives_query.1 hquery
    split at hx
    · exact .inl (gives_pure.1 hx).2.symm
    next hnot =>
    obtain ⟨n, _, hquery, hx⟩ := gives_bind.1 hx
    obtain ⟨-, rfl⟩ := gives_query.1 hquery
    obtain ⟨_, _, hnote, hx⟩ := gives_bind.1 hx
    obtain rfl := gives_note.1 hnote
    obtain ⟨_, g₁, hmerge, hx⟩ := gives_bind.1 hx
    obtain ⟨_, g₂, hremove, hmark⟩ := gives_bind.1 hx
    obtain ⟨c, hc, hcdst, hcinp, rfl⟩ := (Graph.inSource_eq_some hg).1 hinput
    obtain ⟨e, he, hsrc, hout, rfl⟩ := (Graph.outTarget_eq_some hg ho).1 houtput
    obtain ⟨hne, k, hmoved, hdrop⟩ := gives_mergeData hmerge
    have hw := hdrop.trans (gives_removeNode hremove)
    have hfree : ∀ f ∈ g.edges, f.src = e.dst → g.kind? f.dst ≠ some "Result" :=
      fun f hf hread hresult => hnot ((feedsResult_eq_ok hg hfeeds).2 ⟨f, hf, hread, hresult⟩)
    refine .inr ⟨⟨hid, ⟨c, hc, hcdst, hcinp⟩, e, he, hsrc, hout, hfree⟩, c, e, g₂,
      ⟨hid, hc, hcdst, hcinp, he, hsrc, hout⟩, ⟨fun j => ?_, fun f hf h₁ h₂ h₃ h₄ => ?_,
        fun f hf hfsrc h₁ h₂ => ?_, fun f hf => ?_⟩, ?_, ?_⟩
    · rw [hw.node?, hmoved.node?_eq]
      simp
    · refine (hw.edges f).2 ⟨hmoved.stays f hf fun hmem => h₁ (Graph.mem_outgoing.1 hmem).2, ?_, ?_⟩
      · simp [h₁, h₃]
      · simp [h₂, h₄]
    · obtain ⟨f', hf', hsrc', hdst', hinp'⟩ := hmoved.moved f (Graph.mem_outgoing.2 ⟨hf, hfsrc⟩)
      -- the input of the identity is data, the identity is none
      obtain ⟨d, hd⟩ := Graph.ends_of_op_dst hg hc (hcdst ▸ ho)
      have hid : c.src ≠ id := fun heq => by
        rw [heq, Graph.fact?_eq_none_of_op ho] at hd
        cases hd
      refine ⟨f', (hw.edges f').2 ⟨hf', ?_, ?_⟩, hsrc', hdst', hinp'⟩
      · simp [hsrc', hne, hid]
      · simp [hdst', h₁, h₂]
    · obtain ⟨hf, -, -⟩ := (hw.edges f).1 hf
      rcases hmoved.old f hf with ⟨hf, hmem⟩ | ⟨hfsrc, c', hc', hto⟩
      · exact .inl ⟨hf, fun heq => hmem (Graph.mem_outgoing.2 ⟨hf, heq⟩)⟩
      · obtain ⟨hc', hc'src⟩ := Graph.mem_outgoing.1 hc'
        exact .inr ⟨hfsrc, c', hc', hc'src, hto⟩
    · exact hremove.keeps (keeps_removeNode _ _) (hmerge.keeps (keeps_mergeData _ _) hg)
    · exact hmark.keeps (keeps_agrees_mark g₂ _) (.refl g₂)
  · exact .inl (gives_pure.1 hx).2.symm

end Edit

namespace Graph

variable {g h : Graph} {id keep drop d : NodeId} {c e : Edge}

/-! ### What an identity passes on -/

/-- What is known of the output of a calm identity is known of its input, or they are axes that mean
the same. -/
lemma Poised.passes_on (hp : g.Poised) (hw : g.Passes id c e) {f f' : Fact}
    (hf : g.fact? c.src = some f) (hf' : g.fact? e.dst = some f') :
    f = f' ∨ g.Recounts (fun _ => True) e.dst f f' := by
  obtain ⟨hid, hc, hcdst, hcinp, he, hsrc, hout⟩ := hw
  have hg := hp.wellFormed
  obtain ⟨o, ho, hkind⟩ := kind?_eq_some.1 hid
  obtain ⟨name, o', ws, hn, hi, hv, hports⟩ := hp.quiescent id (ho ▸ rfl)
  obtain rfl := Option.some.inj (ho.symm.trans (op?_eq_some.2 ⟨name, hn⟩))
  have hin : (g.scene id name o.attributes).inputFact 0 = .ok f := by
    rw [scene_inputFact_eq hg ho, ← hcinp, ← hcdst, inputFact?_of_edge hg hc, hf]
  -- the identity writes what it reads
  suffices hws : portFact e.out f' ws = f by
    have := hports e he hsrc f' hf'
    rw [hws] at this
    exact this
  rw [hkind] at hv
  rcases Registry.verdict_identity hi hv with ⟨hunknown, rfl⟩ | ⟨a, v, ha, hx, rfl⟩
  · have hport : e.out ∈ (g.scene id name o.attributes).outputPorts :=
      List.mem_map.2 ⟨e, mem_outgoing.2 ⟨he, hsrc⟩, rfl⟩
    rw [portFact_unknowns, if_pos hport]
    obtain ⟨p, hp₀, hnone⟩ := List.any_eq_true.1 hunknown
    obtain ⟨c', hc', rfl⟩ := List.mem_map.1 hp₀
    obtain ⟨hc', hc'dst⟩ := mem_incoming.1 hc'
    obtain rfl := hp.single c hc c' hc' (hcdst ▸ hid) (hcdst.trans hc'dst.symm)
    rw [hcinp, hin] at hnone
    have hshape : f.shape = none := by simpa using hnone
    rcases hvalue : f.value with _ | t
    · cases f
      cases hshape
      cases hvalue
      rfl
    · cases hshape.symm.trans (hp.shaped _ _ hf t hvalue)
  · obtain ⟨f₁, hf₁, hshape⟩ := Scene.inputShape_eq_ok.1 ha
    obtain ⟨f₂, hf₂, rfl⟩ := Scene.inputValue_eq_ok.1 hx
    obtain rfl := Except.ok.inj (hin.symm.trans hf₁)
    obtain rfl := Except.ok.inj (hin.symm.trans hf₂)
    rw [portFact_shaped, if_pos hout.symm]
    obtain ⟨shape, value⟩ := f
    cases hshape
    cases value with
    | none => rfl
    | some t =>
      obtain rfl := Option.some.inj (hp.shaped _ _ hf t rfl)
      rfl

/-! ### Splices -/

namespace Spliced

section

variable (hs : g.Spliced h id keep drop)

include hs

lemma node?_eq_some {j : NodeId} {n : Node} (hn : h.node? j = some n) :
    g.node? j = some n ∧ j ≠ drop ∧ j ≠ id := by
  rw [hs.node?] at hn
  split at hn
  · cases hn
  · next hj => exact ⟨hn, not_or.1 hj⟩

lemma op?_eq_some {j : NodeId} {o : Operation} (ho : h.op? j = some o) :
    g.op? j = some o ∧ j ≠ drop ∧ j ≠ id := by
  obtain ⟨name, hn⟩ := Graph.op?_eq_some.1 ho
  obtain ⟨hn', hj⟩ := hs.node?_eq_some hn
  exact ⟨Graph.op?_eq_some.2 ⟨name, hn'⟩, hj⟩

lemma fact?_eq_some {f : Fact} (hf : h.fact? d = some f) : g.fact? d = some f := by
  obtain ⟨name, hn⟩ := Graph.fact?_eq_some.1 hf
  exact Graph.fact?_eq_some.2 ⟨name, (hs.node?_eq_some hn).1⟩

lemma inSource_eq_none {j : NodeId} {p : Nat} (hd : g.inSource j p = none) :
    h.inSource j p = none := by
  rw [Graph.inSource_eq_none] at hd ⊢
  intro f hf hdst
  rcases hs.old f hf with ⟨hf, -⟩ | ⟨-, c', hc', -, hdst', hinp'⟩
  · exact hd f hf hdst
  · exact hinp' ▸ hd c' hc' (hdst'.trans hdst)

end

section

variable (hs : g.Spliced h id c.src e.dst) (hw : g.Passes id c e)

include hs hw

/-- The other operations have the outputs that they had. -/
lemma mem_edges_output (hg : g.WellFormed) {f : Edge} {o : Operation} (ho : h.op? f.src = some o) :
    f ∈ h.edges ↔ f ∈ g.edges := by
  obtain ⟨o₀, ho₀, -⟩ := kind?_eq_some.1 hw.kind
  obtain ⟨ho', hdrop, hj⟩ := hs.op?_eq_some ho
  constructor
  · intro hf
    rcases hs.old f hf with ⟨hf, -⟩ | ⟨hfsrc, -⟩
    · exact hf
    · obtain ⟨fk, hfk⟩ := ends_of_op_dst hg hw.input (hw.dst ▸ ho₀)
      rw [hfsrc] at ho'
      cases (fact?_eq_none_of_op ho').symm.trans hfk
  · intro hf
    obtain ⟨f₁, hf₁⟩ := ends_of_op_src hg hf ho'
    refine hs.stays f hf hdrop (fun hdst => hj ?_) hj fun hdst => ?_
    · rw [eq_of_dst_eq hg hf hw.output hdst hf₁, hw.src]
    · rw [hdst, fact?_eq_none_of_op ho₀] at hf₁
      cases hf₁

variable (hp : g.Poised) (hh : h.WellFormed)

include hp hh

/-- What another operation finds on an input, also where it read the output of the identity. -/
lemma findsAlike {j : NodeId} {kind : String} (hkind : h.kind? j = some kind) (p : Nat) :
    g.FindsAlike h kind j p := by
  have hg := hp.wellFormed
  obtain ⟨o, ho, rfl⟩ := kind?_eq_some.1 hkind
  obtain ⟨ho', hdrop, hj⟩ := hs.op?_eq_some ho
  rcases hd : g.inSource j p with _ | d
  · left
    unfold inputFact?
    rw [hd, hs.inSource_eq_none hd]
    rfl
  obtain ⟨o₀, ho₀, -⟩ := kind?_eq_some.1 hw.kind
  obtain ⟨f, hf, rfl, rfl, -⟩ := (inSource_eq_some hg).1 hd
  by_cases hread : f.src = e.dst
  · -- the input comes from the output of the identity
    obtain ⟨fk, hfk⟩ := ends_of_op_dst hg hw.input (hw.dst ▸ ho₀)
    obtain ⟨fd, hfd⟩ := ends_of_op_src hg hw.output (hw.src ▸ ho₀)
    obtain ⟨f', hf', hsrc', hdst', hinp'⟩ := hs.moved f hf hread hdrop hj
    obtain ⟨fk', hfk'⟩ := ends_of_op_dst hh hf' (hdst' ▸ ho)
    have hin' : h.inputFact? f.dst f.inp = some fk := by
      rw [← hdst', ← hinp', inputFact?_of_edge hh hf', hfk', ← hs.fact?_eq_some hfk', hsrc', hfk]
    have hin : g.inputFact? f.dst f.inp = some fd := by
      rw [inputFact?_of_edge hg hf, hread, hfd]
    rcases hp.passes_on hw hfk hfd with rfl | hrecounts
    · exact .inl (hin'.trans hin.symm)
    · obtain ⟨-, hkind', hinp, a, hshape, hsame⟩ := hrecounts f hf hread
      have hunsqueeze : o.kind = "Unsqueeze" := by simpa [kind?, ho'] using hkind'
      exact .inr ⟨hunsqueeze, hinp, a, fd, fk, hshape, hinp ▸ hin, hinp ▸ hin', hsame.symm⟩
  · obtain ⟨f₀, hf₀⟩ := ends_of_op_dst hg hf ho'
    have hsrc' : f.src ≠ id := fun heq => by
      rw [heq, fact?_eq_none_of_op ho₀] at hf₀
      cases hf₀
    have hf' := hs.stays f hf hread hdrop hsrc' hj
    obtain ⟨f₁, hf₁⟩ := ends_of_op_dst hh hf' ho
    left
    rw [inputFact?_of_edge hh hf', inputFact?_of_edge hg hf, hf₁, hs.fact?_eq_some hf₁]

/-- The other operations do not notice that an identity is spliced out. -/
lemma unnoticed : g.Unnoticed h := by
  refine ⟨hh, fun ho => ?_, fun _ _ => hs.fact?_eq_some, hs.mem_edges_output hw hp.wellFormed,
    hs.findsAlike hw hp hh, fun {d f f'} hlive hrecounts r hr hrsrc => ?_⟩
  · obtain ⟨name, hn⟩ := Graph.op?_eq_some.1 ho
    rw [hn, (hs.node?_eq_some hn).1]
  rcases hs.old r hr with ⟨hr', -⟩ | ⟨hrkeep, -⟩
  · obtain ⟨-, hkind, hinp, a, hshape, hsame⟩ := hrecounts r hr' hrsrc
    obtain ⟨f₁, hf₁⟩ := Option.isSome_iff_exists.1 hlive
    obtain ⟨o, ho⟩ := ends_of_fact_src hh hr (hrsrc ▸ hf₁)
    have hkind' : h.kind? r.dst = some "Unsqueeze" := by
      rw [kind?, ho, ← hkind, kind?, (hs.op?_eq_some ho).1]
    exact ⟨trivial, hkind', hinp, a,
      (hs.findsAlike hw hp hh hkind' 0).inputShape?.trans hshape, hsame⟩
  · -- the identity reads its input, and is no unsqueeze
    obtain ⟨-, hkind, -⟩ := hrecounts c hw.input (hrkeep.symm.trans hrsrc)
    rw [hw.dst, hw.kind] at hkind
    exact absurd hkind (by decide)

end

end Spliced

/-- Removing an identity leaves a poised graph poised, and what its outputs read. -/
theorem Poised.removeIdentity (hp : g.Poised) (hid : g.kind? id = some "Identity")
    (hx : Gives (Edit.removeIdentity id) g () h) :
    h.Poised ∧ g.SameResults h ∧
      ∀ j, (h.node? j).isSome → (g.node? j).isSome ∧ h.kind? j = g.kind? j := by
  obtain ⟨o, ho, -⟩ := kind?_eq_some.1 hid
  rcases gives_removeIdentity hp.wellFormed hid hx with rfl | ⟨-, c, e, k, hw, hs, hk, ha⟩
  · exact ⟨hp, .refl _, fun _ hj => ⟨hj, rfl⟩⟩
  have hu := hs.unnoticed hw hp hk
  have hkind {j : NodeId} (hj : ¬(j = e.dst ∨ j = id)) : k.kind? j = g.kind? j := by
    rw [kind?, kind?, op?, op?, hs.node?, if_neg hj]
  refine ⟨(hu.poised hp).of_agrees ha, (hu.sameResults fun j hj => ?_).trans ha.sameResults,
    fun j hj => ?_⟩
  · rw [← hj]
    refine hkind ?_
    rintro (rfl | rfl)
    · obtain ⟨f, hf⟩ := ends_of_op_src hp.wellFormed hw.output (hw.src ▸ ho)
      rw [kind?, op?_eq_none_of_fact hf] at hj
      cases hj
    · exact absurd (hid.symm.trans hj) (by decide)
  · rw [isSome_node?_of_skeleton ha.skeleton, hs.node?] at hj
    split at hj
    · cases hj
    · next hnot => exact ⟨hj, (kind?_of_skeleton ha.skeleton j).trans (hkind hnot)⟩

lemma isSome_node?_of_removeIdentity (hx : Gives (Edit.removeIdentity id) g () h) :
    (g.node? id).isSome := by
  obtain ⟨input?, _, hquery, -⟩ := gives_bind.1 hx
  obtain ⟨edges, hedges, -⟩ := bind_eq_ok.1 (gives_query.1 hquery).1
  obtain ⟨⟨n, hn⟩, -⟩ := Edit.inEdges_eq_ok.1 hedges
  rw [hn]
  rfl

/-- Removing identities leaves a poised graph poised, and what its outputs read. -/
theorem Poised.removeIdentities (hp : g.Poised)
    (hx : Gives Transformation.removeIdentity.apply g () h) : h.Poised ∧ g.SameResults h := by
  have hloop {l : List NodeId} {k : Graph} (hk : k.Poised)
      (hl : ∀ id ∈ l, (k.node? id).isSome → k.kind? id = some "Identity")
      (hx : Gives (l.forM Edit.removeIdentity) k () h) : h.Poised ∧ k.SameResults h := by
    induction l generalizing k with
    | nil =>
      obtain ⟨-, rfl⟩ := gives_pure.1 hx
      exact ⟨hk, .refl _⟩
    | cons id l ih =>
      obtain ⟨_, k', hfirst, hrest⟩ := gives_bind.1 hx
      have hid := hl id (List.mem_cons_self ..) (isSome_node?_of_removeIdentity hfirst)
      obtain ⟨hk', hsame, hkind⟩ := hk.removeIdentity hid hfirst
      have hl' : ∀ i ∈ l, (k'.node? i).isSome → k'.kind? i = some "Identity" := fun i hi hlive => by
        obtain ⟨hlive', hsame'⟩ := hkind i hlive
        rw [hsame']
        exact hl i (List.mem_cons_of_mem id hi) hlive'
      obtain ⟨hh, hsame'⟩ := ih hk' hl' hrest
      exact ⟨hh, hsame.trans hsame'⟩
  obtain ⟨_, _, hcurrent, hx⟩ := gives_bind.1 hx
  obtain ⟨rfl, rfl⟩ := gives_current.1 hcurrent
  exact hloop hp (fun id hid _ => mem_opNodesOf.1 hid) hx

end Graph

end TensorGraph
