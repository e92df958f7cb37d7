import TensorGraph.Proofs.Repatterns

/-!
Pinning reshapes in poised graphs.

A pattern is written into the constant of a reshape that nothing else reads (`repatterned_of_set`),
or into a new one (`repatterned_of_add`). It reshapes to what the pattern before reshaped to
(`Graph.reshape_eq_of_replacement`), so nothing that the outputs of the model read changes
(`poised_of_pinReshapes`).
-/

namespace TensorGraph

lemma Tensor.toInts_ofInts_toInts (t : Tensor) : (ofInts t.toInts).toInts = t.toInts := by
  refine toInts_ofInts t.length_toInts_lt fun x hx => ?_
  obtain ⟨i, -, rfl⟩ := List.mem_map.1 hx
  exact Shape.fits_iff.2 ⟨i.le_toInt, i.toInt_lt⟩

lemma Operand.length_pinned (o : Operand) (inner : Int) (transposeA transposeB : Bool) :
    (o.pinned inner transposeA transposeB).length = 2 := by
  unfold pinned
  grind

open Edit

namespace Graph

variable {g h k : Graph} {r c d : NodeId} {s : ReshapeSite} {new : Shape} {matmul : NodeId}
  {operand : Operand}

/-! ### Replacements -/

lemma inputShape?_of_knownShape {o : Operation} (ho : g.op? r = some o) {p : Nat}
    {a : Shape} (hx : g.knownShape r p = .ok (some a)) : g.inputShape? r p = some a := by
  unfold knownShape at hx
  rw [inputData_eq ho, ok_bind] at hx
  unfold inputShape? inputFact?
  rcases hd : g.inSource r p with _ | d
  · rw [hd] at hx
    cases hx
  · rw [hd] at hx
    obtain ⟨f, hf, hx⟩ := bind_eq_ok.1 hx
    simp only [Option.bind_some, fact_eq_ok.1 hf]
    exact Except.ok.inj hx

lemma eq_copiesZero_of_flag {o : Operation} (ho : g.op? r = some o) {zero : Bool}
    (hx : g.flag r "special_zero" true = .ok zero) (name : String) :
    (g.scene r name o.attributes).copiesZero = zero := by
  obtain ⟨o', ho', hx⟩ := bind_eq_ok.1 hx
  obtain rfl := Option.some.inj (ho.symm.trans (operation_eq_ok.1 ho'))
  exact Except.ok.inj hx

lemma reshape_eq_of_sameReshape {a before after : Shape} {zero : Bool}
    (h : sameReshape a before after zero = true) :
    Shape.reshape a after zero = Shape.reshape a before zero := by
  unfold sameReshape at h
  split at h
  · next hx hy => rw [hx, hy, beq_iff_eq.1 h]
  · cases h

/-- When the other operand fixes a pattern, and which. -/
lemma newPattern_eq_some {pattern : Shape} :
    g.newPattern matmul operand = .ok (some pattern) ↔ ∃ transposeA transposeB facing inner,
      g.flag matmul "transpose_a" false = .ok transposeA ∧
      g.flag matmul "transpose_b" false = .ok transposeB ∧
      g.comesFrom matmul operand.other.port ["Reshape", "Transpose"] = .ok false ∧
      g.knownShape matmul operand.other.port = .ok (some facing) ∧
      operand.innerDim? facing transposeA transposeB = some inner ∧ 0 ≤ inner ∧
      pattern = operand.pinned inner transposeA transposeB := by
  constructor
  · intro hx
    obtain ⟨transposeA, hA, hx⟩ := bind_eq_ok.1 hx
    obtain ⟨transposeB, hB, hx⟩ := bind_eq_ok.1 hx
    obtain ⟨folded, hfolded, hx⟩ := bind_eq_ok.1 hx
    rcases folded with _ | _
    · obtain ⟨facing?, hfacing, hx⟩ := bind_eq_ok.1 hx
      rcases facing? with _ | facing
      · cases hx
      simp only at hx
      rcases hinner : operand.innerDim? facing transposeA transposeB with _ | inner
      · rw [hinner] at hx
        cases hx
      rw [hinner] at hx
      simp only at hx
      split at hx
      · cases hx
      · next hneg =>
        exact ⟨transposeA, transposeB, facing, inner, hA, hB, hfolded, hfacing, hinner,
          Int.not_lt.1 hneg, (Option.some.inj (Except.ok.inj hx)).symm⟩
    · cases hx
  · rintro ⟨transposeA, transposeB, facing, inner, hA, hB, hfolded, hfacing, hinner, hle, rfl⟩
    unfold newPattern
    rw [hA, ok_bind, hB, ok_bind, hfolded, ok_bind, if_neg Bool.false_ne_true, hfacing, ok_bind]
    simp only [hinner, if_neg (Int.not_lt.2 hle)]
    rfl

/-- When a pattern is replaced, and by which. -/
lemma replacement_eq_some :
    g.replacement matmul operand s = .ok (some new) ↔ ∃ pattern input zero,
      g.newPattern matmul operand = .ok (some pattern) ∧ new = (Tensor.ofInts pattern).toInts ∧
      s.pattern ≠ new ∧ g.knownShape s.reshape 0 = .ok (some input) ∧
      g.flag s.reshape "special_zero" true = .ok zero ∧
      sameReshape input s.pattern new zero = true := by
  constructor
  · intro hx
    obtain ⟨pattern?, hpattern, hx⟩ := bind_eq_ok.1 hx
    rcases pattern? with _ | pattern
    · cases hx
    simp only at hx
    split at hx
    · cases hx
    next hne =>
    obtain ⟨input?, hinput, hx⟩ := bind_eq_ok.1 hx
    rcases input? with _ | input
    · cases hx
    obtain ⟨zero, hzero, hx⟩ := bind_eq_ok.1 hx
    replace hx := Except.ok.inj hx
    split at hx
    · next hsame =>
      obtain rfl := Option.some.inj hx
      exact ⟨pattern, input, zero, hpattern, rfl, hne, hinput, hzero, hsame⟩
    · cases hx
  · rintro ⟨pattern, input, zero, hpattern, rfl, hne, hinput, hzero, hsame⟩
    unfold replacement
    rw [hpattern, ok_bind]
    simp only
    rw [if_neg hne, hinput, ok_bind]
    simp only
    rw [hzero, ok_bind, if_pos hsame]
    rfl

/-- A replacement is what a tensor holds, and reshapes to what the pattern before reshapes to. -/
lemma reshape_eq_of_replacement (hx : g.replacement matmul operand s = .ok (some new)) :
    (Tensor.ofInts new).toInts = new ∧ ∀ name o a, g.op? s.reshape = some o →
      g.inputShape? s.reshape 0 = some a →
        Shape.reshape a new (g.scene s.reshape name o.attributes).copiesZero =
          Shape.reshape a s.pattern (g.scene s.reshape name o.attributes).copiesZero := by
  obtain ⟨pattern, input, zero, -, rfl, -, hinput, hzero, hsame⟩ := replacement_eq_some.1 hx
  refine ⟨Tensor.toInts_ofInts_toInts _, fun name o a ho ha => ?_⟩
  obtain rfl := Option.some.inj (ha.symm.trans (inputShape?_of_knownShape ho hinput))
  rw [eq_copiesZero_of_flag ho hzero]
  exact reshape_eq_of_sameReshape hsame

end Graph

namespace Edit

variable {g h k : Graph} {c d : NodeId} {s : Graph.ReshapeSite} {value : Tensor}

/-- Setting the value of a constant with one output changes the constant and its data. -/
lemma gives_setConstValue {e : Edge} (he : e ∈ g.edges)
    (hlone : ∀ e' ∈ g.edges, e'.src = e.src → e = e')
    (hx : Gives (setConstValue e.src value) g () h) :
    h.Alike ((g.modifyOp e.src (·.withAttribute "value" (.tensor value))).modifyFact e.dst
      fun _ => .ofValue value) := by
  obtain ⟨_, k, hset, hx⟩ := gives_bind.1 hx
  obtain ⟨outputs, _, hquery, hx⟩ := gives_bind.1 hx
  obtain ⟨houtputs, rfl⟩ := gives_query.1 hquery
  have halike := alike_of_modifyOp hset
  obtain ⟨edges, hedges, houtputs⟩ := bind_eq_ok.1 houtputs
  obtain ⟨-, rfl⟩ := outEdges_eq_ok.1 hedges
  obtain rfl := Except.ok.inj houtputs
  have hout : k.outgoing e.src = [e] := by
    have hlinks : k.links = g.links := halike.2
    rw [Graph.outgoing_congr hlinks]
    refine List.perm_singleton.1 ((List.perm_ext_iff_of_nodup (g.nodup_outgoing e.src)
      (List.nodup_singleton e)).2 fun e' => ?_)
    rw [Graph.mem_outgoing, List.mem_singleton]
    exact ⟨fun ⟨he', hsrc⟩ => (hlone e' he' hsrc).symm, by rintro rfl; exact ⟨he, rfl⟩⟩
  rw [hout] at hx
  obtain ⟨_, k', hmodify, hx⟩ := gives_bind.1 hx
  obtain ⟨-, rfl⟩ := gives_pure.1 hx
  exact (alike_of_modifyFact hmodify).trans (halike.modifyFact _ _)

/-- A constant with one output that is given another value is calm, if it was calm and wrote a value
that is read. -/
lemma calm_of_setConstValue (hp : g.Poised) {e r : Edge} (he : e ∈ g.edges)
    (hconst : g.kind? e.src = some "Const") (hr : r ∈ g.edges) (hrsrc : r.src = e.dst)
    (hnot : ∀ e₁ ∈ g.edges, e₁.src = e.dst → e₁.dst ≠ e.src) {f : Fact} {t : Tensor}
    (hf : g.fact? e.dst = some f) (ht : f.value = some t)
    (halike : h.Alike ((g.modifyOp e.src (·.withAttribute "value" (.tensor value))).modifyFact e.dst
      fun _ => .ofValue value)) :
    h.Calm (fun _ => True) e.src := by
  have hg := hp.wellFormed
  have hskel : h.skeleton = g.skeleton :=
    halike.skeleton.trans ((Graph.skeleton_modifyFact ..).trans
      (Graph.skeleton_modifyOp _ (fun _ => rfl) fun _ => rfl))
  obtain ⟨o, ho, hkind⟩ := Graph.kind?_eq_some.1 hconst
  obtain ⟨name, hn⟩ := Graph.op?_eq_some.1 ho
  have hcd : e.src ≠ e.dst := by
    intro heq
    rw [← heq, Graph.fact?_eq_none_of_op ho] at hf
    cases hf
  have hn' : h.node? e.src = some ⟨name, .op (o.withAttribute "value" (.tensor value))⟩ := by
    rw [halike.node?, Graph.node?_modifyFact, if_neg hcd, Graph.node?_modifyOp, if_pos rfl, hn]
    rfl
  -- what the constant finds on its inputs is as it was
  have hinput : ∀ p, g.FindsAlike h o.kind e.src p := fun p => by
    left
    unfold Graph.inputFact?
    rw [Graph.inSource_of_skeleton hskel]
    rcases hd : g.inSource e.src p with _ | d
    · rfl
    obtain ⟨e₁, he₁, hdst₁, -, rfl⟩ := (Graph.inSource_eq_some hg).1 hd
    simp only [Option.bind_some]
    rw [halike.fact?, Graph.fact?_modifyFact, if_neg fun heq => hnot e₁ he₁ heq hdst₁,
      Graph.fact?_modifyOp]
  have hcalm := hp.quiescent e.src (ho ▸ rfl)
  have hknown := hcalm.hasUnknownInput_const hn hkind he rfl hr hrsrc hf ht
  obtain ⟨name', o₁, ws, hn₁, hi, -⟩ := hcalm
  cases hn.symm.trans hn₁
  have hfind (n : String) : (o.withAttribute "value" (.tensor value)).attributes.find? n =
      if n = "value" then some (.tensor value) else o.attributes.find? n := Dict.find?_insert ..
  refine Graph.calm_of_value hn' hkind ((hfind "infer").trans hi) (hfind "value") ?_
    fun e₁ he₁ hsrc₁ => ?_
  · exact (Graph.scene_resembles hg (hg.of_skeleton hskel) ho
      (Graph.op?_eq_some.2 ⟨name, hn'⟩) hinput
      (fun p => by rw [Graph.edges_of_skeleton hskel]) name _).hasUnknownInput.trans hknown
  · rw [hp.constants e₁ (Graph.edges_of_skeleton hskel ▸ he₁) e he (hsrc₁ ▸ hconst) hsrc₁,
      halike.fact?, Graph.fact?_modifyFact, if_pos rfl, Graph.fact?_modifyOp, hf]
    exact ⟨_, rfl, Fact.update_self _⟩

section

variable (hs : g.HasSite s) (hl : (g.outgoing s.data).length ≤ 1)
  (hx : Gives (setConstValue s.constant value) g () h)

include hs hl hx

/-- A pattern in the constant of a site that nothing else reads. -/
lemma repatterned_of_set (hg : g.WellFormed) (hconst : g.Lone "Const") :
    g.Repatterned h s.reshape s.constant s.data value := by
  have hh : h.WellFormed := hx.keeps (keeps_setConstValue_of unaffected_wellFormed _ _) hg
  obtain ⟨r, hr, hrsrc, hrdst, hrinp⟩ := hs.read
  obtain ⟨e, he, hsrc, hdst⟩ := hs.written
  obtain ⟨f, t, hf, ht, -⟩ := hs.value
  obtain ⟨o, ho, -⟩ := Graph.kind?_eq_some.1 hs.constant
  have hlone : ∀ e' ∈ g.edges, e'.src = e.src → e = e' := fun e' he' hsrc' =>
    hconst e he e' he' (hsrc ▸ hs.constant) hsrc'.symm
  have halike := gives_setConstValue he hlone (hsrc ▸ hx)
  rw [hsrc, hdst] at halike
  have hskel : h.skeleton = g.skeleton :=
    hx.keeps (keeps_setConstValue_of (Graph.unaffected_skeleton _) _ _) rfl
  have hedges := Graph.edges_of_skeleton hskel
  have ho' : h.op? s.constant = some (o.withAttribute "value" (.tensor value)) := by
    rw [halike.op?, Graph.op?_modifyFact, Graph.op?_modifyOp, if_pos rfl, ho]
    rfl
  have honly : ∀ e₁ ∈ g.edges, e₁.src = s.data → e₁.dst = s.reshape ∧ e₁.inp = 1 :=
    fun e₁ he₁ hsrc₁ => by
    obtain rfl := eq_of_unshared hl hr he₁ hrsrc hsrc₁
    exact ⟨hrdst, hrinp⟩
  refine ⟨hh, fun j hc hd => ?_, .inr hs.constant, ?_,
    (Graph.kind?_of_skeleton hskel _).trans hs.constant, ?_, fun hflag => ?_,
    fun e₁ he₁ e₂ he₂ hsrc₁ hsrc₂ => ?_, ?_, ⟨r, hedges ▸ hr, hrsrc, hrdst, hrinp⟩,
    ⟨e, hedges ▸ he, hsrc, hdst⟩, fun e₁ he₁ hsrc₁ => ?_, fun e₁ he₁ hdst₁ => ?_,
    fun e₁ he₁ hsrc₁ => ?_, fun e₁ _ _ _ => hedges ▸ Iff.rfl⟩
  · rw [halike.node?, Graph.node?_modifyFact, if_neg hd, Graph.node?_modifyOp, if_neg hc]
  · rw [Graph.kind?, Graph.op?_eq_none_of_fact hf]
    rfl
  · rw [Graph.attributes?_of_op? ho', Option.bind_some, Operation.withAttribute, Dict.find?_insert,
      if_pos rfl]
  · rw [Graph.flag?_of_op? ho', ← hflag, Graph.flag?_of_op? ho]
    rfl
  · rw [hedges] at he₁ he₂
    rw [← hlone e₁ he₁ (hsrc₁.trans hsrc.symm), ← hlone e₂ he₂ (hsrc₂.trans hsrc.symm)]
  · rw [halike.fact?, Graph.fact?_modifyFact, if_pos rfl, Graph.fact?_modifyOp, hf]
    rfl
  · exact honly e₁ (he₁.elim id fun he₁ => hedges ▸ he₁) hsrc₁
  · rw [Graph.eq_of_dst_eq hg (he₁.elim id fun he₁ => hedges ▸ he₁) he (hdst₁.trans hdst.symm)
      (hdst₁ ▸ hf), hsrc]
  · rw [← hlone e₁ he₁ (hsrc₁.trans hsrc.symm), hdst]

/-- Writing a pattern leaves the constant of a site calm. -/
lemma calm_of_set (hp : g.Poised) : h.Calm (fun _ => True) s.constant ∧ h.Compact s.constant := by
  obtain ⟨r, hr, hrsrc, hrdst, hrinp⟩ := hs.read
  obtain ⟨e, he, hsrc, hdst⟩ := hs.written
  obtain ⟨f, t, hf, ht, -⟩ := hs.value
  have hlone : ∀ e' ∈ g.edges, e'.src = e.src → e = e' := fun e' he' hsrc' =>
    hp.constants e he e' he' (hsrc ▸ hs.constant) hsrc'.symm
  have hnot : ∀ e₁ ∈ g.edges, e₁.src = e.dst → e₁.dst ≠ e.src := fun e₁ he₁ hsrc₁ heq => by
    obtain rfl := eq_of_unshared hl hr he₁ hrsrc (hsrc₁.trans hdst)
    have hkind := hs.constant
    rw [← hsrc, ← heq, hrdst, hs.reshape] at hkind
    exact absurd hkind (by decide)
  have hskel : h.skeleton = g.skeleton :=
    hx.keeps (keeps_setConstValue_of (Graph.unaffected_skeleton _) _ _) rfl
  refine ⟨hsrc ▸ calm_of_setConstValue hp he (hsrc ▸ hs.constant) hr (hrsrc.trans hdst.symm) hnot
    (hdst ▸ hf) ht (gives_setConstValue he hlone (hsrc ▸ hx)), ?_⟩
  unfold Graph.Compact
  rw [Graph.edges_of_skeleton hskel]
  exact hp.compact s.constant "Const" hs.constant (by decide)

end

/-- The nodes and edges that a new constant adds. -/
lemma contents_of_addConst {name : String} (hx : Gives (addConst name value) g d k) :
    ∃ c i, g.node? c = none ∧ g.node? d = none ∧ c ≠ d ∧
      k.node? c = some ⟨name,
        .op ((Operation.ofKind "Const").withAttribute "value" (.tensor value))⟩ ∧
      k.fact? d = some (.ofValue value) ∧ (∀ j, j ≠ c → j ≠ d → k.node? j = g.node? j) ∧
      ∀ e, e ∈ k.edges ↔ e ∈ g.edges ∨ e = { src := c, dst := d, out := 0, inp := 0, id := i } := by
  obtain ⟨rfl, m, hnodes, hlinks, halike⟩ := gives_addConst hx
  have hnode := Graph.node?_of_push hnodes
  have hne := g.freshOp_ne_freshData
  refine ⟨g.freshOp, ⟨g.links.next⟩, g.node?_freshOp, g.node?_freshData, hne, ?_, ?_,
    fun j hc hd => ?_, fun e => ?_⟩
  · rw [halike.node?, Graph.node?_modifyFact, if_neg hne, hnode, if_neg hne, if_pos rfl]
    rfl
  · rw [halike.fact?, Graph.fact?_modifyFact, if_pos rfl, Graph.fact?, hnode, if_pos rfl]
    rfl
  · rw [halike.node?, Graph.node?_modifyFact, if_neg hd, hnode, if_neg hd, if_neg hc]
  · rw [Graph.edges_congr halike.2]
    exact Graph.mem_edges_of_push hlinks

/-- A pattern in a constant of its own. -/
lemma repatterned_of_add {name : String} (hg : g.WellFormed) (hs : g.HasSite s)
    (hadd : Gives (addConst name value) g d k)
    (hrewire : Gives (rewireInput s.reshape 1 d) k () h) :
    ∃ c, g.Repatterned h s.reshape c d value ∧ h.Calm (fun _ => True) c ∧ h.Compact c := by
  have hk : k.WellFormed := hadd.keeps (keeps_addConst _ _) hg
  have hh : h.WellFormed := hrewire.keeps (keeps_rewireInput _ _ _) hk
  obtain ⟨c, i, hc, hd, hne, hconst, hfact, hold, hlinks⟩ := contents_of_addConst hadd
  obtain ⟨r, hr, -, hrdst, hrinp⟩ := hs.read
  rw [← hrdst, ← hrinp] at hrewire
  obtain ⟨hnodes, i', hedges⟩ := gives_rewireInput hk ((hlinks r).2 (.inl hr)) hrewire
  have hnode (j : NodeId) : h.node? j = k.node? j := congrFun (Graph.node?_congr hnodes) j
  -- the edges of `g` meet neither the constant nor its data
  have hends : ∀ e ∈ g.edges, e.src ≠ c ∧ e.src ≠ d ∧ e.dst ≠ c ∧ e.dst ≠ d := by
    intro e he
    obtain ⟨a, b, ha, hb, -⟩ := hg.ends he
    refine ⟨?_, ?_, ?_, ?_⟩ <;> intro heq <;> simp_all
  have hcases : ∀ e ∈ h.edges, e ∈ g.edges ∨
    e = { src := c, dst := d, out := 0, inp := 0, id := i } ∨
      e = { src := d, dst := r.dst, out := 0, inp := r.inp, id := i' } := by
    intro e he
    rcases (hedges e).1 he with ⟨he, -⟩ | rfl
    · exact ((hlinks e).1 he).imp_right .inl
    · exact .inr (.inr rfl)
  have hlink : ∀ e ∈ h.edges, e.src = c →
    e = { src := c, dst := d, out := 0, inp := 0, id := i } := by
    intro e he hsrc
    rcases hcases e he with he | rfl | rfl
    · exact absurd hsrc (hends e he).1
    · rfl
    · exact absurd hsrc hne.symm
  have hkind : h.kind? c = some "Const" := by
    rw [Graph.kind?, Graph.op?, hnode, hconst]
    rfl
  have hop : h.op? c = some ((Operation.ofKind "Const").withAttribute "value" (.tensor value)) :=
    Graph.op?_eq_some.2 ⟨name, (hnode c).trans hconst⟩
  refine ⟨c, ⟨hh, fun j hc hd =>
    (hnode j).trans (hold j hc hd), .inl hc, ?_, hkind, ?_, fun _ => ?_,
    fun e he e' he' hsrc hsrc' => ?_, ?_, ⟨_, (hedges _).2 (.inr rfl), rfl, hrdst, hrinp⟩,
    ⟨_, (hedges _).2 (.inl ⟨(hlinks _).2 (.inr rfl), ?_⟩), rfl, rfl⟩, fun e he hsrc => ?_,
    fun e he hdst => ?_, fun e he hsrc => absurd hsrc (hends e he).1, fun e hc hd hport => ?_⟩,
    ?_, fun e he hsrc n hn => ?_⟩
  · rw [Graph.kind?, Graph.op?, hd]
    rfl
  · rw [Graph.attributes?_of_op? hop, Option.bind_some, Operation.withAttribute, Dict.find?_insert,
      if_pos rfl]
  · rw [Graph.flag?_of_op? hop]
    rfl
  · rw [hlink e he hsrc, hlink e' he' hsrc']
  · rw [Graph.fact?, hnode]
    exact hfact
  · rintro rfl
    exact (hends _ hr).1 rfl
  · rcases he with he | he
    · exact absurd hsrc (hends e he).2.1
    rcases hcases e he with he | rfl | rfl
    · exact absurd hsrc (hends e he).2.1
    · exact absurd hsrc hne
    · exact ⟨hrdst, hrinp⟩
  · rcases he with he | he
    · exact absurd hdst (hends e he).2.2.2
    rcases hcases e he with he | rfl | rfl
    · exact absurd hdst (hends e he).2.2.2
    · rfl
    · exact absurd hdst (hends r hr).2.2.2
  · rw [hedges, hlinks]
    constructor
    · rintro (⟨he | rfl, -⟩ | rfl)
      · exact he
      · exact absurd rfl hc
      · exact absurd rfl hd
    · refine fun he => .inl ⟨.inl he, ?_⟩
      rintro rfl
      exact hport hrdst hrinp
  · -- nothing feeds the constant
    refine Graph.calm_of_value (hnode c ▸ hconst) rfl rfl rfl ?_ fun e he hsrc => ?_
    · rw [← Bool.not_eq_true]
      intro hunknown
      obtain ⟨p, hp, -⟩ := List.any_eq_true.1 hunknown
      obtain ⟨e, he, -⟩ := List.mem_map.1 hp
      obtain ⟨he, hdst⟩ := Graph.mem_incoming.1 he
      rcases hcases e he with he | rfl | rfl
      · exact (hends e he).2.2.1 hdst
      · exact hne hdst.symm
      · exact (hends r hr).2.2.1 hdst
    · rw [hlink e he hsrc, Graph.fact?, hnode]
      exact ⟨_, hfact, Fact.update_self _⟩
  · rw [hlink e he hsrc] at hn
    exact absurd hn (Nat.not_lt_zero n)

/-! ### The pass -/

lemma keeps_agrees_markNeighbourhood (g : Graph) (id : NodeId) :
    Keeps (fun k => k.Agrees g) (markNeighbourhood id) :=
  keeps_bind (keeps_agrees_mark g id) fun _ => keeps_bind (keeps_query _) fun _ =>
    keeps_forM fun d _ => keeps_agrees_mark g d

/-- Pinning a reshape leaves a poised graph poised, and what its outputs read. -/
theorem poised_of_pinReshape {matmul : NodeId} {operand : Operand} (hp : g.Poised)
    (hx : Gives (pinReshape matmul operand) g () h) : h.Poised ∧ g.SameResults h := by
  rcases gives_pinReshape hx with ⟨rfl, -⟩ | ⟨s, new, name, k, hsite, hnew, hwrite, hmark⟩
  · exact ⟨hp, .refl _⟩
  have hs := Graph.hasSite_of_reshapeSite hsite
  obtain ⟨hcells, hsame⟩ := Graph.reshape_eq_of_replacement hnew
  obtain ⟨c, d, hk, hcalm, hcompact⟩ : ∃ c d, g.Repatterned k s.reshape c d (.ofInts new) ∧
      k.Calm (fun _ => True) c ∧ k.Compact c := by
    rcases gives_writePattern hwrite with ⟨hl, hset⟩ | ⟨name', d, k', hadd, hrewire⟩
    · exact ⟨_, _, repatterned_of_set hs hl hset hp.wellFormed hp.constants,
        calm_of_set hs hl hset hp⟩
    · obtain ⟨c, hk⟩ := repatterned_of_add hp.wellFormed hs hadd hrewire
      exact ⟨c, d, hk⟩
  obtain ⟨f, t, hf, ht, hpattern⟩ := hs.value
  obtain ⟨r, hr, hrsrc, hrdst, hrinp⟩ := hs.read
  have hin : g.inputFact? s.reshape 1 = some f := by
    rw [← hrdst, ← hrinp, Graph.inputFact?_of_edge hp.wellFormed hr, hrsrc, hf]
  have hq := hk.quiescent hs.reshape hp hcalm hin ht fun name o a ho ha => by
    rw [hcells, ← hpattern]
    exact hsame name o a ho ha
  have hagrees : h.Agrees k := hmark.keeps (keeps_agrees_markNeighbourhood k _) (.refl k)
  exact ⟨(hk.poised hs.reshape hp hq hcompact).of_agrees hagrees,
    (hk.sameResults hp.wellFormed hs.reshape).trans hagrees.sameResults⟩

/-- Pinning reshapes leaves a poised graph poised, and what its outputs read. -/
theorem poised_of_pinReshapes (hp : g.Poised) (hx : Gives Transformation.pinReshapes.apply g () h) :
    h.Poised ∧ g.SameResults h := by
  obtain ⟨_, _, hcurrent, hloop⟩ := gives_bind.1 hx
  obtain ⟨rfl, rfl⟩ := gives_current.1 hcurrent
  clear hx hcurrent
  generalize g.opNodesOf "MatMul" = l at hloop
  induction l generalizing g with
  | nil =>
    obtain ⟨-, rfl⟩ := gives_pure.1 hloop
    exact ⟨hp, .refl _⟩
  | cons id l ih =>
    obtain ⟨_, k, hfirst, hrest⟩ := gives_bind.1 hloop
    obtain ⟨_, m, hleft, hright⟩ := gives_bind.1 hfirst
    obtain ⟨hm, hsame⟩ := poised_of_pinReshape hp hleft
    obtain ⟨hk, hsame'⟩ := poised_of_pinReshape hm hright
    obtain ⟨hh, hsame''⟩ := ih hk hrest
    exact ⟨hh, (hsame.trans hsame').trans hsame''⟩

end Edit

end TensorGraph
