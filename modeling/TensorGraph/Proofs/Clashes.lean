import TensorGraph.Proofs.Exchanges

/-!
When a comparison fails.

The search goes on from nodes that are known to differ. It fails only where an operation whose one
input may come in any order stands against a data node that an operation produces (`Graph.Clash`):
the edge into the data node has no signature. A comparison whose nodes of the given name are there
succeeds unless its search comes to such a pair (`matchReport_fails_iff`).
-/

namespace TensorGraph.Graph

variable {a b : Graph} {withAttributes : Bool} {start ids : NodeId × NodeId}

/-! ### Pairs without a pairing -/

/-- An operation with one input, which may come in any order, against data that something
produces. -/
structure Clash (a b : Graph) (ids : NodeId × NodeId) : Prop where
  operation : ∃ o, a.op? ids.1 = some o ∧ o.kind ∈ commutativeKinds
  single : (a.incoming ids.1).length = 1
  data : (b.fact? ids.2).isSome
  produced : (b.incoming ids.2).length = 1

lemma isCommutative_op {name : String} {o : Operation} :
    (⟨name, .op o⟩ : Node).isCommutative = true ↔ o.kind ∈ commutativeKinds := by
  rw [Node.isCommutative, List.any_eq_true]
  constructor
  · rintro ⟨kind, hkind, hop⟩
    obtain rfl : o.kind = kind := by simpa [Node.isOpOf] using hop
    exact hkind
  · exact fun hkind => ⟨o.kind, hkind, by simp [Node.isOpOf]⟩

lemma exists_takeSigned {es : List Edge} (h : ∀ e ∈ es, ∃ s, b.signature e = .ok s)
    (sig : Option (String × Option Shape)) : ∃ taken, b.takeSigned sig es = .ok taken := by
  induction es with
  | nil => exact ⟨none, rfl⟩
  | cons e es ih =>
    obtain ⟨s, hs⟩ := h e (List.mem_cons_self ..)
    obtain ⟨taken, htaken⟩ := ih fun e' he' => h e' (List.mem_cons_of_mem e he')
    rw [takeSigned, hs, ok_bind]
    split
    · exact ⟨_, rfl⟩
    · exact ⟨_, bind_eq_ok.2 ⟨taken, htaken, rfl⟩⟩

lemma exists_pairSigned {es free : List Edge} (hes : ∀ e ∈ es, ∃ s, a.signature e = .ok s)
    (hfree : ∀ f ∈ free, ∃ s, b.signature f = .ok s) : ∃ r, a.pairSigned b es free = .ok r := by
  induction es generalizing free with
  | nil => exact ⟨_, rfl⟩
  | cons e es ih =>
    have hes' : ∀ e' ∈ es, ∃ s, a.signature e' = .ok s := fun e' he' =>
      hes e' (List.mem_cons_of_mem e he')
    obtain ⟨s, hs⟩ := hes e (List.mem_cons_self ..)
    obtain ⟨taken, htaken⟩ := exists_takeSigned hfree s
    rw [pairSigned, hs, ok_bind, htaken, ok_bind]
    rcases taken with _ | ⟨f, rest⟩
    · obtain ⟨r, hr⟩ := ih hes' hfree
      exact ⟨_, bind_eq_ok.2 ⟨r, hr, rfl⟩⟩
    · obtain ⟨r, hr⟩ := ih hes' fun f' hf' =>
        hfree f' ((takeSigned_perm htaken).subset (List.mem_cons_of_mem f hf'))
      exact ⟨_, bind_eq_ok.2 ⟨r, hr, rfl⟩⟩

/-- The edge into a data node comes from an operation, of which nothing is known as of data. -/
lemma not_signature_of_data (hb : b.WellFormed) {f : Edge} (hf : f ∈ b.edges)
    (hdata : (b.fact? f.dst).isSome) (s : Option (String × Option Shape)) :
    b.signature f ≠ .ok s := by
  intro hs
  obtain ⟨c, hc⟩ := Option.isSome_iff_exists.1 hdata
  obtain ⟨o, ho⟩ := ends_of_fact_dst hb hf hc
  obtain ⟨fact, hfact, -⟩ := bind_eq_ok.1 hs
  cases (fact_eq_ok.1 hfact).symm.trans (fact?_eq_none_of_op ho)

lemma length_incoming_of_data (hb : b.WellFormed) {y : NodeId} (hdata : (b.fact? y).isSome) :
    (b.incoming y).length ≤ 1 := by
  obtain ⟨n, hn, hop⟩ := isSome_fact?.1 hdata
  have hport : ∀ e ∈ b.incoming y, e.inp = 0 := fun e he => by
    obtain ⟨hmem, hdst⟩ := mem_incoming.1 he
    exact hb.inp_of_data hmem (hdst ▸ hn) hop
  have hlt := hb.pairwise_inp_lt y
  rcases hins : b.incoming y with _ | ⟨e, _ | ⟨f, es⟩⟩
  · simp
  · simp
  · rw [hins] at hport hlt
    have he := hport e (by simp)
    have hf := hport f (by simp)
    have := (List.pairwise_cons.1 hlt).1 f (by simp)
    omega

/-- The inputs of two nodes that have as many can be paired, unless the nodes clash. -/
lemma exists_pairInputs_iff (ha : a.WellFormed) (hb : b.WellFormed) {x y : Node}
    (hx : a.node? ids.1 = some x) (hy : b.node? ids.2 = some y)
    (hlen : (a.incoming ids.1).length = (b.incoming ids.2).length) :
    (∃ pairs, a.pairInputs b x.isCommutative (a.incoming ids.1) (b.incoming ids.2) = .ok pairs) ↔
      ¬a.Clash b ids := by
  constructor
  · rintro ⟨pairs, hpairs⟩ ⟨⟨o, ho, hkind⟩, hone, hdata, hone'⟩
    obtain ⟨name, hn⟩ := op?_eq_some.1 ho
    cases hx.symm.trans hn
    obtain ⟨e, he⟩ := List.length_eq_one_iff.1 hone
    obtain ⟨f, hf⟩ := List.length_eq_one_iff.1 hone'
    obtain ⟨hfmem, hfdst⟩ := mem_incoming.1 (hf ▸ List.mem_singleton_self f)
    rw [isCommutative_op.2 hkind, he, hf] at hpairs
    obtain ⟨_, hsigned, -⟩ := bind_eq_ok.1 hpairs
    rw [pairSigned, bind_eq_ok] at hsigned
    obtain ⟨s, -, hsigned⟩ := hsigned
    obtain ⟨taken, htaken, -⟩ := bind_eq_ok.1 hsigned
    rw [takeSigned, bind_eq_ok] at htaken
    obtain ⟨s', hs', -⟩ := htaken
    exact not_signature_of_data hb hfmem (hfdst ▸ hdata) s' hs'
  · intro hclash
    by_cases hc : x.isCommutative = true
    · obtain ⟨o, ho⟩ := op?_of_isCommutative hx hc
      have hleft : ∀ e ∈ a.incoming ids.1, ∃ s, a.signature e = .ok s := fun e he => by
        obtain ⟨he, hdst⟩ := mem_incoming.1 he
        exact ha.exists_signature he (hdst ▸ ho)
      have hright : ∀ f ∈ b.incoming ids.2, ∃ s, b.signature f = .ok s := fun f hf => by
        obtain ⟨hfmem, hfdst⟩ := mem_incoming.1 hf
        obtain ⟨name, p | c⟩ := y
        · exact hb.exists_signature hfmem (hfdst ▸ op?_eq_some.2 ⟨name, hy⟩)
        · -- a data node with an edge into it has just this one, and the nodes clash
          have hdata : (b.fact? ids.2).isSome := by
            rw [fact?_eq_some.2 ⟨name, hy⟩]
            rfl
          have hpos := List.length_pos_of_mem hf
          have hone : (b.incoming ids.2).length = 1 := by
            have := length_incoming_of_data hb hdata
            omega
          obtain ⟨name', hx'⟩ := op?_eq_some.1 ho
          cases hx.symm.trans hx'
          exact absurd ⟨⟨o, ho, isCommutative_op.1 hc⟩, hlen.trans hone, hdata, hone⟩ hclash
      obtain ⟨r, hr⟩ := exists_pairSigned hleft hright
      exact ⟨_, by rw [hc]; exact bind_eq_ok.2 ⟨r, hr, rfl⟩⟩
    · rw [Bool.not_eq_true] at hc
      exact ⟨_, by rw [hc]; rfl⟩

/-- Two nodes can be compared unless they clash. -/
lemma exists_comparePair_iff (ha : a.WellFormed) (hb : b.WellFormed) {x y : Node}
    (hx : a.node? ids.1 = some x) (hy : b.node? ids.2 = some y) :
    (∃ out, a.comparePair b withAttributes ids x y = .ok out) ↔ ¬a.Clash b ids := by
  have hstep : (∃ out, a.comparePair b withAttributes ids x y = .ok out) ↔
      ∃ out, a.compareInputs b x.isCommutative (a.incoming ids.1) (b.incoming ids.2) = .ok out := by
    unfold comparePair
    constructor
    · rintro ⟨out, hout⟩
      obtain ⟨inputs, hinputs, -⟩ := bind_eq_ok.1 hout
      exact ⟨inputs, hinputs⟩
    · rintro ⟨inputs, hinputs⟩
      exact ⟨_, bind_eq_ok.2 ⟨inputs, hinputs, rfl⟩⟩
  rw [hstep]
  by_cases hlen : (a.incoming ids.1).length = (b.incoming ids.2).length
  · rw [← exists_pairInputs_iff ha hb hx hy hlen]
    unfold compareInputs
    rw [if_neg (not_not.2 hlen)]
    constructor
    · rintro ⟨out, hout⟩
      obtain ⟨pairs, hpairs, -⟩ := bind_eq_ok.1 hout
      exact ⟨pairs, hpairs⟩
    · rintro ⟨pairs, hpairs⟩
      exact ⟨_, bind_eq_ok.2 ⟨pairs, hpairs, rfl⟩⟩
  · refine iff_of_true ?_ fun hclash => hlen (hclash.single.trans hclash.produced.symm)
    unfold compareInputs
    rw [if_pos hlen]
    exact ⟨_, rfl⟩

/-! ### The search -/

/-- The pairs that a search from a pair comes to: it goes on from two nodes with as many inputs to
what their inputs come from, pair by pair. -/
inductive Meets (a b : Graph) (start : NodeId × NodeId) : NodeId × NodeId → Prop
  | start : Meets a b start start
  | inputs {ids : NodeId × NodeId} {x : Node} {pairs : List (Edge × Edge)} {p : Edge × Edge} :
      Meets a b start ids → a.node? ids.1 = some x →
      (a.incoming ids.1).length = (b.incoming ids.2).length →
      a.pairInputs b x.isCommutative (a.incoming ids.1) (b.incoming ids.2) = .ok pairs →
      p ∈ pairs → Meets a b start (p.1.src, p.2.src)

lemma mem_next_iff {x y : Node} {findings : List Finding} {next : List (NodeId × NodeId)}
    (h : a.comparePair b withAttributes ids x y = .ok (findings, next)) {q : NodeId × NodeId} :
    q ∈ next ↔ (a.incoming ids.1).length = (b.incoming ids.2).length ∧ ∃ pairs,
      a.pairInputs b x.isCommutative (a.incoming ids.1) (b.incoming ids.2) = .ok pairs ∧
      ∃ p ∈ pairs, (p.1.src, p.2.src) = q := by
  obtain ⟨⟨inputs, next'⟩, hinputs, heq⟩ := bind_eq_ok.1 h
  obtain ⟨-, rfl⟩ := Prod.mk.inj (Except.ok.inj heq)
  unfold compareInputs at hinputs
  split at hinputs
  · next hlen =>
    cases hinputs
    simp [hlen]
  · next hlen =>
    obtain ⟨pairs, hpairs, heq⟩ := bind_eq_ok.1 hinputs
    obtain ⟨-, rfl⟩ := Prod.mk.inj (Except.ok.inj heq)
    simp [not_not.1 hlen, hpairs]

/-- A search that fails has come to a clash. -/
lemma exists_clash (ha : a.WellFormed) (hb : b.WellFormed) {seen queue : List (NodeId × NodeId)}
    {found : List Finding} {e : Error}
    (h : a.comparePairs b withAttributes seen found queue = .error e)
    (hqueue : ∀ ids ∈ queue, a.Meets b start ids ∧ (a.node? ids.1).isSome ∧
      (b.node? ids.2).isSome) :
    ∃ ids, a.Meets b start ids ∧ a.Clash b ids := by
  fun_induction comparePairs a b withAttributes seen found queue with
  | case1 => cases h
  | case2 seen found ids queue hmem ih =>
    exact ih h fun p hp => hqueue p (List.mem_cons_of_mem _ hp)
  | case3 seen found ids queue hmem x y hx hy findings next hstep ih =>
    refine ih h fun p hp => ?_
    rcases List.mem_append.1 hp with hp | hp
    · exact hqueue p (List.mem_cons_of_mem _ hp)
    · obtain ⟨hlen, pairs, hpairs, ⟨e, f⟩, hef, rfl⟩ := (mem_next_iff hstep).1 hp
      have hmeets := (hqueue ids (List.mem_cons_self ..)).1
      obtain ⟨hleft, hright⟩ := pairInputs_perm hlen hpairs
      have he := (mem_incoming.1 (hleft.subset (List.mem_map_of_mem hef))).1
      have hf := (mem_incoming.1 (hright.subset (List.mem_map_of_mem hef))).1
      obtain ⟨_, _, hsrc, -⟩ := ha.ends he
      obtain ⟨_, _, hsrc', -⟩ := hb.ends hf
      exact ⟨.inputs hmeets hx hlen hpairs hef, hsrc ▸ rfl, hsrc' ▸ rfl⟩
  | case4 seen found ids queue hmem x y hx hy e' hstep =>
    refine ⟨ids, (hqueue ids (List.mem_cons_self ..)).1, by_contra fun hclash => ?_⟩
    obtain ⟨out, hout⟩ : ∃ out, a.comparePair b withAttributes ids x y = .ok out :=
      (exists_comparePair_iff ha hb hx hy).2 hclash
    cases hstep.symm.trans hout
  | case5 seen found ids queue hmem hx =>
    have := (hqueue ids (List.mem_cons_self ..)).2.1
    rw [hx] at this
    cases this
  | case6 seen found ids queue hmem hy =>
    have := (hqueue ids (List.mem_cons_self ..)).2.2
    rw [hy] at this
    cases this

/-- A search that succeeds has compared all pairs that it can come to. -/
lemma compared_of_meets {S : List (NodeId × NodeId)} {result : List Finding}
    (hS : ∀ ids ∈ S, a.Compared b withAttributes result S ids) (hstart : start ∈ S)
    (hmeets : a.Meets b start ids) : ids ∈ S := by
  induction hmeets with
  | start => exact hstart
  | inputs _ hx hlen hpairs hp ih =>
    obtain ⟨x', y', findings, next, hx', -, hstep, -, hnext⟩ := hS _ ih
    cases hx.symm.trans hx'
    exact hnext ((mem_next_iff hstep).2 ⟨hlen, _, hpairs, _, hp, rfl⟩)

/-- **Failing comparisons**: a comparison fails exactly when a node of the name is missing or its
search comes to a clash. -/
theorem matchReport_fails_iff (ha : a.WellFormed) (hb : b.WellFormed) {last : String} :
    (∃ e, a.matchReport b last withAttributes = .error e) ↔
      a.find? last = none ∨ b.find? last = none ∨ ∃ x y ids, a.find? last = some x ∧
        b.find? last = some y ∧ a.Meets b (x, y) ids ∧ a.Clash b ids := by
  have hreport : (∃ e, a.matchReport b last withAttributes = .error e) ↔
      ∃ e, a.compare b last withAttributes = .error e := by
    unfold matchReport
    rcases a.compare b last withAttributes with e | found
    · exact iff_of_true ⟨e, rfl⟩ ⟨e, rfl⟩
    · exact iff_of_false (fun ⟨e, he⟩ => by cases he) fun ⟨e, he⟩ => by cases he
  rw [hreport]
  rcases hx : a.find? last with _ | x
  · refine iff_of_true ?_ (.inl rfl)
    rw [compare, nodeId, hx]
    exact ⟨_, rfl⟩
  rcases hy : b.find? last with _ | y
  · refine iff_of_true ?_ (.inr (.inl rfl))
    rw [compare, nodeId_eq_ok.2 hx, ok_bind, nodeId, hy]
    exact ⟨_, rfl⟩
  have hcompare : a.compare b last withAttributes =
      a.comparePairs b withAttributes [] [] [(x, y)] := by
    unfold compare
    rw [nodeId_eq_ok.2 hx, ok_bind, nodeId_eq_ok.2 hy, ok_bind]
  rw [hcompare]
  constructor
  · rintro ⟨e, he⟩
    obtain ⟨m, hm, -⟩ := find?_eq_some.1 hx
    obtain ⟨n, hn, -⟩ := find?_eq_some.1 hy
    have hlive : ∀ ids ∈ [(x, y)], a.Meets b (x, y) ids ∧ (a.node? ids.1).isSome ∧
        (b.node? ids.2).isSome := fun ids hids => by
      rw [List.mem_singleton.1 hids, hm, hn]
      exact ⟨.start, rfl, rfl⟩
    obtain ⟨ids, hmeets, hclash⟩ := exists_clash ha hb he hlive
    exact .inr (.inr ⟨x, y, ids, rfl, rfl, hmeets, hclash⟩)
  · rintro (hnone | hnone | ⟨x', y', ids, hx', hy', hmeets, hclash⟩)
    · cases hnone
    · cases hnone
    cases hx'
    cases hy'
    rcases hfound : a.comparePairs b withAttributes [] [] [(x, y)] with e | found
    · exact ⟨e, rfl⟩
    · -- a search that ends well has compared the nodes that clash
      obtain ⟨-, S, -, hstart, hS⟩ := exists_compared hfound
      have hS : ∀ ids ∈ S, a.Compared b withAttributes found S ids := fun ids hids =>
        (hS ids hids).resolve_left (by simp)
      obtain ⟨m, n, findings, next, hm, hn, hstep, -⟩ :=
        hS ids (compared_of_meets hS (hstart (List.mem_singleton_self _)) hmeets)
      exact absurd hclash ((exists_comparePair_iff ha hb hm hn).1 ⟨_, hstep⟩)

/-- A sum of one input is not told from the data that an operation writes under its name. -/
example :
    let sum : Edit Unit := do
      let x ← Edit.addParameter "x" [2]
      discard (Edit.wire "n" (.ofKind "Add") [x])
    let written : Edit Unit := do
      let op ← Edit.addOp "relu" (.ofKind "Relu")
      let data ← Edit.addData "n" .unknown
      discard (Edit.addEdge op data 0 0)
    ((sum.run ∅).graph.matchReport (written.run ∅).graph "n" false).toOption = none := by
  decide +kernel

end TensorGraph.Graph
