import Mathlib.Data.List.Sort
import TensorGraph.Proofs.Comparisons
import TensorGraph.Proofs.Structure

/-!
Comparison and the order of inputs.

`Exchanged g h e f` says that `h` is `g` with the sources of two edges exchanged. Where both lead
into an operation that does not depend on the order of its inputs, a graph that matches itself
matches the exchanged one as well, if the two inputs can be told apart by their signature, or else
match each other (`matchReport_exchanged`). Nothing deeper than the signature is looked at when
inputs are paired, and two constants of one shape are paired by position
(`matchReport_sumOfConstants`).
-/

namespace TensorGraph

namespace Graph

variable {g h : Graph} {e f : Edge} {x : NodeId} {withAttributes commutative : Bool}

/-- The link of an edge after the sources of `e` and `f` have been exchanged. -/
def exchange (e f d : Edge) : Link :=
  if d = e then { d.toLink with src := f.src }
  else if d = f then { d.toLink with src := e.src } else d.toLink

/-- `e` and `f` are the edges into `x`, and `h` is `g` with their sources exchanged. The edges may
have new numbers. -/
structure Exchanged (g h : Graph) (x : NodeId) (e f : Edge) : Prop where
  inputs : g.incoming x = [e, f]
  node? : ∀ id, h.node? id = g.node? id
  link : ∀ l : Link, (∃ d ∈ h.edges, d.toLink = l) ↔ ∃ d ∈ g.edges, exchange e f d = l

lemma dst_exchange (e f d : Edge) : (exchange e f d).dst = d.dst := by
  unfold exchange
  split_ifs <;> rfl

lemma inp_exchange (e f d : Edge) : (exchange e f d).inp = d.inp := by
  unfold exchange
  split_ifs <;> rfl

lemma exchange_left (hout : e.out = 0) : exchange e f e = ⟨f.src, e.dst, 0, e.inp⟩ := by
  simp [exchange, hout]

lemma exchange_right (hne : e ≠ f) (hout : f.out = 0) :
    exchange e f f = ⟨e.src, f.dst, 0, f.inp⟩ := by
  simp [exchange, hne.symm, hout]

lemma exchange_of_ne {d : Edge} (he : d ≠ e) (hf : d ≠ f) : exchange e f d = d.toLink := by
  rw [exchange, if_neg he, if_neg hf]

/-! ### Inputs in order -/

/-- Inputs come in the order of their ports, so two nodes have the same inputs, seen through a
function of edges that keeps the input port, if they have the same ones in any order. -/
lemma incoming_eq_of_mem_iff (hg : g.WellFormed) (hh : h.WellFormed) {i j : NodeId}
    {m : Edge → Link} (hinp : ∀ d, (m d).inp = d.inp)
    (hmem : ∀ l : Link, (∃ d ∈ h.incoming j, d.toLink = l) ↔ ∃ d ∈ g.incoming i, m d = l) :
    (h.incoming j).map (·.toLink) = (g.incoming i).map m := by
  let before (k l : Link) : Prop := k.inp < l.inp
  have : Std.Irrefl before := ⟨fun k => Nat.lt_irrefl k.inp⟩
  have : Std.Antisymm before := ⟨fun k l h h' => absurd h' (Nat.lt_asymm h)⟩
  refine List.Pairwise.eq_of_mem_iff (r := before) ?_ ?_ fun l => ?_
  · exact List.pairwise_map.2 (hh.pairwise_inp_lt j)
  · refine List.pairwise_map.2 ((hg.pairwise_inp_lt i).imp ?_)
    simp only [before, hinp]
    exact fun hlt => hlt
  · rw [List.mem_map, List.mem_map]
    exact hmem l

/-- The inputs of a node after the exchange are those before it, port for port. -/
lemma Exchanged.incoming (hg : g.WellFormed) (hh : h.WellFormed) (hx : g.Exchanged h x e f)
    (id : NodeId) : (h.incoming id).map (·.toLink) = (g.incoming id).map (exchange e f) := by
  refine incoming_eq_of_mem_iff hg hh (inp_exchange e f) fun l => ?_
  have hl := hx.link l
  simp only [mem_incoming]
  constructor
  · rintro ⟨d, ⟨hd, rfl⟩, rfl⟩
    obtain ⟨c, hc, heq⟩ := hl.1 ⟨d, hd, rfl⟩
    exact ⟨c, ⟨hc, (dst_exchange e f c).symm.trans (congrArg Link.dst heq)⟩, heq⟩
  · rintro ⟨c, ⟨hc, rfl⟩, rfl⟩
    obtain ⟨d, hd, heq⟩ := hl.2 ⟨c, hc, rfl⟩
    exact ⟨d, ⟨hd, (congrArg Link.dst heq).trans (dst_exchange e f c)⟩, heq⟩

lemma Exchanged.left_mem (hx : g.Exchanged h x e f) : e ∈ g.edges ∧ e.dst = x :=
  mem_incoming.1 (hx.inputs ▸ List.mem_cons_self ..)

lemma Exchanged.right_mem (hx : g.Exchanged h x e f) : f ∈ g.edges ∧ f.dst = x :=
  mem_incoming.1 (hx.inputs ▸ List.mem_cons_of_mem _ (List.mem_cons_self ..))

lemma Exchanged.ne (hx : g.Exchanged h x e f) : e ≠ f := by
  have hnodup := g.nodup_incoming x
  rw [hx.inputs] at hnodup
  simpa using hnodup

/-- The exchange does not touch the inputs of other nodes. -/
lemma Exchanged.incoming_of_ne (hg : g.WellFormed) (hh : h.WellFormed) (hx : g.Exchanged h x e f)
    {id : NodeId} (hid : id ≠ x) :
    (h.incoming id).map (·.toLink) = (g.incoming id).map (·.toLink) := by
  rw [hx.incoming hg hh]
  refine List.map_congr_left fun d hd => exchange_of_ne ?_ ?_
  · rintro rfl
    exact hid ((mem_incoming.1 hd).2.symm.trans hx.left_mem.2)
  · rintro rfl
    exact hid ((mem_incoming.1 hd).2.symm.trans hx.right_mem.2)

/-! ### Signatures -/

lemma WellFormed.exists_signature (hg : g.WellFormed) {d : Edge} (hd : d ∈ g.edges) {o : Operation}
    (ho : g.op? d.dst = some o) : ∃ s, g.signature d = .ok s := by
  obtain ⟨f, hf⟩ := ends_of_op_dst hg hd ho
  unfold signature
  rw [fact_eq_ok.2 hf, ok_bind, producer_eq hf, ok_bind]
  rcases hp : (g.incoming d.src).head? with _ | c
  · exact ⟨none, rfl⟩
  · obtain ⟨hc, hdst⟩ := mem_incoming.1 (List.mem_of_mem_head? hp)
    obtain ⟨q, hq⟩ := ends_of_fact_dst hg hc (hdst ▸ hf)
    refine ⟨some (q.kind, f.shape), ?_⟩
    show (do return some ((← g.operation c.src).kind, f.shape) : Except Error _) = _
    rw [operation_eq_ok.2 hq]
    rfl

/-- The exchange keeps signatures: data come from where they came from. -/
lemma Exchanged.signature (hg : g.WellFormed) (hh : h.WellFormed) (hx : g.Exchanged h x e f)
    {d d' : Edge} (hsrc : d'.src = d.src) (hne : d.src ≠ x) :
    h.signature d' = g.signature d := by
  have hnode (id : NodeId) : h.node id = g.node id := by
    unfold node
    rw [hx.node? id]
  have hinputs : h.inputs d.src = g.inputs d.src := by
    have hsources := congrArg (List.map Link.src) (hx.incoming_of_ne hg hh hne)
    rw [List.map_map, List.map_map] at hsources
    rw [Graph.inputs, Graph.inputs, inEdges_eq, inEdges_eq, hnode]
    rcases g.node d.src with _ | n
    · rfl
    · exact congrArg Except.ok hsources
  unfold Graph.signature fact producer operation
  simp only [hsrc, hnode, hinputs]

/-! ### Pairs -/

lemma pairSigned_cons_of_taken {es free free' left rest : List Edge} {pairs : List (Edge × Edge)}
    {s : Option (String × Option Shape)} (he : g.signature e = .ok s)
    (htaken : h.takeSigned s free = .ok (some (f, free')))
    (hrec : g.pairSigned h es free' = .ok (pairs, left, rest)) :
    g.pairSigned h (e :: es) free = .ok ((e, f) :: pairs, left, rest) := by
  rw [pairSigned, he, ok_bind, htaken, ok_bind]
  exact bind_eq_ok.2 ⟨_, hrec, rfl⟩

lemma takeSigned_head {es : List Edge} {s : Option (String × Option Shape)}
    (he : g.signature e = .ok s) : g.takeSigned s (e :: es) = .ok (some (e, es)) := by
  rw [takeSigned, he, ok_bind, if_pos rfl]
  rfl

/-- Inputs with the same signatures one by one are paired in their order. -/
lemma pairInputs_of_forall₂ {es fs : List Edge} (hes : commutative = true →
      List.Forall₂ (fun e f => ∃ s, g.signature e = .ok s ∧ h.signature f = .ok s) es fs) :
    g.pairInputs h commutative es fs = .ok (es.zip fs) := by
  cases commutative with
  | false => rfl
  | true =>
    have hsigned : g.pairSigned h es fs = .ok (es.zip fs, [], []) := by
      replace hes := hes rfl
      induction hes with
      | nil => rfl
      | cons hef _ ih =>
        obtain ⟨s, he, hf⟩ := hef
        exact pairSigned_cons_of_taken he (takeSigned_head hf) ih
    exact bind_eq_ok.2 ⟨_, hsigned, congrArg Except.ok (List.append_nil _)⟩

/-- Two inputs whose signatures come in the other order are paired crosswise. -/
lemma pairInputs_crosswise {d₁ d₂ : Edge} {s t : Option (String × Option Shape)} (hst : s ≠ t)
    (he : g.signature e = .ok s) (hf : g.signature f = .ok t) (h₁ : h.signature d₁ = .ok t)
    (h₂ : h.signature d₂ = .ok s) :
    g.pairInputs h true [e, f] [d₁, d₂] = .ok [(e, d₂), (f, d₁)] := by
  have htaken : h.takeSigned s [d₁, d₂] = .ok (some (d₂, [d₁])) := by
    rw [takeSigned, h₁, ok_bind, if_neg (Ne.symm hst), takeSigned_head h₂]
    rfl
  have hrest : g.pairSigned h [f] [d₁] = .ok ([(f, d₁)], [], []) :=
    pairSigned_cons_of_taken hf (takeSigned_head h₁) rfl
  exact bind_eq_ok.2 ⟨_, pairSigned_cons_of_taken he htaken hrest, rfl⟩

lemma checked_of_pairs {S : List (NodeId × NodeId)} {ids : NodeId × NodeId} {m n : Node}
    (pairs : List (Edge × Edge)) (hm : g.node? ids.1 = some m) (hn : h.node? ids.2 = some n)
    (hown : Content.differences withAttributes m.content n.content = [])
    (hlen : (g.incoming ids.1).length = (h.incoming ids.2).length)
    (hpairs : g.pairInputs h m.isCommutative (g.incoming ids.1) (h.incoming ids.2) = .ok pairs)
    (hports : ∀ p ∈ pairs, portsAgree m.isCommutative p = true)
    (hS : ∀ p ∈ pairs, (p.1.src, p.2.src) ∈ S) : g.Checked h withAttributes S ids := by
  refine ⟨m, n, pairs.map fun p => (p.1.src, p.2.src), hm, hn, ?_, fun q hq => ?_⟩
  · exact comparePair_eq_nil.2 ⟨hown, compareInputs_eq_nil.2 ⟨hlen, pairs, hpairs, hports, rfl⟩⟩
  · obtain ⟨p, hp, rfl⟩ := List.mem_map.1 hq
    exact hS p hp

/-! ### A graph that matches itself -/

lemma op?_of_isCommutative {id : NodeId} {n : Node} (hn : g.node? id = some n)
    (hc : n.isCommutative = true) : ∃ o, g.op? id = some o := by
  obtain ⟨name, o | f⟩ := n
  · exact ⟨o, op?_eq_some.2 ⟨name, hn⟩⟩
  · simp [Node.isCommutative, Node.isOpOf, commutativeKinds] at hc

/-- Where a graph is compared with itself, each input is compared with itself. -/
lemma mem_of_checked_self (hg : g.WellFormed) {S : List (NodeId × NodeId)} {id : NodeId}
    (hid : g.Checked g withAttributes S (id, id)) :
    ∃ n, g.node? id = some n ∧ Content.differences withAttributes n.content n.content = [] ∧
      ∀ d ∈ g.incoming id, (d.src, d.src) ∈ S := by
  obtain ⟨n, n', next, hn, hn', hstep, hnext⟩ := hid
  cases hn.symm.trans hn'
  obtain ⟨hown, hinputs⟩ := comparePair_eq_nil.1 hstep
  obtain ⟨-, pairs, hpairs, -, rfl⟩ := compareInputs_eq_nil.1 hinputs
  have hself : g.pairInputs g n.isCommutative (g.incoming id) (g.incoming id) =
      .ok ((g.incoming id).zip (g.incoming id)) := by
    refine pairInputs_of_forall₂ fun hc => List.forall₂_same.2 fun d hd => ?_
    obtain ⟨o, ho⟩ := op?_of_isCommutative hn hc
    obtain ⟨hmem, hdst⟩ := mem_incoming.1 hd
    obtain ⟨s, hs⟩ := hg.exists_signature hmem (hdst ▸ ho)
    exact ⟨s, hs, hs⟩
  cases hpairs.symm.trans hself
  refine ⟨n, hn, hown, fun d hd => hnext (List.mem_map.2 ⟨(d, d), ?_, rfl⟩)⟩
  rw [List.zip, List.zipWith_self]
  exact List.mem_map.2 ⟨d, hd, rfl⟩

/-- Away from the operation, a node is compared with itself as before. -/
lemma Exchanged.checked_of_ne (hg : g.WellFormed) (hh : h.WellFormed) (hx : g.Exchanged h x e f)
    {p : Operation} (hp : g.op? x = some p) {S T : List (NodeId × NodeId)}
    (hST : ∀ i, (i, i) ∈ S → (i, i) ∈ T) {id : NodeId}
    (hid : g.Checked g withAttributes S (id, id)) (hne : id ≠ x) :
    g.Checked h withAttributes T (id, id) := by
  obtain ⟨n, hn, hown, hS⟩ := mem_of_checked_self hg hid
  have hins : List.Forall₂ (fun d d' => d'.toLink = d.toLink) (g.incoming id) (h.incoming id) := by
    have hlinks := hx.incoming_of_ne hg hh hne
    rw [← List.forall₂_eq_eq_eq, List.forall₂_map_left_iff, List.forall₂_map_right_iff] at hlinks
    exact hlinks.flip
  refine checked_of_pairs _ hn ((hx.node? id).trans hn) hown hins.length_eq
    (pairInputs_of_forall₂ fun hc => ?_) (fun q hq => ?_) (fun q hq => ?_)
  · obtain ⟨o, ho⟩ := op?_of_isCommutative hn hc
    refine List.forall₂_iff_zip.2 ⟨hins.length_eq, fun {d d'} hdd => ?_⟩
    obtain ⟨hmem, hdst⟩ : d ∈ g.edges ∧ d.dst = id := mem_incoming.1 (List.of_mem_zip hdd).1
    obtain ⟨s, hs⟩ := hg.exists_signature hmem (hdst ▸ ho)
    obtain ⟨fact, hfact⟩ := ends_of_op_dst hg hmem (hdst ▸ ho)
    have hsrc := congrArg Link.src ((List.forall₂_iff_zip.1 hins).2 hdd)
    refine ⟨s, hs, (hx.signature hg hh hsrc ?_).trans hs⟩
    rintro rfl
    cases hp.symm.trans (op?_eq_none_of_fact hfact)
  · have hlink := (List.forall₂_iff_zip.1 hins).2 hq
    simp [portsAgree, hlink]
  · have hsrc := congrArg Link.src ((List.forall₂_iff_zip.1 hins).2 hq)
    rw [hsrc]
    exact hST _ (hS _ (List.of_mem_zip hq).1)

/-- At the operation, the inputs are paired with themselves if their signatures differ, and with
each other if these are the same. -/
lemma Exchanged.checked (hg : g.WellFormed) (hh : h.WellFormed) (hx : g.Exchanged h x e f)
    {n : Node} (hn : g.node? x = some n) (hc : n.isCommutative = true)
    {S T : List (NodeId × NodeId)} (hST : ∀ i, (i, i) ∈ S → (i, i) ∈ T)
    (hcross : g.signature e = g.signature f →
      e.src = f.src ∨ (e.src, f.src) ∈ T ∧ (f.src, e.src) ∈ T)
    (hid : g.Checked g withAttributes S (x, x)) : g.Checked h withAttributes T (x, x) := by
  obtain ⟨_, hn', hown, hS⟩ := mem_of_checked_self hg hid
  cases hn.symm.trans hn'
  obtain ⟨o, ho⟩ := op?_of_isCommutative hn hc
  obtain ⟨he, hedst⟩ := hx.left_mem
  obtain ⟨hf, hfdst⟩ := hx.right_mem
  -- the inputs are data, which `x` is not, and leave them by the one port they have
  have hdata {d : Edge} (hd : d ∈ g.edges) (hdst : d.dst = x) : d.src ≠ x ∧ d.out = 0 := by
    obtain ⟨fact, hfact⟩ := ends_of_op_dst hg hd (hdst ▸ ho)
    refine ⟨fun hsrc => ?_, ?_⟩
    · cases ho.symm.trans (op?_eq_none_of_fact (hsrc ▸ hfact))
    · obtain ⟨name, hname⟩ := fact?_eq_some.1 hfact
      exact hg.out_of_data hd hname rfl
  obtain ⟨d₁, d₂, hins, h₁, h₂⟩ : ∃ d₁ d₂, h.incoming x = [d₁, d₂] ∧
      d₁.toLink = { e.toLink with src := f.src } ∧ d₂.toLink = { f.toLink with src := e.src } := by
    have hlinks := hx.incoming hg hh x
    rw [hx.inputs, List.map_cons, List.map_singleton, exchange, exchange, if_pos rfl,
      if_neg hx.ne.symm, if_pos rfl] at hlinks
    obtain ⟨d₁, l, hl, h₁, hlinks⟩ := List.map_eq_cons_iff.1 hlinks
    obtain ⟨d₂, rfl, h₂⟩ := List.map_eq_singleton_iff.1 hlinks
    exact ⟨d₁, d₂, hl, h₁, h₂⟩
  have hsrc₁ : d₁.src = f.src := by rw [h₁]
  have hsrc₂ : d₂.src = e.src := by rw [h₂]
  have hout {d d' : Edge} (hd : d ∈ [e, f]) (hd' : d' ∈ [d₁, d₂]) :
      portsAgree true (d, d') = true := by
    have hzero : ∀ c ∈ [e, f], c.out = 0 := by
      simp [(hdata he hedst).2, (hdata hf hfdst).2]
    have hzero' : ∀ c ∈ [d₁, d₂], c.out = 0 := by
      simp [h₁, h₂, (hdata he hedst).2, (hdata hf hfdst).2]
    simp [portsAgree, hzero d hd, hzero' d' hd']
  obtain ⟨s, hs⟩ := hg.exists_signature he (hedst ▸ ho)
  obtain ⟨t, ht⟩ := hg.exists_signature hf (hfdst ▸ ho)
  have ht₁ := (hx.signature hg hh hsrc₁ (hdata hf hfdst).1).trans ht
  have hs₂ := (hx.signature hg hh hsrc₂ (hdata he hedst).1).trans hs
  rw [hx.inputs] at hS
  by_cases hst : s = t
  · obtain ⟨hef, hfe⟩ : (e.src, f.src) ∈ T ∧ (f.src, e.src) ∈ T := by
      rcases hcross (by rw [hs, ht, hst]) with hsame | hcross
      · have hee := hST e.src (hS e (by simp))
        exact ⟨hsame ▸ hee, hsame ▸ hee⟩
      · exact hcross
    refine checked_of_pairs [(e, d₁), (f, d₂)] hn ((hx.node? x).trans hn) hown ?_ ?_
      ?_ ?_
    · rw [hx.inputs, hins]
      rfl
    · rw [hc, hx.inputs, hins]
      refine pairInputs_of_forall₂ fun _ => ?_
      exact .cons ⟨t, hst ▸ hs, ht₁⟩ (.cons ⟨s, hst ▸ ht, hs₂⟩ .nil)
    · rw [hc]
      simp [hout]
    · simp [hsrc₁, hsrc₂, hef, hfe]
  · refine checked_of_pairs [(e, d₂), (f, d₁)] hn ((hx.node? x).trans hn) hown ?_ ?_
      ?_ ?_
    · rw [hx.inputs, hins]
      rfl
    · rw [hc, hx.inputs, hins]
      exact pairInputs_crosswise hst hs ht ht₁ hs₂
    · rw [hc]
      simp [hout]
    · simp [hsrc₁, hsrc₂, hST e.src (hS e (by simp)), hST f.src (hS f (by simp))]

/-- **The order of inputs**: if a graph matches itself, it matches the graph in which the two inputs
of an operation that does not depend on their order are exchanged, provided that the two inputs
have different signatures, or are the same, or that the search finds no difference between each of
them and the other one after the exchange. -/
theorem matchReport_exchanged (hg : g.WellFormed) (hh : h.WellFormed)
    (hx : g.Exchanged h x e f) {n : Node} (hn : g.node? x = some n) (hc : n.isCommutative = true)
    (hcross : g.signature e = g.signature f → e.src = f.src ∨
      g.comparePairs h withAttributes [] [] [(e.src, f.src), (f.src, e.src)] = .ok [])
    {last text : String} (hself : g.matchReport g last withAttributes = .ok (true, text)) :
    g.matchReport h last withAttributes = .ok (true, "") := by
  obtain ⟨found, hfound, heq⟩ := bind_eq_ok.1 hself
  obtain ⟨hnone, -⟩ := Prod.mk.inj (Except.ok.inj heq)
  rw [List.isEmpty_iff] at hnone
  subst hnone
  obtain ⟨i, hi, hfound⟩ := bind_eq_ok.1 hfound
  obtain ⟨_, hi', hfound⟩ := bind_eq_ok.1 hfound
  cases hi.symm.trans hi'
  obtain ⟨-, S, -, hlast, hS⟩ := exists_checked hfound
  obtain ⟨o, ho⟩ := op?_of_isCommutative hn hc
  -- the pairs that the inputs lead to where they are compared with each other
  obtain ⟨C, hC, hcrossed⟩ : ∃ C, (∀ ids ∈ C, g.Checked h withAttributes C ids) ∧
      (g.signature e = g.signature f → e.src = f.src ∨ (e.src, f.src) ∈ C ∧
        (f.src, e.src) ∈ C) := by
    by_cases hsig : g.signature e = g.signature f
    · rcases hcross hsig with hsame | hfound
      · exact ⟨[], by simp, fun _ => .inl hsame⟩
      · obtain ⟨-, C, -, hqueue, hC⟩ := exists_checked hfound
        refine ⟨C, fun ids hids => (hC ids hids).resolve_left (by simp), fun _ => .inr ?_⟩
        simpa using hqueue
    · exact ⟨[], by simp, fun h => absurd h hsig⟩
  let T := S.filter (fun p => p.1 = p.2) ++ C
  have hST (j : NodeId) (hj : (j, j) ∈ S) : (j, j) ∈ T :=
    List.mem_append_left _ (List.mem_filter.2 ⟨hj, by simp⟩)
  have hT : ∀ ids ∈ T, g.Checked h withAttributes T ids := by
    intro ids hids
    rcases List.mem_append.1 hids with hids | hids
    · obtain ⟨hmem, heq⟩ := List.mem_filter.1 hids
      obtain ⟨j, k⟩ := ids
      obtain rfl : j = k := by simpa using heq
      have hj := (hS _ hmem).resolve_left (by simp)
      by_cases hjx : j = x
      · subst hjx
        refine hx.checked hg hh hn hc hST (fun hsig => (hcrossed hsig).imp id ?_) hj
        exact fun h => ⟨List.mem_append_right _ h.1, List.mem_append_right _ h.2⟩
      · exact hx.checked_of_ne hg hh ho hST hj hjx
    · exact (hC ids hids).mono (List.subset_append_right _ _)
  have hlast' : h.nodeId last = .ok i := by
    obtain ⟨m, hm, hname⟩ := find?_eq_some.1 (nodeId_eq_ok.1 hi)
    exact nodeId_eq_ok.2 (find?_eq_some.2 ⟨m, (hx.node? i).trans hm, hname⟩)
  have hcompare : g.compare h last withAttributes = .ok [] := by
    refine bind_eq_ok.2 ⟨i, hi, bind_eq_ok.2 ⟨i, hlast', comparePairs_of_checked hT ?_⟩⟩
    simpa using hST i (hlast (List.mem_cons_self ..))
  exact bind_eq_ok.2 ⟨[], hcompare, rfl⟩

end Graph

/-! ### Exchanging inputs by rewiring them -/

namespace Edit

open TensorGraph.Graph

variable {g h : Graph} {e f : Edge} {x : NodeId}

/-- Exchanges the data that two edges bring into operations. -/
def exchangeInputs (e f : Edge) : Edit Unit := do
  rewireInput e.dst e.inp f.src
  rewireInput f.dst f.inp e.src

/-- Rewiring both input ports of an operation exchanges its inputs. -/
lemma exchanged_of_gives (hg : g.WellFormed) (hins : g.incoming x = [e, f]) {o : Operation}
    (ho : g.op? x = some o) (hx : Gives (exchangeInputs e f) g () h) :
    h.WellFormed ∧ g.Exchanged h x e f := by
  obtain ⟨_, g₁, hx₁, hx₂⟩ := gives_bind.1 hx
  have hg₁ : g₁.WellFormed := hx₁.keeps (keeps_rewireInput _ _ _) hg
  obtain ⟨he, hedst⟩ := mem_incoming.1 (hins ▸ List.mem_cons_self : e ∈ g.incoming x)
  obtain ⟨hf, hfdst⟩ := mem_incoming.1 (hins ▸ by simp : f ∈ g.incoming x)
  have hne : e ≠ f := by
    have hnodup := g.nodup_incoming x
    rw [hins] at hnodup
    simpa using hnodup
  have hout {d : Edge} (hd : d ∈ g.edges) (hdst : d.dst = x) : d.out = 0 := by
    obtain ⟨fact, hfact⟩ := ends_of_op_dst hg hd (hdst ▸ ho)
    obtain ⟨name, hname⟩ := fact?_eq_some.1 hfact
    exact hg.out_of_data hd hname rfl
  obtain ⟨hnodes₁, i, hedges₁⟩ := gives_rewireInput hg he hx₁
  obtain ⟨hnodes₂, j, hedges₂⟩ := gives_rewireInput hg₁ ((hedges₁ f).2 (.inl ⟨hf, hne.symm⟩)) hx₂
  refine ⟨hx₂.keeps (keeps_rewireInput _ _ _) hg₁, hins, fun id => ?_, fun l => ⟨?_, ?_⟩⟩
  · exact congrFun (Graph.node?_congr (hnodes₂.trans hnodes₁)) id
  · rintro ⟨d, hd, rfl⟩
    rcases (hedges₂ d).1 hd with ⟨hd, hdf⟩ | rfl
    · rcases (hedges₁ d).1 hd with ⟨hd, hde⟩ | rfl
      · exact ⟨d, hd, exchange_of_ne hde hdf⟩
      · exact ⟨e, he, exchange_left (hout he hedst)⟩
    · exact ⟨f, hf, exchange_right hne (hout hf hfdst)⟩
  · rintro ⟨d, hd, rfl⟩
    by_cases hde : d = e
    · subst hde
      refine ⟨_, (hedges₂ _).2 (.inl ⟨(hedges₁ _).2 (.inr rfl), fun h => hne ?_⟩), ?_⟩
      · exact hg.inp_unique he hf (hedst.trans hfdst.symm) (congrArg (fun c => c.inp) h)
      · exact (exchange_left (hout hd hedst)).symm
    · by_cases hdf : d = f
      · subst hdf
        exact ⟨_, (hedges₂ _).2 (.inr rfl), (exchange_right hne (hout hd hfdst)).symm⟩
      · refine ⟨d, (hedges₂ d).2 (.inl ⟨(hedges₁ d).2 (.inl ⟨hd, hde⟩), hdf⟩), ?_⟩
        exact (exchange_of_ne hde hdf).symm

lemma exchanged_of_run (hg : g.WellFormed) (hins : g.incoming x = [e, f])
    (ho : (g.op? x).isSome) (hrun : ((exchangeInputs e f).run g).result.toOption = some ()) :
    ((exchangeInputs e f).run g).graph.WellFormed ∧
      g.Exchanged ((exchangeInputs e f).run g).graph x e f := by
  obtain ⟨o, ho⟩ := Option.isSome_iff_exists.1 ho
  exact exchanged_of_gives hg hins ho ⟨toOption_eq_some.1 hrun, rfl⟩

end Edit

/-! ### Inputs that can be told apart, and inputs that cannot -/

open Edit

/-- The parameter is matched with the parameter and the constant with the constant. -/
theorem matchReport_exchanged_orderedSum :
    let g := ((orderedSum false).run ∅).graph
    let e : Edge := { src := ⟨1⟩, dst := ⟨4⟩, out := 0, inp := 0, id := ⟨3⟩ }
    let f : Edge := { src := ⟨3⟩, dst := ⟨4⟩, out := 0, inp := 1, id := ⟨4⟩ }
    let h := ((exchangeInputs e f).run g).graph
    g.Exchanged h ⟨4⟩ e f ∧ g.matchReport h "out" true = .ok (true, "") := by
  intro g e f h
  have hg : g.WellFormed := by decide +kernel
  obtain ⟨hh, hx⟩ := exchanged_of_run hg (x := ⟨4⟩) (e := e) (f := f) (by decide +kernel)
    (by decide +kernel) (by decide +kernel)
  obtain ⟨n, hn, hc⟩ : ∃ n, g.node? ⟨4⟩ = some n ∧ n.isCommutative = true :=
    Option.map_eq_some_iff.1 (by decide +kernel)
  have hself : g.matchReport g "out" true = .ok (true, "") :=
    toOption_eq_some.1 (by decide +kernel)
  refine ⟨hx, Graph.matchReport_exchanged hg hh hx hn hc (fun hsig => ?_) hself⟩
  exact absurd (congrArg Except.toOption hsig) (by decide +kernel)

/-- The sum of two constants of one shape. -/
def sumOfConstants : Edit Unit := do
  let a ← addConst "a" (.i64 (.vector [1, 2]))
  let b ← addConst "b" (.i64 (.vector [3, 4]))
  let sum ← wire "sum" (.ofKind "Add") [a, b]
  discard (addResult "out" sum)

/-- The signature does not tell the constants apart, and each is compared with the other. -/
theorem matchReport_sumOfConstants :
    let g := (sumOfConstants.run ∅).graph
    let e : Edge := { src := ⟨1⟩, dst := ⟨4⟩, out := 0, inp := 0, id := ⟨3⟩ }
    let f : Edge := { src := ⟨3⟩, dst := ⟨4⟩, out := 0, inp := 1, id := ⟨4⟩ }
    let h := ((exchangeInputs e f).run g).graph
    (g.WellFormed ∧ h.WellFormed ∧ g.Exchanged h ⟨4⟩ e f ∧
      ∃ n, g.node? ⟨4⟩ = some n ∧ n.isCommutative = true) ∧
    g.matchReport g "out" true = .ok (true, "") ∧
    ∃ text, g.matchReport h "out" true = .ok (false, text) := by
  intro g e f h
  have hg : g.WellFormed := by decide +kernel
  obtain ⟨hh, hx⟩ := exchanged_of_run hg (x := ⟨4⟩) (e := e) (f := f) (by decide +kernel)
    (by decide +kernel) (by decide +kernel)
  refine ⟨⟨hg, hh, hx, Option.map_eq_some_iff.1 (by decide +kernel)⟩,
    toOption_eq_some.1 (by decide +kernel), ?_⟩
  obtain ⟨⟨same, text⟩, hreport, hsame⟩ :
      ∃ r, (g.matchReport h "out" true).toOption = some r ∧ r.1 = false :=
    Option.map_eq_some_iff.1 (by decide +kernel)
  exact ⟨text, hsame ▸ toOption_eq_some.1 hreport⟩

end TensorGraph
