import TensorGraph.Proofs.Successes

/-!
Merging and splitting data nodes.

Consumers are moved one edge at a time, and each port is free again when its edge is moved. So data
nodes that differ can be merged, and then one of them feeds what both fed (`mergeData_merges`); and
a data node can be split along any of its edges. Which port an edge leads to and where it comes from
is all there is to an edge out of data, so merging undoes a split up to the numbers of edges
(`mergeData_undoes_splitData`).
-/

namespace TensorGraph

open Edit

/-- The operation that an edge leads to, and the input port. -/
def Edge.target (e : Edge) : NodeId × Nat := (e.dst, e.inp)

namespace Graph

variable {g h k : Graph} {d keep drop copy : NodeId} {l : List Edge} {e e' : Edge} {f f' : Fact}
  {p : NodeId × Nat} {name : String} {ids : List EdgeId}

/-! ### What data feeds -/

/-- The operations that read a data node, with the input ports. -/
def fed (g : Graph) (d : NodeId) : List (NodeId × Nat) := (g.outgoing d).map Edge.target

lemma mem_fed : p ∈ g.fed d ↔ ∃ e ∈ g.edges, e.src = d ∧ e.target = p := by
  simp only [fed, List.mem_map, mem_outgoing, and_assoc]

namespace WellFormed

lemma eq_of_target (hg : g.WellFormed) (he : e ∈ g.edges) (he' : e' ∈ g.edges)
    (ht : e.target = e'.target) : e = e' :=
  hg.inp_unique he he' (congrArg Prod.fst ht) (congrArg Prod.snd ht)

lemma nodup_fed (hg : g.WellFormed) (d : NodeId) : (g.fed d).Nodup :=
  (g.nodup_outgoing d).map_on fun _ he _ he' =>
    hg.eq_of_target (mem_outgoing.1 he).1 (mem_outgoing.1 he').1

lemma disjoint_fed (hg : g.WellFormed) (hne : keep ≠ drop) :
    (g.fed keep).Disjoint (g.fed drop) := by
  intro p hp hp'
  obtain ⟨e, he, rfl, rfl⟩ := mem_fed.1 hp
  obtain ⟨e', he', rfl, ht⟩ := mem_fed.1 hp'
  exact hne (congrArg (·.src) (hg.eq_of_target he he' ht.symm))

lemma nodup_links (hg : g.WellFormed) : (g.edges.map (·.toLink)).Nodup :=
  g.nodup_edges.map_on fun _ he _ he' hl =>
    hg.eq_of_target he he' (Prod.ext (congrArg Link.dst hl) (congrArg Link.inp hl))

lemma out_eq_zero (hg : g.WellFormed) (he : e ∈ g.edges) (hf : g.fact? e.src = some f) :
    e.out = 0 := by
  obtain ⟨name, hn⟩ := fact?_eq_some.1 hf
  exact hg.out_of_data he hn rfl

/-- Data does not feed data. -/
lemma dst_ne (hg : g.WellFormed) (he : e ∈ g.edges) (hf : g.fact? e.src = some f)
    (hd : g.fact? d = some f') : e.dst ≠ d := by
  rintro rfl
  obtain ⟨o, ho⟩ := ends_of_fact_src hg he hf
  cases (fact?_eq_none_of_op ho).symm.trans hd

/-- Data that feeds the port that an edge out of it leads to elsewhere is connected the same way. -/
lemma mem_links_of_fed (hg : g.WellFormed) (hh : h.WellFormed) (he : e ∈ g.edges)
    (hf : g.fact? e.src = some f) (hf' : h.fact? e.src = some f') (ht : e.target ∈ h.fed e.src) :
    e.toLink ∈ h.edges.map (·.toLink) := by
  obtain ⟨c, hc, hsrc, ht⟩ := mem_fed.1 ht
  obtain ⟨hdst, hinp⟩ := Prod.mk.inj ht
  have hout : c.out = e.out :=
    (hh.out_eq_zero hc (hsrc ▸ hf')).trans (hg.out_eq_zero he hf).symm
  have hlink : c.toLink = e.toLink := by
    show Link.mk c.src c.dst c.out c.inp = Link.mk e.src e.dst e.out e.inp
    rw [hsrc, hdst, hout, hinp]
  exact List.mem_map.2 ⟨c, hc, hlink⟩

end WellFormed

/-! ### Consumers that are moved -/

namespace Moved

variable (hm : g.Moved h keep l)

include hm

lemma mem_fed_keep (hl : ∀ c ∈ l, c.src ≠ keep) :
    p ∈ h.fed keep ↔ p ∈ g.fed keep ∨ p ∈ l.map Edge.target := by
  rw [mem_fed, mem_fed, List.mem_map]
  constructor
  · rintro ⟨e, he, hsrc, rfl⟩
    rcases hm.old e he with ⟨he, -⟩ | ⟨-, c, hc, hdst, hinp⟩
    · exact .inl ⟨e, he, hsrc, rfl⟩
    · exact .inr ⟨c, hc, Prod.ext hdst hinp⟩
  · rintro (⟨e, he, hsrc, rfl⟩ | ⟨c, hc, rfl⟩)
    · exact ⟨e, hm.stays e he fun hmem => hl e hmem hsrc, hsrc, rfl⟩
    · obtain ⟨e, he, hsrc, hdst, hinp⟩ := hm.moved c hc
      exact ⟨e, he, hsrc, Prod.ext hdst hinp⟩

/-- Edges that do not leave `keep` are old. -/
lemma mem_edges_of_ne (hsrc : e.src ≠ keep) : e ∈ h.edges ↔ e ∈ g.edges ∧ e ∉ l :=
  ⟨fun he => (hm.old e he).resolve_right fun hnew => hsrc hnew.1,
    fun he => hm.stays e he.1 he.2⟩

/-- Moving edges leads none to a node that none led to. -/
lemma incoming_eq_nil (hl : ∀ c ∈ l, c ∈ g.edges) (hd : ∀ e ∈ g.edges, e.dst ≠ d) :
    h.incoming d = [] := by
  refine List.eq_nil_iff_forall_not_mem.2 fun e he => ?_
  obtain ⟨he, hdst⟩ := mem_incoming.1 he
  rcases hm.old e he with ⟨he, -⟩ | ⟨-, c, hc, hcdst, -⟩
  · exact hd e he hdst
  · exact hd c (hl c hc) (hcdst.trans hdst)

end Moved

/-! ### What a merge leaves -/

/-- What is left when `drop` was merged into `keep`: the node is gone with its edges, `keep` feeds
what both fed, and all else is as it was. -/
structure MergedInto (g h : Graph) (keep drop : NodeId) : Prop where
  gone : h.node? drop = none
  cut : ∀ e ∈ h.edges, e.src ≠ drop ∧ e.dst ≠ drop
  node? : ∀ j, j ≠ drop → h.node? j = g.node? j
  fed : (h.fed keep).Perm (g.fed keep ++ g.fed drop)
  disjoint : (g.fed keep ++ g.fed drop).Nodup
  stays : ∀ e ∈ g.edges, e.src ≠ drop → e.dst ≠ drop → e ∈ h.edges
  old : ∀ e ∈ h.edges, e ∈ g.edges ∨ e.src = keep ∧ e.out = 0 ∧ e.target ∈ g.fed drop
  producer : ∀ op, g.producer drop = .ok (some op) →
    ∀ e, e.src = op → (e ∈ h.edges ↔ e ∈ g.edges ∧ e.dst ≠ drop)

lemma producer_eq_some (hf : g.fact? d = some f) {op : NodeId}
    (hop : g.producer d = .ok (some op)) : ∃ e ∈ g.edges, e.src = op ∧ e.dst = d := by
  rw [producer_eq hf, Except.ok.injEq, Option.map_eq_some_iff] at hop
  obtain ⟨e, he, rfl⟩ := hop
  obtain ⟨he, hdst⟩ := mem_incoming.1 (List.mem_of_head? he)
  exact ⟨e, he, rfl, hdst⟩

section

variable (hg : g.WellFormed) (hkeep : g.fact? keep = some f) (hdrop : g.fact? drop = some f')
  (hm : g.Moved k keep (g.outgoing drop)) (hw : k.Without h [drop]) (hne : keep ≠ drop)

include hg hkeep hdrop hm hw

/-- What wrote `drop` keeps its other outputs, as no operation is one of the two data nodes. -/
lemma mem_edges_of_producer {op : NodeId} (hop : g.producer drop = .ok (some op))
    (he : e.src = op) : e ∈ h.edges ↔ e ∈ g.edges ∧ e.dst ≠ drop := by
  obtain ⟨c, hc, hcsrc, hcdst⟩ := producer_eq_some hdrop hop
  obtain ⟨o, ho⟩ := ends_of_fact_dst hg hc (hcdst ▸ hdrop)
  rw [hcsrc, ← he] at ho
  have hdata {j : NodeId} {f : Fact} (hj : g.fact? j = some f) : e.src ≠ j := fun heq => by
    cases (fact?_eq_none_of_op ho).symm.trans (heq ▸ hj)
  have hnot : e ∉ g.outgoing drop := fun hmem => hdata hdrop (mem_outgoing.1 hmem).2
  rw [hw.mem_edges, hm.mem_edges_of_ne (hdata hkeep), and_iff_left hnot,
    and_iff_right (hdata hdrop)]

include hne

/-- Neither the edges that `keep` had nor those it gets are lost with `drop`. -/
lemma mem_fed_of_moved : p ∈ h.fed keep ↔ p ∈ g.fed keep ++ g.fed drop := by
  have hsrc : ∀ c ∈ g.outgoing drop, c.src ≠ keep := fun c hc heq =>
    hne (heq.symm.trans (mem_outgoing.1 hc).2)
  rw [List.mem_append]
  refine Iff.trans ?_ (hm.mem_fed_keep hsrc)
  rw [mem_fed, mem_fed]
  refine exists_congr fun e => ⟨fun he => ⟨(hw.mem_edges.1 he.1).1, he.2⟩, fun he => ?_⟩
  refine ⟨hw.mem_edges.2 ⟨he.1, he.2.1 ▸ hne, ?_⟩, he.2⟩
  rcases hm.old e he.1 with ⟨hold, -⟩ | ⟨-, c, hc, hdst, -⟩
  · exact hg.dst_ne hold (he.2.1 ▸ hkeep) hdrop
  · obtain ⟨hc, hcsrc⟩ := mem_outgoing.1 hc
    exact hdst ▸ hg.dst_ne hc (hcsrc ▸ hdrop) hdrop

lemma mergedInto (hh : h.WellFormed) : g.MergedInto h keep drop where
  gone := by rw [hw.node?, if_pos (List.mem_singleton_self _)]
  cut e he := (hw.mem_edges.1 he).2
  node? j hj := (hw.node?_of_ne hj).trans (hm.node?_eq j)
  fed := (List.perm_ext_iff_of_nodup (hh.nodup_fed keep)
    ((hg.nodup_fed keep).append (hg.nodup_fed drop) (hg.disjoint_fed hne))).2
    fun _ => mem_fed_of_moved hg hkeep hdrop hm hw hne
  disjoint := (hg.nodup_fed keep).append (hg.nodup_fed drop) (hg.disjoint_fed hne)
  stays e he h₁ h₂ := hw.mem_edges.2
    ⟨hm.stays e he fun hmem => h₁ (mem_outgoing.1 hmem).2, h₁, h₂⟩
  old e he := by
    rcases hm.old e (hw.mem_edges.1 he).1 with ⟨he, -⟩ | ⟨hsrc, c, hc, hdst, hinp⟩
    · exact .inl he
    · have hdata : h.fact? e.src = some f := by
        rw [hsrc, fact?, hw.node?_of_ne hne, hm.node?_eq]
        exact hkeep
      exact .inr ⟨hsrc, hh.out_eq_zero he hdata, List.mem_map.2 ⟨c, hc, Prod.ext hdst hinp⟩⟩
  producer op hop e he := mem_edges_of_producer hg hkeep hdrop hm hw hop he

end

/-! ### What a split leaves -/

/-- `h` is `g` with a new node. -/
structure Grown (g h : Graph) (id : NodeId) (n : Node) : Prop where
  fresh : g.node? id = none
  node? : ∀ j, h.node? j = if j = id then some n else g.node? j
  edges : h.edges = g.edges

/-- What is left when a copy of `d` was made and edges of `d` were moved to it: the copy is new,
holds what `d` holds and has no producer, and each of the two feeds its part of what `d` fed. -/
structure SplitOff (g h : Graph) (d copy : NodeId) (name : String) (ids : List EdgeId) : Prop where
  fresh : g.node? copy = none
  named : ∃ n, h.node? copy = some n ∧ n.name = name
  fact : h.fact? copy = g.fact? d
  producer : h.producer copy = .ok none
  node? : ∀ j, j ≠ copy → h.node? j = g.node? j
  moved : (h.fed copy).Perm (((g.outgoing d).filter (·.id ∈ ids)).map Edge.target)
  kept : (h.fed d).Perm (((g.outgoing d).filter (·.id ∉ ids)).map Edge.target)
  edges : ∀ e, e.src ≠ copy → (e ∈ h.edges ↔ e ∈ g.edges ∧ e.id ∉ ids)
  out : ∀ e ∈ h.edges, e.src = copy → e.out = 0

lemma WellFormed.ne_of_fresh (hg : g.WellFormed) (hfresh : g.node? d = none) (he : e ∈ g.edges) :
    e.src ≠ d ∧ e.dst ≠ d := by
  obtain ⟨s, t, hs, ht, -⟩ := hg.ends he
  constructor
  · rintro rfl
    cases hfresh.symm.trans hs
  · rintro rfl
    cases hfresh.symm.trans ht

lemma ne_of_fresh_of_fact (hfresh : g.node? copy = none) (hd : g.fact? d = some f) : d ≠ copy := by
  rintro rfl
  rw [fact?, hfresh] at hd
  cases hd

lemma Grown.op?_of_ne {id : NodeId} {n : Node} (hn : g.Grown h id n) (hne : d ≠ id) :
    h.op? d = g.op? d := by
  rw [op?, hn.node?, if_neg hne]
  rfl

/-- A listing of ports without repetitions has those of some edges out of `d` when it has the same
members. -/
lemma WellFormed.perm_filter_fed (hg : g.WellFormed) {ps : List (NodeId × Nat)} (hps : ps.Nodup)
    {q : Edge → Bool} (hmem : ∀ p, p ∈ ps ↔ ∃ e ∈ g.edges, (e.src = d ∧ q e) ∧ e.target = p) :
    ps.Perm (((g.outgoing d).filter q).map Edge.target) := by
  have hnodup : (((g.outgoing d).filter q).map Edge.target).Nodup :=
    ((List.filter_sublist (p := q)).map _).nodup (hg.nodup_fed d)
  refine (List.perm_ext_iff_of_nodup hps hnodup).2 fun p => (hmem p).trans ?_
  simp only [List.mem_map, List.mem_filter, mem_outgoing, and_assoc]

section

variable {j : Graph} (hg : g.WellFormed) (hd : g.fact? d = some f)
  (hj : g.Grown j copy ⟨name, .data f⟩) (hl : ∀ e, e ∈ l ↔ e ∈ g.edges ∧ e.id ∈ ids)
  (hsrc : ∀ e ∈ l, e.src = d) (hm : j.Moved h copy l)

include hj hl hm

lemma mem_edges_of_moved (hcopy : e.src ≠ copy) : e ∈ h.edges ↔ e ∈ g.edges ∧ e.id ∉ ids := by
  rw [hm.mem_edges_of_ne hcopy, hl, hj.edges]
  exact and_congr_right fun hmem => not_congr (and_iff_right hmem)

include hg hd hsrc

lemma perm_fed_copy (hh : h.WellFormed) :
    (h.fed copy).Perm (((g.outgoing d).filter (·.id ∈ ids)).map Edge.target) := by
  refine hg.perm_filter_fed (hh.nodup_fed copy) fun p => ?_
  have hnone : p ∉ j.fed copy := fun hp => by
    obtain ⟨e, he, hcopy, -⟩ := mem_fed.1 hp
    exact (hg.ne_of_fresh hj.fresh (hj.edges ▸ he)).1 hcopy
  rw [hm.mem_fed_keep fun c hc => (hsrc c hc).symm ▸ ne_of_fresh_of_fact hj.fresh hd,
    or_iff_right hnone, List.mem_map]
  refine exists_congr fun e => ⟨fun ⟨he, hp⟩ => ?_, fun ⟨he, ⟨_, hid⟩, hp⟩ => ?_⟩
  · exact ⟨((hl e).1 he).1, ⟨hsrc e he, decide_eq_true ((hl e).1 he).2⟩, hp⟩
  · exact ⟨(hl e).2 ⟨he, of_decide_eq_true hid⟩, hp⟩

lemma splitOff (hh : h.WellFormed) : g.SplitOff h d copy name ids := by
  have hnew : h.node? copy = some ⟨name, .data f⟩ :=
    (hm.node?_eq copy).trans ((hj.node? copy).trans (if_pos rfl))
  have hfact : h.fact? copy = some f := fact?_eq_some.2 ⟨name, hnew⟩
  have hne := ne_of_fresh_of_fact hj.fresh hd
  have hedges (e : Edge) := mem_edges_of_moved (e := e) hj hl hm
  refine ⟨hj.fresh, ⟨_, hnew, rfl⟩, hfact.trans hd.symm, ?_, fun i hi => ?_,
    perm_fed_copy hg hd hj hl hsrc hm hh, ?_, hedges,
    fun e he hcopy => hh.out_eq_zero he (hcopy ▸ hfact)⟩
  · rw [producer_eq hfact, hm.incoming_eq_nil (fun c hc => hj.edges ▸ ((hl c).1 hc).1) fun e he =>
      (hg.ne_of_fresh hj.fresh (hj.edges ▸ he)).2]
    rfl
  · exact (hm.node?_eq i).trans ((hj.node? i).trans (if_neg hi))
  · refine hg.perm_filter_fed (hh.nodup_fed d) fun p => mem_fed.trans (exists_congr fun e => ?_)
    refine ⟨fun ⟨he, hed, hp⟩ => ?_, fun ⟨he, ⟨hed, hid⟩, hp⟩ => ?_⟩
    · obtain ⟨he, hid⟩ := (hedges e (hed ▸ hne)).1 he
      exact ⟨he, ⟨hed, decide_eq_true hid⟩, hp⟩
    · exact ⟨(hedges e (hed ▸ hne)).2 ⟨he, of_decide_eq_true hid⟩, hed, hp⟩

end

/-- Merging the copy again restores all but the numbers of edges. -/
lemma SplitOff.undone (hg : g.WellFormed) (hk : k.WellFormed) (hd : g.fact? d = some f)
    (hids : ∀ e ∈ g.edges, e.id ∈ ids → e.src = d) (hs : g.SplitOff h d copy name ids)
    (hm : h.MergedInto k d copy) :
    (∀ j, k.node? j = g.node? j) ∧ (k.edges.map (·.toLink)).Perm (g.edges.map (·.toLink)) := by
  have hnode (j : NodeId) : k.node? j = g.node? j := by
    by_cases hj : j = copy
    · rw [hj, hm.gone, hs.fresh]
    · rw [hm.node? j hj, hs.node? j hj]
  have hdata : k.fact? d = some f := by
    rw [fact?, hnode]
    exact hd
  refine ⟨hnode, (List.perm_ext_iff_of_nodup hk.nodup_links hg.nodup_links).2 fun m => ⟨?_, ?_⟩⟩
  · rintro hmem
    obtain ⟨e, he, rfl⟩ := List.mem_map.1 hmem
    rcases hm.old e he with hold | ⟨rfl, -, ht⟩
    · exact List.mem_map_of_mem ((hs.edges e (hm.cut e he).1).1 hold).1
    · obtain ⟨c, hc, ht⟩ := List.mem_map.1 (hs.moved.mem_iff.1 ht)
      exact hk.mem_links_of_fed hg he hdata hd
        (List.mem_map.2 ⟨c, (List.mem_filter.1 hc).1, ht⟩)
  · rintro hmem
    obtain ⟨e, he, rfl⟩ := List.mem_map.1 hmem
    obtain ⟨hsrc, hdst⟩ := hg.ne_of_fresh hs.fresh he
    by_cases hid : e.id ∈ ids
    · obtain rfl := hids e he hid
      have hmoved : e.target ∈ h.fed copy := hs.moved.mem_iff.2 (List.mem_map_of_mem
        (List.mem_filter.2 ⟨mem_outgoing.2 ⟨he, rfl⟩, decide_eq_true hid⟩))
      exact hg.mem_links_of_fed hk he hd hdata
        (hm.fed.mem_iff.2 (List.mem_append_right _ hmoved))
    · exact List.mem_map_of_mem (hm.stays e ((hs.edges e hsrc).2 ⟨he, hid⟩) hsrc hdst)

end Graph

namespace Edit

variable {g h k : Graph} {keep drop d copy : NodeId} {name : String} {ids : List EdgeId}

/-! ### Merging -/

/-- A merge that is refused has changed nothing. -/
lemma graph_mergeData (hnot : ¬ (keep ≠ drop ∧ (g.fact? keep).isSome ∧ (g.fact? drop).isSome)) :
    ((mergeData keep drop).run g).graph = g := by
  refine graph_reads_bind_of (P := (· = g)) (reads_lift _) rfl fun _ hne => ?_
  refine graph_reads_bind_of (P := (· = g)) (reads_query _) rfl fun f hkeep => ?_
  refine graph_reads_bind_of (P := (· = g)) (reads_query _) rfl fun f' hdrop => ?_
  exact absurd ⟨ensure_eq_ok.1 hne, Graph.fact_eq_ok.1 hkeep ▸ rfl,
    Graph.fact_eq_ok.1 hdrop ▸ rfl⟩ hnot

lemma exists_gives_mergeData_iff (hg : g.WellFormed) : (∃ h, Gives (mergeData keep drop) g () h) ↔
    keep ≠ drop ∧ (g.fact? keep).isSome ∧ (g.fact? drop).isSome := by
  constructor
  · rintro ⟨h, hx⟩
    unfold mergeData at hx
    simp only [gives_bind, gives_lift, gives_query, ensure_eq_ok, Graph.fact_eq_ok] at hx
    obtain ⟨_, _, ⟨hne, rfl⟩, f, _, ⟨hkeep, rfl⟩, f', _, ⟨hdrop, rfl⟩, -⟩ := hx
    exact ⟨hne, hkeep ▸ rfl, hdrop ▸ rfl⟩
  · rintro ⟨hne, hkeep, hdrop⟩
    obtain ⟨f, hkeep⟩ := Option.isSome_iff_exists.1 hkeep
    obtain ⟨f', hdrop⟩ := Option.isSome_iff_exists.1 hdrop
    exact exists_gives_mergeData hg hne hkeep hdrop

lemma mergedInto_of_gives (hg : g.WellFormed) (hx : Gives (mergeData keep drop) g () h) :
    g.MergedInto h keep drop := by
  obtain ⟨-, hkeep, hdrop⟩ := (exists_gives_mergeData_iff hg).1 ⟨h, hx⟩
  obtain ⟨f, hkeep⟩ := Option.isSome_iff_exists.1 hkeep
  obtain ⟨f', hdrop⟩ := Option.isSome_iff_exists.1 hdrop
  obtain ⟨hne, k, hm, hw⟩ := gives_mergeData hx
  exact Graph.mergedInto hg hkeep hdrop hm hw hne (hx.keeps (keeps_mergeData _ _) hg)

/-- **Merging loses no consumer and makes no new one**: in a well-formed graph data nodes can be
merged exactly when they differ, and a merge that is refused leaves the graph as it was. What both
fed is then fed by the one that is kept, each port once, and nothing else has changed. -/
theorem mergeData_merges (hg : g.WellFormed) (keep drop : NodeId) :
    ((∃ h, Gives (mergeData keep drop) g () h) ↔
      keep ≠ drop ∧ (g.fact? keep).isSome ∧ (g.fact? drop).isSome) ∧
    ((¬ ∃ h, Gives (mergeData keep drop) g () h) → ((mergeData keep drop).run g).graph = g) ∧
    ∀ h, Gives (mergeData keep drop) g () h → g.MergedInto h keep drop := by
  have hiff : (∃ h, Gives (mergeData keep drop) g () h) ↔ _ := exists_gives_mergeData_iff hg
  exact ⟨hiff, fun hnot => graph_mergeData (hiff.not.1 hnot), fun h => mergedInto_of_gives hg⟩

/-- Data that is read on two ports, with other data between. -/
def readTwice : Edit Unit := do
  let x ← addParameter "x" [2]
  let y ← addParameter "y" [2]
  let z ← wire "z" (.ofKind "Concat") [x, y, x]
  discard (addResult "out" z)

/-- An operation that reads both data nodes reads one of them on all its ports, and operations are
not merged. -/
theorem mergeData_merges_readTwice :
    let g := (readTwice.run ∅).graph
    let h := ((mergeData ⟨1⟩ ⟨3⟩).run g).graph
    g.WellFormed ∧ Gives (mergeData ⟨1⟩ ⟨3⟩) g () h ∧ g.MergedInto h ⟨1⟩ ⟨3⟩ ∧
      h.fed ⟨1⟩ = [(⟨4⟩, 0), (⟨4⟩, 1), (⟨4⟩, 2)] ∧
      (¬ ∃ k, Gives (mergeData ⟨1⟩ ⟨4⟩) g () k) ∧ ((mergeData ⟨1⟩ ⟨4⟩).run g).graph = g := by
  intro g h
  have hg : g.WellFormed := by decide +kernel
  have hx : Gives (mergeData ⟨1⟩ ⟨3⟩) g () h := ⟨toOption_eq_some.1 (by decide +kernel), rfl⟩
  have hop : ¬ ∃ k, Gives (mergeData ⟨1⟩ ⟨4⟩) g () k :=
    (mergeData_merges hg ⟨1⟩ ⟨4⟩).1.not.2 (by decide +kernel)
  exact ⟨hg, hx, (mergeData_merges hg ⟨1⟩ ⟨3⟩).2.2 h hx, by decide +kernel, hop,
    (mergeData_merges hg ⟨1⟩ ⟨4⟩).2.1 hop⟩

/-! ### Splitting -/

lemma mapM_edge (hids : ∀ i ∈ ids, ∃ e ∈ g.edges, e.id = i ∧ e.src = d) :
    ∃ moved, ids.mapM g.edge = .ok moved ∧ moved.map (·.id) = ids ∧
      ∀ e ∈ moved, e ∈ g.edges ∧ e.src = d := by
  induction ids with
  | nil => exact ⟨[], rfl, rfl, by simp⟩
  | cons i ids ih =>
    obtain ⟨e, he, rfl, hsrc⟩ := hids _ (List.mem_cons_self ..)
    obtain ⟨moved, hmapM, hmap, hmem⟩ := ih fun j hj => hids j (List.mem_cons_of_mem _ hj)
    refine ⟨e :: moved, ?_, by rw [List.map_cons, hmap], ?_⟩
    · rw [List.mapM_cons, Graph.edge_eq_ok.2 (Graph.edge?_eq_some.2 ⟨he, rfl⟩), hmapM]
      rfl
    · exact List.forall_mem_cons.2 ⟨⟨he, hsrc⟩, hmem⟩

/-- The edges of a list without repetitions are listed once. -/
lemma exists_moved (hnodup : ids.Nodup) (hids : ∀ i ∈ ids, ∃ e ∈ g.edges, e.id = i ∧ e.src = d) :
    ∃ moved, ids.mapM g.edge = .ok moved ∧ moved.Nodup ∧
      (∀ e, e ∈ moved ↔ e ∈ g.edges ∧ e.id ∈ ids) ∧ ∀ e ∈ moved, e.src = d := by
  obtain ⟨moved, hmapM, hmap, hmem⟩ := mapM_edge hids
  refine ⟨moved, hmapM, .of_map _ (hmap ▸ hnodup), fun e => ?_, fun e he => (hmem e he).2⟩
  rw [← hmap, List.mem_map]
  refine ⟨fun he => ⟨(hmem e he).1, e, he, rfl⟩, fun ⟨he, c, hc, hid⟩ => ?_⟩
  rwa [← Graph.eq_of_mem_edges (hmem c hc).1 he hid]

lemma grown_of_gives {c : Content} (hx : Gives (addNode name c) g copy h) :
    g.Grown h copy ⟨name, c⟩ := by
  obtain ⟨hfree, rfl, rfl⟩ := gives_addNode.1 hx
  refine ⟨g.node?_freshOp, fun j => ?_, rfl⟩
  refine (Graph.node?_pushNode hfree j).trans
    (if_congr ⟨fun hj => ?_, congrArg NodeId.index⟩ rfl rfl)
  exact congrArg NodeId.mk hj

lemma gives_splitData {f : Fact} {moved : List Edge} (hd : g.fact? d = some f)
    (hmapM : ids.mapM g.edge = .ok moved) (hsrc : ∀ e ∈ moved, e.src = d)
    (hadd : Gives (addData name f) g copy k)
    (hmove : Gives (moved.forM (moveConsumer copy)) k () h) :
    Gives (splitData d ids name) g copy h := by
  have hnone : (moved.find? fun e => e.src ≠ d) = none := by
    simpa using hsrc
  unfold splitData
  refine gives_query_bind (Graph.fact_eq_ok.2 hd) (gives_query_bind hmapM ?_)
  rw [hnone]
  exact gives_bind.2 ⟨copy, k, hadd, gives_bind.2 ⟨(), h, hmove, gives_pure.2 ⟨rfl, rfl⟩⟩⟩

/-- A data node can be split along edges out of it: the copy feeds nothing yet, and each of the
edges leaves its port free. -/
lemma exists_gives_splitData {f : Fact} (hg : g.WellFormed) (hd : g.fact? d = some f)
    (hnodup : ids.Nodup) (hids : ∀ i ∈ ids, ∃ e ∈ g.edges, e.id = i ∧ e.src = d)
    (hname : g.contains name = false) :
    ∃ copy h, Gives (splitData d ids name) g copy h ∧ h.WellFormed ∧
      g.SplitOff h d copy name ids := by
  obtain ⟨moved, hmapM, hmoved, hmem, hsrc⟩ := exists_moved hnodup hids
  obtain ⟨copy, k, hadd⟩ : ∃ copy k, Gives (addData name f) g copy k :=
    ⟨_, _, gives_addNode.2 ⟨hname, rfl, rfl⟩⟩
  have hk : k.WellFormed := hadd.keeps (keeps_addNode _ _) hg
  have hgrown := grown_of_gives hadd
  have hop : ∀ e ∈ moved, e ∈ k.edges ∧ (k.op? e.dst).isSome := fun e he => by
    have hold := ((hmem e).1 he).1
    obtain ⟨o, ho⟩ := Graph.ends_of_fact_src hg hold (hsrc e he ▸ hd)
    rw [hgrown.op?_of_ne (hg.ne_of_fresh hgrown.fresh hold).2, ho]
    exact ⟨hgrown.edges.symm ▸ hold, rfl⟩
  obtain ⟨h, hmove, -⟩ := exists_gives_moveConsumers hk hmoved
    (Graph.fact?_eq_some.2 ⟨name, (hgrown.node? copy).trans (if_pos rfl)⟩) hop
  have hh : h.WellFormed := hmove.keeps
    (keeps_forM fun e _ => (structural_moveConsumer copy e).keeps invariant_wellFormed.shaped) hk
  have hne := Graph.ne_of_fresh_of_fact hgrown.fresh hd
  have hm := gives_moveConsumers (fun c hc => ⟨(hop c hc).1, hsrc c hc ▸ hne⟩) hmoved hmove
  exact ⟨copy, h, gives_splitData hd hmapM hsrc hadd hmove, hh,
    Graph.splitOff hg hd hgrown hmem hsrc hm hh⟩

/-- **Merging undoes splitting**: a data node of a well-formed graph can be split along any of the
edges out of it under a free name. The copy then holds the same and feeds what these edges led to,
and once it is merged back the graph has the nodes it had and the same connections, port by port. -/
theorem mergeData_undoes_splitData {f : Fact} (hg : g.WellFormed) (hd : g.fact? d = some f)
    (hnodup : ids.Nodup) (hids : ∀ i ∈ ids, ∃ e ∈ g.edges, e.id = i ∧ e.src = d)
    (hname : g.contains name = false) :
    ∃ copy h k, Gives (splitData d ids name) g copy h ∧ g.SplitOff h d copy name ids ∧
      Gives (mergeData d copy) h () k ∧ (∀ j, k.node? j = g.node? j) ∧
      (k.edges.map (·.toLink)).Perm (g.edges.map (·.toLink)) := by
  obtain ⟨copy, h, hsplit, hh, hs⟩ := exists_gives_splitData hg hd hnodup hids hname
  have hne := Graph.ne_of_fresh_of_fact hs.fresh hd
  have hkeep : h.fact? d = some f := by
    rw [Graph.fact?, hs.node? d hne]
    exact hd
  obtain ⟨k, hmerge⟩ := exists_gives_mergeData hh hne hkeep (hs.fact.trans hd)
  have hk := hmerge.keeps (keeps_mergeData _ _) hh
  refine ⟨copy, h, k, hsplit, hs, hmerge,
    hs.undone hg hk hd (fun e he hid => ?_) (mergedInto_of_gives hh hmerge)⟩
  obtain ⟨c, hc, hcid, hcsrc⟩ := hids e.id hid
  rwa [← Graph.eq_of_mem_edges hc he hcid]

/-- One of the two ports on which an operation reads the same data is split off. -/
theorem mergeData_undoes_splitData_readTwice :
    let g := (readTwice.run ∅).graph
    g.WellFormed ∧ g.fact? ⟨1⟩ = some (.ofShape [2]) ∧
      (∀ i ∈ [EdgeId.mk 5], ∃ e ∈ g.edges, e.id = i ∧ e.src = ⟨1⟩) ∧ g.contains "copy" = false ∧
      ∃ copy h k, Gives (splitData ⟨1⟩ [⟨5⟩] "copy") g copy h ∧
        g.SplitOff h ⟨1⟩ copy "copy" [⟨5⟩] ∧ Gives (mergeData ⟨1⟩ copy) h () k ∧
        (∀ j, k.node? j = g.node? j) ∧
        (k.edges.map (·.toLink)).Perm (g.edges.map (·.toLink)) := by
  intro g
  have hg : g.WellFormed := by decide +kernel
  have hd : g.fact? ⟨1⟩ = some (.ofShape [2]) := rfl
  have hids : ∀ i ∈ [EdgeId.mk 5], ∃ e ∈ g.edges, e.id = i ∧ e.src = ⟨1⟩ := by decide +kernel
  have hname : g.contains "copy" = false := by decide +kernel
  exact ⟨hg, hd, hids, hname,
    mergeData_undoes_splitData hg hd (List.nodup_singleton _) hids hname⟩

end Edit

end TensorGraph
