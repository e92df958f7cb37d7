import TensorGraph.Proofs.Retained

/-!
Sites with a constant of their own.

Once a pattern was written at a site, nothing else reads its constant, which holds the pattern, and
the reshape and what reads its outputs are marked (`Graph.Owned`). A pattern that is written at
another site leaves all this (`Repatterned.owned`).
-/

namespace TensorGraph

open Edit

namespace Graph

variable {g h k : Graph} {op i : NodeId}

/-! ### Marks around an operation -/

/-- An operation and those that read its outputs. -/
def neighbourhood (g : Graph) (op : NodeId) : List NodeId := op :: (g.targets op).flatMap g.targets

lemma mem_neighbourhood : i ∈ g.neighbourhood op ↔ i = op ∨
    ∃ e ∈ g.edges, e.src = op ∧ ∃ e' ∈ g.edges, e'.src = e.dst ∧ e'.dst = i := by
  rw [neighbourhood, List.mem_cons, List.mem_flatMap]
  refine or_congr_right ⟨?_, ?_⟩
  · rintro ⟨d, hd, hi⟩
    obtain ⟨e, he, hsrc, rfl⟩ := mem_targets.1 hd
    exact ⟨e, he, hsrc, mem_targets.1 hi⟩
  · rintro ⟨e, he, hsrc, hi⟩
    exact ⟨e.dst, mem_targets.2 ⟨e, he, hsrc, rfl⟩, mem_targets.2 hi⟩

lemma targets_of_skeleton (hs : h.skeleton = g.skeleton) : h.targets = g.targets := by
  funext i
  unfold targets
  rw [outgoing_of_skeleton hs]

lemma neighbourhood_of_skeleton (hs : h.skeleton = g.skeleton) (op : NodeId) :
    h.neighbourhood op = g.neighbourhood op := by
  unfold neighbourhood
  rw [targets_of_skeleton hs]

lemma outputs_eq {o : Operation} (ho : g.op? op = some o) : g.outputs op = .ok (g.targets op) := by
  obtain ⟨n, hn⟩ := node_ok_of_op? ho
  rw [outputs, outEdges_eq, hn]
  rfl

end Graph

namespace Edit

variable {g : Graph} {op : NodeId} {o : Operation}

lemma exists_gives_markAll {l : List NodeId} (hg : g.WellFormed)
    (hl : ∀ d ∈ l, (g.fact? d).isSome) :
    ∃ h, Gives (l.forM mark) g () h ∧ h.Alike (g.flagOps (l.flatMap g.targets)) := by
  induction l generalizing g with
  | nil => exact ⟨g, ⟨rfl, rfl⟩, .refl g⟩
  | cons d l ih =>
    obtain ⟨f, hf⟩ := Option.isSome_iff_exists.1 (hl d (List.mem_cons_self ..))
    obtain ⟨k, hk, hkl⟩ := gives_mark_data hg hf
    have hskel : k.skeleton = g.skeleton := hkl.skeleton.trans Graph.skeleton_flagOps
    obtain ⟨h, hh, hhl⟩ := ih (hg.of_skeleton hskel) fun i hi => by
      rw [Graph.isSome_fact?_of_skeleton hskel]
      exact hl i (List.mem_cons_of_mem d hi)
    refine ⟨h, gives_bind.2 ⟨(), k, hk, hh⟩, hhl.trans ?_⟩
    rw [Graph.targets_of_skeleton hskel, List.flatMap_cons]
    unfold Graph.flagOps
    rw [List.foldl_append]
    exact hkl.flagOps (l.flatMap g.targets)

lemma exists_gives_markNeighbourhood (hg : g.WellFormed) (ho : g.op? op = some o) :
    ∃ h, Gives (markNeighbourhood op) g () h ∧ h.Alike (g.flagOps (g.neighbourhood op)) := by
  obtain ⟨k, hk, hkl⟩ := gives_mark_op ho
  have hskel : k.skeleton = g.skeleton := hkl.skeleton.trans (Graph.skeleton_flagOps (l := [op]))
  have htargets := Graph.targets_of_skeleton hskel
  obtain ⟨o', ho'⟩ := Graph.exists_op?_of_skeleton hskel ho
  have houtputs : k.outputs op = .ok (g.targets op) := htargets ▸ Graph.outputs_eq ho'
  obtain ⟨h, hh, hhl⟩ :=
    exists_gives_markAll (hg.of_skeleton hskel) (l := g.targets op) fun d hd => by
    obtain ⟨e, he, rfl, rfl⟩ := Graph.mem_targets.1 hd
    obtain ⟨f, hf⟩ := Graph.ends_of_op_src hg he ho
    rw [Graph.isSome_fact?_of_skeleton hskel, hf]
    rfl
  refine ⟨h, gives_bind.2 ⟨(), k, hk, gives_query_bind houtputs hh⟩, hhl.trans ?_⟩
  rw [htargets]
  exact hkl.flagOps ((g.targets op).flatMap g.targets)

end Edit

namespace Graph

variable {g h k : Graph} {r c d i : NodeId} {s : ReshapeSite} {value : Tensor} {new : Shape}

/-- The reshape of a site is marked, and all that reads its outputs. -/
lemma flag?_neighbourhood (hg : g.WellFormed) {o : Operation} (ho : g.op? r = some o)
    (hi : i ∈ g.neighbourhood r) : (g.flagOps (g.neighbourhood r)).flag? i = some true := by
  obtain ⟨o', ho'⟩ : ∃ o', g.op? i = some o' := by
    rcases mem_neighbourhood.1 hi with rfl | ⟨e, he, rfl, e', he', hsrc, rfl⟩
    · exact ⟨o, ho⟩
    · obtain ⟨f, hf⟩ := ends_of_op_src hg he ho
      exact ends_of_fact_src hg he' (hsrc ▸ hf)
  rw [flag?_flagOps, if_pos hi, flag?_of_op? ho']
  rfl

lemma flag?_flagOps_of_true {l : List NodeId} (hi : g.flag? i = some true) :
    (g.flagOps l).flag? i = some true := by
  rw [flag?_flagOps, hi]
  split <;> rfl

/-! ### Sites that are owned -/

/-- A site whose constant holds the pattern for no other reshape, with its neighbourhood marked. -/
structure Owned (g : Graph) (s : ReshapeSite) : Prop extends g.IsSite s where
  alone : ∀ e ∈ g.edges, e.src = s.data → e.dst = s.reshape ∧ e.inp = 1
  known : g.fact? s.data = some (.ofValue (.ofInts s.pattern))
  stored : (g.attributes? s.constant).bind (·.find? "value") = some (.tensor (.ofInts s.pattern))
  marked : ∀ i ∈ g.neighbourhood s.reshape, g.flag? i = some true

lemma hasSite_of_agrees (ha : h.Agrees g) : h.HasSite s ↔ g.HasSite s :=
  hasSite_congr (kind?_of_skeleton ha.skeleton _) (kind?_of_skeleton ha.skeleton _) (ha.fact _)
    (fun _ _ _ => by rw [edges_of_skeleton ha.skeleton])
    fun _ _ _ => by rw [edges_of_skeleton ha.skeleton]

/-- More marks do no harm. -/
lemma Owned.of_agrees (hs : g.Owned s) (ha : h.Agrees g)
    (hflag : ∀ i, g.flag? i = some true → h.flag? i = some true) : h.Owned s where
  toHasSite := (hasSite_of_agrees ha).2 hs.toHasSite
  two := hs.two
  alone := by
    rw [edges_of_skeleton ha.skeleton]
    exact hs.alone
  known := (ha.fact _).trans hs.known
  stored := by rw [ha.attributes, hs.stored]
  marked i hi := hflag i (hs.marked i (neighbourhood_of_skeleton ha.skeleton _ ▸ hi))

namespace Repatterned

variable (hk : g.Repatterned k r c d value)

include hk

/-- A mark that was there still is. -/
lemma flag? (hi : g.flag? i = some true) : k.flag? i = some true := by
  by_cases hc : i = c
  · exact hc ▸ hk.marked (hc ▸ hi)
  · obtain ⟨o, ho, hflag⟩ := Option.map_eq_some_iff.1 hi
    rw [flag?_of_op? (hk.op?_of_ne ho hc), hflag]

variable (hr : g.kind? r = some "Reshape")

include hr

/-- The nodes of another site. -/
lemma apart (hs : g.HasSite s ∨ k.HasSite s) (hne : s.reshape ≠ r) :
    (s.reshape ≠ c ∧ s.reshape ≠ d) ∧ (s.constant ≠ c ∧ s.constant ≠ d) ∧
      s.data ≠ c ∧ s.data ≠ d ∧ s.data ≠ r := by
  have hdata : s.data ≠ d := fun heq => by
    rcases hs with ⟨-, -, ⟨e, he, hsrc, hdst, -⟩, -⟩ | ⟨-, -, ⟨e, he, hsrc, hdst, -⟩, -⟩
    · exact hne (hdst ▸ (hk.only_read e (.inl he) (hsrc.trans heq)).1)
    · exact hne (hdst ▸ (hk.only_read e (.inr he) (hsrc.trans heq)).1)
  have hconst : s.constant ≠ c := fun heq => hdata <| by
    rcases hs with ⟨-, -, -, ⟨e, he, hsrc, hdst⟩, -⟩ | ⟨-, -, -, ⟨e, he, hsrc, hdst⟩, -⟩
    · rw [← hdst, hk.only_writes e he (hsrc.trans heq)]
    · obtain ⟨e₁, he₁, hsrc₁, hdst₁⟩ := hk.written
      rw [← hdst, hk.lone e he e₁ he₁ (hsrc.trans heq) hsrc₁, hdst₁]
  obtain ⟨hr', -⟩ := hk.kind?_reshape hr
  have hop {j : NodeId} {kind : String} (hkind : g.kind? j = some kind ∨ k.kind? j = some kind) :
      j ≠ d := by
    rcases hkind with hkind | hkind
    · obtain ⟨o, ho, -⟩ := kind?_eq_some.1 hkind
      exact hk.ne_of_op ho
    · obtain ⟨o, ho, -⟩ := kind?_eq_some.1 hkind
      exact hk.ne_data ho
  have hfact : (g.fact? s.data).isSome ∨ (k.fact? s.data).isSome := by
    rcases hs with ⟨-, -, -, -, f, t, hf, -⟩ | ⟨-, -, -, -, f, t, hf, -⟩
    · exact .inl (hf ▸ rfl)
    · exact .inr (hf ▸ rfl)
  refine ⟨⟨?_, hop (hs.imp (·.reshape) (·.reshape))⟩,
    ⟨hconst, hop (hs.imp (·.constant) (·.constant))⟩, hk.fact?_const _ hfact, hdata, ?_⟩
  · rcases hs with hs | hs
    · exact hk.ne_of_kind hs.reshape (by decide)
    · exact hk.ne_const hs.reshape (by decide)
  · rintro heq
    obtain ⟨o, ho, -⟩ := kind?_eq_some.1 hr
    obtain ⟨o', ho', -⟩ := kind?_eq_some.1 hr'
    rw [heq, fact?_eq_none_of_op ho, fact?_eq_none_of_op ho'] at hfact
    simp at hfact

/-- The other sites are those that there were. -/
lemma hasSite_iff (hne : s.reshape ≠ r) : k.HasSite s ↔ g.HasSite s := by
  have hcongr (hs : g.HasSite s ∨ k.HasSite s) : k.HasSite s ↔ g.HasSite s := by
    obtain ⟨⟨hrc, hrd⟩, ⟨hcc, hcd⟩, hdc, hdd, hdr⟩ := hk.apart hr hs hne
    refine hasSite_congr ?_ ?_ (hk.fact?_of_ne hdc hdd)
      (fun e hsrc hdst => ?_) fun e hsrc hdst => ?_
    · rw [Graph.kind?, Graph.op?, hk.node? _ hrc hrd]
      rfl
    · rw [Graph.kind?, Graph.op?, hk.node? _ hcc hcd]
      rfl
    · exact hk.edges e (hsrc ▸ hdc) (hsrc ▸ hdd) fun heq => absurd (hdst.symm.trans heq) hne
    · exact hk.edges e (hsrc ▸ hcc) (hsrc ▸ hcd) fun heq => absurd (hdst.symm.trans heq) hdr
  exact ⟨fun hs => (hcongr (.inr hs)).1 hs, fun hs => (hcongr (.inl hs)).2 hs⟩

/-- Another site keeps its constant for itself. -/
theorem owned (hs : g.Owned s) (hne : s.reshape ≠ r) : k.Owned s := by
  obtain ⟨⟨hrc, hrd⟩, ⟨hcc, hcd⟩, hdc, hdd, hdr⟩ := hk.apart hr (.inl hs.toHasSite) hne
  have hsk : k.HasSite s := (hk.hasSite_iff hr hne).2 hs.toHasSite
  -- an edge that was not there leads from the new data to the pattern of the reshape
  have hold {e : Edge} (he : e ∈ k.edges) (hc : e.src ≠ c) (hd : e.src ≠ d) : e ∈ g.edges := by
    refine (hk.edges e hc hd fun hdst hinp => hd ?_).1 he
    obtain ⟨e₁, he₁, hsrc₁, hdst₁, hinp₁⟩ := hk.read
    rw [hk.wellFormed.inp_unique he he₁ (hdst.trans hdst₁.symm) (hinp.trans hinp₁.symm), hsrc₁]
  refine ⟨⟨hsk, hs.two⟩, fun e he hsrc => hs.alone e (hold he (hsrc ▸ hdc) (hsrc ▸ hdd)) hsrc,
    (hk.fact?_of_ne hdc hdd).trans hs.known, ?_, fun i hi => hk.flag? (hs.marked i ?_)⟩
  · rw [Graph.attributes?, Graph.op?, hk.node? _ hcc hcd]
    exact hs.stored
  · rw [mem_neighbourhood] at hi ⊢
    refine hi.imp_right ?_
    rintro ⟨e, he, hsrc, e', he', hsrc', hdst'⟩
    obtain ⟨o, ho, -⟩ := kind?_eq_some.1 hsk.reshape
    obtain ⟨f, hf⟩ := ends_of_op_src hk.wellFormed he (hsrc ▸ ho)
    have hd : e.dst ≠ d := fun heq => hrc (hsrc ▸ hk.only_written e (.inr he) heq)
    have hc : e.dst ≠ c := hk.fact?_const _ (.inr (hf ▸ rfl))
    exact ⟨e, hold he (hsrc ▸ hrc) (hsrc ▸ hrd), hsrc, e', hold he' (hsrc' ▸ hc)
      (hsrc' ▸ hd), hsrc',
      hdst'⟩

/-- The site at which the pattern was written. -/
lemma hasSite (hvalue : value.toInts = new) : k.HasSite ⟨r, c, d, new⟩ :=
  ⟨(hk.kind?_reshape hr).1, hk.const, hk.read, hk.written, _, _, hk.fact, rfl, hvalue.symm⟩

end Repatterned

end Graph

end TensorGraph
