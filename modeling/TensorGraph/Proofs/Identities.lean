import TensorGraph.Proofs.Cleanups
import TensorGraph.Proofs.Revisions
import TensorGraph.Proofs.RuleRuns
import TensorGraph.Proofs.Transformations

/-!
Identities that can be removed.

An application of the pass to all identities either moves the revision on or finds none that can be
removed (`removeIdentities_settled`). Then the graph is `Merged`, and stays so under changes that
spare the edges at the identities and the outputs of the model (`Merged.of_spared`). A clean-up is
such a change, since without gaps in the output ports of the identities it has nothing to renumber
there (`Cleaned.merged`).
-/

namespace TensorGraph

open Edit

namespace Graph

/-- An identity between two data nodes, of which the second is read by no output of the model. -/
def Removable (g : Graph) (id : NodeId) : Prop :=
  g.kind? id = some "Identity" ∧ (∃ d ∈ g.edges, d.dst = id ∧ d.inp = 0) ∧
    ∃ e ∈ g.edges, e.src = id ∧ e.out = 0 ∧
      ∀ c ∈ g.edges, c.src = e.dst → g.kind? c.dst ≠ some "Result"

end Graph

namespace Edit

variable {g h : Graph}

lemma revision_lt_of_removeNode {id : NodeId} {u : Unit} (hx : Gives (removeNode id true) g u h) :
    g.revision < h.revision := by
  unfold removeNode at hx
  simp only [gives_bind, gives_current, gives_lift, gives_change] at hx
  obtain ⟨_, _, ⟨rfl, rfl⟩, _, _, ⟨-, rfl⟩, _, _, ⟨-, rfl⟩, _, k, hedges, rfl⟩ := hx
  have hle : g.revision ≤ k.revision := hedges.keeps
    (keeps_forM fun i _ => keeps_discard ((Graph.invariant_revision _).removeEdge i))
    (Nat.le_refl g.revision)
  exact Nat.lt_succ_of_le hle

/-! ### Applying the pass -/

lemma mapM_node {es : List Edge} (hes : ∀ e ∈ es, (g.node? e.dst).isSome) :
    es.mapM (fun e => g.node e.dst) = .ok (es.filterMap fun e => g.node? e.dst) := by
  induction es with
  | nil => rfl
  | cons e es ih =>
    obtain ⟨n, hn⟩ := Option.isSome_iff_exists.1 (hes e (List.mem_cons_self ..))
    rw [List.mapM_cons, Graph.node_eq_ok.2 hn, ok_bind,
      ih fun f hf => hes f (List.mem_cons_of_mem e hf), ok_bind, List.filterMap_cons, hn]
    rfl

lemma feedsResult_eq_ok (hg : g.WellFormed) {data : NodeId} {b : Bool}
    (hx : g.feedsResult data = .ok b) :
    b = true ↔ ∃ c ∈ g.edges, c.src = data ∧ g.kind? c.dst = some "Result" := by
  obtain ⟨edges, hedges, hx⟩ := bind_eq_ok.1 hx
  obtain ⟨-, rfl⟩ := outEdges_eq_ok.1 hedges
  rw [mapM_node fun e he => ?_] at hx
  · obtain rfl := Except.ok.inj hx
    simp only [List.any_eq_true, List.mem_filterMap, Graph.mem_outgoing]
    constructor
    · rintro ⟨n, ⟨c, ⟨hc, hsrc⟩, hn⟩, hkind⟩
      exact ⟨c, hc, hsrc, (Graph.isOpOf_iff hn).1 hkind⟩
    · rintro ⟨c, hc, hsrc, hkind⟩
      obtain ⟨-, n, -, hn, -⟩ := hg.ends hc
      exact ⟨n, ⟨c, ⟨hc, hsrc⟩, hn⟩, (Graph.isOpOf_iff hn).2 hkind⟩
  · obtain ⟨-, d, -, hd, -⟩ := hg.ends (Graph.mem_outgoing.1 he).1
    exact hd ▸ rfl

/-- An identity stays and cannot be removed, or the revision moves on. -/
lemma removeIdentity_settled (hg : g.WellFormed) {id : NodeId}
    (hx : Gives (removeIdentity id) g () h) :
    h = g ∧ ¬ g.Removable id ∨ g.revision < h.revision := by
  unfold removeIdentity at hx
  obtain ⟨input?, _, hquery, hx⟩ := gives_bind.1 hx
  obtain ⟨hinput, rfl⟩ := gives_query.1 hquery
  obtain ⟨output?, _, hquery, hx⟩ := gives_bind.1 hx
  obtain ⟨houtput, rfl⟩ := gives_query.1 hquery
  -- what the ports of a removable identity lead to has been found
  have hfound (hid : g.Removable id) : ∃ d e, d ∈ g.edges ∧ e ∈ g.edges ∧ e.src = id ∧
      input? = some d.src ∧ output? = some e.dst ∧
      ∀ c ∈ g.edges, c.src = e.dst → g.kind? c.dst ≠ some "Result" := by
    obtain ⟨hkind, ⟨d, hd, hdst, hinp⟩, e, he, hsrc, hout, hfree⟩ := hid
    obtain ⟨o, ho, -⟩ := Graph.kind?_eq_some.1 hkind
    rw [Graph.inputData_eq ho, Except.ok.injEq] at hinput
    rw [Graph.outputData_eq ho, Except.ok.injEq] at houtput
    refine ⟨d, e, hd, he, hsrc, ?_, ?_, hfree⟩
    · exact hinput.symm.trans ((Graph.inSource_eq_some hg).2 ⟨d, hd, hdst, hinp, rfl⟩)
    · exact houtput.symm.trans ((Graph.outTarget_eq_some hg ho).2 ⟨e, he, hsrc, hout, rfl⟩)
  split at hx
  · next input output =>
    obtain ⟨b, _, hquery, hx⟩ := gives_bind.1 hx
    obtain ⟨hfeeds, rfl⟩ := gives_query.1 hquery
    split at hx
    · next hb =>
      obtain ⟨-, rfl⟩ := gives_pure.1 hx
      refine .inl ⟨rfl, fun hid => ?_⟩
      obtain ⟨d, e, -, he, hsrc, -, hdst, hfree⟩ := hfound hid
      obtain rfl := Option.some.inj hdst
      obtain ⟨c, hc, hcsrc, hresult⟩ := (feedsResult_eq_ok hg hfeeds).1 hb
      exact hfree c hc hcsrc hresult
    · obtain ⟨n, _, hquery, hx⟩ := gives_bind.1 hx
      obtain ⟨-, rfl⟩ := gives_query.1 hquery
      obtain ⟨_, _, hnote, hx⟩ := gives_bind.1 hx
      obtain rfl := gives_note.1 hnote
      obtain ⟨_, g₁, hmerge, hx⟩ := gives_bind.1 hx
      obtain ⟨_, g₂, hremove, hmark⟩ := gives_bind.1 hx
      have h₁ : g.revision ≤ g₁.revision :=
        hmerge.2 ▸ ((structural_mergeData _ _).tracked g).le
      have h₂ : g₂.revision ≤ h.revision :=
        hmark.2 ▸ ((structural_mark _).tracked g₂).le
      have hlt := revision_lt_of_removeNode hremove
      exact .inr (by omega)
  · next hnone =>
    obtain ⟨-, rfl⟩ := gives_pure.1 hx
    refine .inl ⟨rfl, fun hid => ?_⟩
    obtain ⟨d, e, -, -, -, hin, hout, -⟩ := hfound hid
    exact hnone _ _ hin hout

/-- All identities stay and none can be removed, or the revision moves on. -/
theorem removeIdentities_settled (hg : g.WellFormed)
    (hx : Gives Transformation.removeIdentity.apply g () h) :
    h = g ∧ (∀ id, ¬ g.Removable id) ∨ g.revision < h.revision := by
  have hloop {l : List NodeId} {k : Graph} (hk : k.WellFormed)
      (hl : Gives (l.forM removeIdentity) k () h) :
      h = k ∧ (∀ id ∈ l, ¬ k.Removable id) ∨ k.revision < h.revision := by
    induction l generalizing k with
    | nil =>
      obtain ⟨-, rfl⟩ := gives_pure.1 hl
      exact .inl ⟨rfl, by simp⟩
    | cons id l ih =>
      obtain ⟨_, k', hfirst, hrest⟩ := gives_bind.1 hl
      have hk' : k'.WellFormed := hfirst.keeps (keeps_removeIdentity id) hk
      have hrest := ih hk' hrest
      rcases removeIdentity_settled hk hfirst with ⟨rfl, hnot⟩ | hlt
      · refine hrest.imp_left fun ⟨hsame, hnone⟩ => ⟨hsame, fun i hi => ?_⟩
        rcases List.mem_cons.1 hi with rfl | hi
        · exact hnot
        · exact hnone i hi
      · refine .inr (Nat.lt_of_lt_of_le hlt ?_)
        rcases hrest with ⟨rfl, -⟩ | hlt'
        · exact Nat.le_refl _
        · exact Nat.le_of_lt hlt'
  obtain ⟨_, _, hcurrent, hx⟩ := gives_bind.1 hx
  obtain ⟨rfl, rfl⟩ := gives_current.1 hcurrent
  refine (hloop hg hx).imp_left fun ⟨hsame, hnone⟩ => ⟨hsame, fun id hid => ?_⟩
  exact hnone id (Graph.mem_opNodesOf.2 hid.1) hid

end Edit

/-! ### Graphs in which no identity can be removed -/

namespace Graph

variable {g h : Graph}

/-- No identity can be removed, and none could be if its output ports were renumbered. -/
structure Merged (g : Graph) : Prop where
  settled : ∀ id, ¬ g.Removable id
  compact : ∀ id, g.kind? id = some "Identity" → g.Compact id

/-- The graph stays merged when no identity comes in, the edges at identities stay, and the outputs
of the model keep what they read. -/
lemma Merged.of_spared (hm : g.Merged)
    (hkind : ∀ id, h.kind? id = some "Identity" → g.kind? id = some "Identity")
    (hat : ∀ e, h.kind? e.src = some "Identity" ∨ h.kind? e.dst = some "Identity" →
      (e ∈ h.edges ↔ e ∈ g.edges))
    (hresult : ∀ c ∈ g.edges, g.kind? c.dst = some "Result" →
      c ∈ h.edges ∧ h.kind? c.dst = some "Result") : h.Merged where
  settled := by
    rintro id ⟨hid, ⟨d, hd, hdst, hinp⟩, e, he, hsrc, hout, hfree⟩
    refine hm.settled id ⟨hkind id hid, ⟨d, (hat d (.inr (hdst ▸ hid))).1 hd, hdst, hinp⟩, e,
      (hat e (.inl (hsrc ▸ hid))).1 he, hsrc, hout, fun c hc hcsrc hread => ?_⟩
    obtain ⟨hc', hread'⟩ := hresult c hc hread
    exact hfree c hc' hcsrc hread'
  compact id hid e he hsrc n hn := by
    obtain ⟨f, hf, hfsrc, hout⟩ :=
      hm.compact id (hkind id hid) e ((hat e (.inl (hsrc ▸ hid))).1 he) hsrc n hn
    exact ⟨f, (hat f (.inl (hfsrc ▸ hid))).2 hf, hfsrc, hout⟩

lemma Merged.of_skeleton (hs : h.skeleton = g.skeleton) (hm : g.Merged) : h.Merged := by
  refine hm.of_spared (fun id hid => kind?_of_skeleton hs id ▸ hid)
    (fun e _ => by rw [edges_of_skeleton hs]) fun c hc hread => ?_
  rw [edges_of_skeleton hs, kind?_of_skeleton hs]
  exact ⟨hc, hread⟩

lemma op?_eq_none_of_reader (hg : g.WellFormed) {e : Edge} (he : e ∈ g.edges) {kind : String}
    (hk : g.kind? e.dst = some kind) : g.op? e.src = none := by
  obtain ⟨o, ho, -⟩ := kind?_eq_some.1 hk
  obtain ⟨f, hf⟩ := ends_of_op_dst hg he ho
  exact op?_eq_none_of_fact hf

/-- A clean-up keeps the edges at the identities it keeps, on their ports, and all outputs of the
model. -/
lemma Cleaned.merged {fixed : String → Bool} {port : Edge → Nat} (hg : g.WellFormed)
    (hc : g.Cleaned fixed h port) (hm : g.Merged) : h.Merged := by
  -- an edge out of an identity, or into an operation, stays on its port
  have hport {e : Edge} (he : e ∈ g.edges) (hsrc : e.src ∈ g.live) (hdst : e.dst ∈ g.live)
      (hat : g.kind? e.src = some "Identity" ∨ ∃ kind, g.kind? e.dst = some kind) :
      port e = e.out := by
    refine hc.stays e he hsrc hdst fun kind hkind _ => ?_
    rcases hat with hk | ⟨kind', hk⟩
    · exact hm.compact _ hk
    · rw [Graph.kind?, op?_eq_none_of_reader hg he hk] at hkind
      cases hkind
  have hkept {e : Edge} (he : e ∈ g.edges) (hsrc : e.src ∈ g.live) (hdst : e.dst ∈ g.live)
      (hat : g.kind? e.src = some "Identity" ∨ ∃ kind, g.kind? e.dst = some kind) :
      e ∈ h.edges := (hc.edges e).2 ⟨e, he, hsrc, hdst, by rw [hport he hsrc hdst hat]⟩
  refine hm.of_spared (fun id hid => (hc.kind?.1 hid).1) (fun e hat => ⟨fun he => ?_, fun he => ?_⟩)
    fun c hcg hread => ?_
  · obtain ⟨e', he', hsrc, hdst, rfl⟩ := (hc.edges e).1 he
    rw [hport he' hsrc hdst]
    · exact he'
    · exact hat.imp (fun hk => (hc.kind?.1 hk).1) fun hk => ⟨_, (hc.kind?.1 hk).1⟩
  · rcases hat with hk | hk
    · obtain ⟨hk, hsrc⟩ := hc.kind?.1 hk
      obtain ⟨o, ho, -⟩ := kind?_eq_some.1 hk
      exact hkept he hsrc (live_of_source hg he hsrc (ho ▸ rfl)) (.inl hk)
    · obtain ⟨hk, hdst⟩ := hc.kind?.1 hk
      obtain ⟨o, ho, -⟩ := kind?_eq_some.1 hk
      exact hkept he (live_of_target hg he hdst (ho ▸ rfl)) hdst (.inr ⟨_, hk⟩)
  · obtain ⟨o, ho, -⟩ := kind?_eq_some.1 hread
    obtain ⟨name, hn⟩ := op?_eq_some.1 ho
    have hneeded : g.Needed c.dst := .start (Graph.mem_roots.2 (.inl hread)) (hn ▸ rfl)
    exact ⟨hkept hcg (hneeded.source hg hcg).live hneeded.live (.inr ⟨_, hread⟩),
      hc.kind?.2 ⟨hread, hneeded.live⟩⟩

end Graph

end TensorGraph
