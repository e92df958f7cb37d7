import Mathlib.Algebra.GroupWithZero.Nat
import Mathlib.Data.List.Sort
import TensorGraph.Proofs.Contents
import TensorGraph.Proofs.Structure

/-!
What closing the gaps in the output ports of operations comes to.

The edges are moved one by one, each to the place of its port among the ports of its operation
(`closedPort`). In the end they stand in the order in which they stood, without gaps, and the number
of those that are on another port is what the edit gives (`gives_compactAll`).
-/

namespace TensorGraph

open Edit

namespace Graph

variable {g h k : Graph} {op : NodeId}

/-! ### Edges on other ports -/

/-- `h` is `g` with the edges on other output ports. -/
structure Renumbered (g h : Graph) (port : Edge → Nat) : Prop where
  nodes : h.nodes = g.nodes
  edges : ∀ e, e ∈ h.edges ↔ ∃ e' ∈ g.edges, e = { e' with out := port e' }

variable {port port' : Edge → Nat}

lemma Renumbered.refl (g : Graph) : g.Renumbered g (·.out) := ⟨rfl, fun e => by simp⟩

lemma Renumbered.node? (hp : g.Renumbered h port) (id : NodeId) : h.node? id = g.node? id :=
  congrFun (node?_congr hp.nodes) id

lemma Renumbered.op? (hp : g.Renumbered h port) (id : NodeId) : h.op? id = g.op? id := by
  rw [Graph.op?, Graph.op?, hp.node?]

lemma Renumbered.perm (hp : g.Renumbered h port) :
    h.edges.Perm (g.edges.map fun e => { e with out := port e }) := by
  have hids : ((g.edges.map fun e => { e with out := port e }).map (·.id)).Nodup := by
    rw [List.map_map]
    exact g.nodup_edgeIds
  refine (List.perm_ext_iff_of_nodup h.nodup_edges (.of_map _ hids)).2 fun e => ?_
  rw [hp.edges, List.mem_map]
  exact exists_congr fun e' => and_congr_right fun _ => eq_comm

lemma Renumbered.trans (hp : g.Renumbered h port) (hq : h.Renumbered k port') :
    g.Renumbered k fun e => port' { e with out := port e } where
  nodes := hq.nodes.trans hp.nodes
  edges e := by
    rw [hq.edges]
    constructor
    · rintro ⟨e', he', rfl⟩
      obtain ⟨e'', he'', rfl⟩ := (hp.edges e').1 he'
      exact ⟨e'', he'', rfl⟩
    · rintro ⟨e', he', rfl⟩
      exact ⟨_, (hp.edges _).2 ⟨e', he', rfl⟩, rfl⟩

lemma Renumbered.congr (hp : g.Renumbered h port) (heq : ∀ e ∈ g.edges, port e = port' e) :
    g.Renumbered h port' where
  nodes := hp.nodes
  edges e := by
    rw [hp.edges]
    refine exists_congr fun e' => and_congr_right fun he' => ?_
    rw [heq e' he']

/-- The output ports of an operation have no gaps. -/
def Compact (g : Graph) (op : NodeId) : Prop :=
  ∀ e ∈ g.edges, e.src = op → ∀ n < e.out, ∃ f ∈ g.edges, f.src = op ∧ f.out = n

lemma Compact.renumbered (hc : g.Compact op) (hp : g.Renumbered h port)
    (hsame : ∀ e ∈ g.edges, e.src = op → port e = e.out) : h.Compact op := by
  intro e he hsrc n hn
  obtain ⟨e', he', rfl⟩ := (hp.edges e).1 he
  have hn' : n < e'.out := hsame e' he' hsrc ▸ hn
  obtain ⟨f, hf, hfsrc, hout⟩ := hc e' he' hsrc n hn'
  exact ⟨_, (hp.edges _).2 ⟨f, hf, rfl⟩, hfsrc, (hsame f hf hfsrc).trans hout⟩

end Graph

namespace Edit

variable {g h : Graph} {op : NodeId}

/-! ### Closing gaps -/

lemma gives_moves {moved : List Edge} (port : Nat → Nat) {u : Unit}
    (hmem : ∀ e ∈ moved, e ∈ g.edges) (hnodup : moved.Nodup)
    (hx : Gives (moved.forM fun e => renumberOutput e.id (port e.out)) g u h) :
    g.Renumbered h fun e => if e ∈ moved then port e.out else e.out := by
  induction moved generalizing g with
  | nil =>
    obtain ⟨-, rfl⟩ := gives_pure.1 hx
    simpa using Graph.Renumbered.refl g
  | cons e moved ih =>
    obtain ⟨_, k, hfirst, hrest⟩ := gives_bind.1 hx
    obtain ⟨-, rfl⟩ := gives_renumberOutput.1 hfirst
    obtain ⟨hnot, hnodup⟩ := List.nodup_cons.1 hnodup
    have he := hmem e (List.mem_cons_self ..)
    have hstep : g.Renumbered { g.setOutPort e.id (port e.out) with revision := g.revision + 1 }
        fun f => if f = e then port e.out else f.out := by
      refine ⟨rfl, fun f => Graph.mem_edges_setOutPort.trans ⟨?_, ?_⟩⟩
      · rintro (⟨hf, hid⟩ | ⟨f', hf', hid, rfl⟩)
        · have hne : f ≠ e := fun heq => hid (congrArg Edge.id heq)
          exact ⟨f, hf, by rw [if_neg hne]⟩
        · obtain rfl := Graph.eq_of_mem_edges hf' he hid
          exact ⟨f', hf', by rw [if_pos rfl]⟩
      · rintro ⟨f', hf', rfl⟩
        by_cases hfe : f' = e
        · exact .inr ⟨f', hf', congrArg Edge.id hfe, by rw [if_pos hfe]⟩
        · rw [if_neg hfe]
          exact .inl ⟨hf', fun hid => hfe (Graph.eq_of_mem_edges hf' he hid)⟩
    have hne {f : Edge} (hf : f ∈ moved) : f ≠ e := fun heq => hnot (heq ▸ hf)
    have hrest := ih (fun f hf => (hstep.edges f).2
      ⟨f, hmem f (List.mem_cons_of_mem e hf), by rw [if_neg (hne hf)]⟩) hnodup hrest
    refine (hstep.trans hrest).congr fun f hf => ?_
    by_cases hfe : f = e
    · subst hfe
      -- the edge that was moved is none of those to come, which have other numbers
      have hgone : { f with out := port f.out } ∉ moved := fun hin => by
        have hin' := hmem _ (List.mem_cons_of_mem f hin)
        exact hne hin (Graph.eq_of_mem_edges hin' hf rfl)
      simp [hgone]
    · simp [hfe]

/-- The port of an edge after the gaps in the output ports of some operations are closed. -/
def closedPort (g : Graph) (l : List NodeId) (e : Edge) : Nat :=
  if e.src ∈ l then (portsOf (g.outgoing e.src)).idxOf e.out else e.out

variable {k : Graph} {l : List NodeId} {e f : Edge} {port : Edge → Nat}

lemma closedPort_of_notMem (hnot : e.src ∉ l) : closedPort g l e = e.out := if_neg hnot

lemma gives_compactOutputs {n : Nat} (hx : Gives (compactOutputs op) g n h) :
    g.Renumbered h (closedPort g [op]) ∧
      n = g.edges.countP fun e => closedPort g [op] e ≠ e.out := by
  obtain ⟨edges, _, hquery, hx⟩ := gives_bind.1 hx
  obtain ⟨hedges, rfl⟩ := gives_query.1 hquery
  obtain ⟨-, rfl⟩ := outEdges_eq_ok.1 hedges
  obtain ⟨_, _, hmoves, hx⟩ := gives_bind.1 hx
  obtain ⟨rfl, rfl⟩ := gives_pure.1 hx
  have hnodup := (g.nodup_outgoing op).filter
    fun e => decide ((portsOf (g.outgoing op)).idxOf e.out ≠ e.out)
  -- the edges moved are those whose port is another one in the end
  have hmoved (e : Edge) : e ∈ (g.outgoing op).filter
      (fun e => (portsOf (g.outgoing op)).idxOf e.out ≠ e.out) ↔
      e ∈ g.edges ∧ closedPort g [op] e ≠ e.out := by
    rw [List.mem_filter, Graph.mem_outgoing, decide_eq_true_eq, and_assoc, closedPort]
    refine and_congr_right fun _ => ?_
    by_cases hsrc : e.src = op <;> simp [hsrc]
  constructor
  · refine (gives_moves (portsOf (g.outgoing op)).idxOf (fun e he => ((hmoved e).1 he).1) hnodup
      hmoves).congr fun e he => ?_
    split
    · next hin =>
      have hsrc := (Graph.mem_outgoing.1 (List.mem_filter.1 hin).1).2
      rw [closedPort, if_pos (List.mem_singleton.2 hsrc), hsrc]
    · next hnot => exact (not_not.1 fun hne => hnot ((hmoved e).2 ⟨he, hne⟩)).symm
  · rw [List.countP_eq_length_filter]
    refine ((List.perm_ext_iff_of_nodup hnodup (g.nodup_edges.filter _)).2 fun e => ?_).length_eq
    rw [hmoved, List.mem_filter, decide_eq_true_eq]

lemma pairwise_portsOf (hg : g.WellFormed) (hop : (g.op? op).isSome) :
    (portsOf (g.outgoing op)).Pairwise (· < ·) := by
  obtain ⟨s, hs, hs'⟩ := Graph.isSome_op?.1 hop
  rw [portsOf_outgoing hg hs hs', List.pairwise_map]
  exact rising_outgoing hg hs hs'

lemma mem_portsOf (hg : g.WellFormed) (hop : (g.op? op).isSome) {n : Nat} :
    n ∈ portsOf (g.outgoing op) ↔ ∃ e ∈ g.edges, e.src = op ∧ e.out = n := by
  obtain ⟨s, hs, hs'⟩ := Graph.isSome_op?.1 hop
  rw [portsOf_outgoing hg hs hs', List.mem_map]
  simp only [Graph.mem_outgoing, and_assoc]

lemma portsOf_of_renumbered (hg : g.WellFormed) (hh : h.WellFormed) (hren : g.Renumbered h port)
    (hop : (g.op? op).isSome) (hsame : ∀ e ∈ g.edges, e.src = op → port e = e.out) :
    portsOf (h.outgoing op) = portsOf (g.outgoing op) := by
  have hop' : (h.op? op).isSome := by rwa [hren.op?]
  refine (pairwise_portsOf hh hop').eq_of_mem_iff (pairwise_portsOf hg hop) fun n => ?_
  rw [mem_portsOf hh hop', mem_portsOf hg hop]
  constructor
  · rintro ⟨e, he, hsrc, rfl⟩
    obtain ⟨e', he', rfl⟩ := (hren.edges e).1 he
    exact ⟨e', he', hsrc, (hsame e' he' hsrc).symm⟩
  · rintro ⟨e, he, hsrc, rfl⟩
    exact ⟨_, (hren.edges _).2 ⟨e, he, rfl⟩, hsrc, hsame e he hsrc⟩

lemma idxOf_eq_self {l : List Nat} (hl : l.Pairwise (· < ·)) (hclosed : ∀ a ∈ l, ∀ n < a, n ∈ l)
    {a : Nat} (ha : a ∈ l) : l.idxOf a = a := by
  induction a with
  | zero => exact Nat.le_zero.1 (idxOf_add_le hl (k := 0) (fun _ _ => Nat.zero_le _) ha)
  | succ a ih =>
    have ha' := hclosed _ ha a (Nat.lt_succ_self a)
    have hlt := idxOf_lt_idxOf hl ha' ha (Nat.lt_succ_self a)
    have hle := idxOf_add_le hl (k := 0) (fun _ _ => Nat.zero_le _) ha
    rw [ih ha'] at hlt
    omega

lemma eq_range_length {l : List Nat} (hl : l.Pairwise (· < ·)) (hclosed : ∀ a ∈ l, ∀ n < a, n ∈ l) :
    l = List.range l.length := by
  refine List.ext_getElem (by simp) fun i hi _ => ?_
  have hnodup : l.Nodup := hl.imp Nat.ne_of_lt
  rw [List.getElem_range, ← idxOf_eq_self hl hclosed (List.getElem_mem hi)]
  exact hnodup.idxOf_getElem i hi

lemma mem_portsOf_of_compact (hc : g.Compact op) (hg : g.WellFormed) (hop : (g.op? op).isSome) :
    ∀ a ∈ portsOf (g.outgoing op), ∀ n < a, n ∈ portsOf (g.outgoing op) := by
  intro a ha n hn
  obtain ⟨e, he, hsrc, rfl⟩ := (mem_portsOf hg hop).1 ha
  exact (mem_portsOf hg hop).2 (hc e he hsrc n hn)

/-- Without gaps, the ports of an operation are those from 0 on. -/
lemma outgoing_of_compact (hc : g.Compact op) (hg : g.WellFormed) (hop : (g.op? op).isSome) :
    (g.outgoing op).map (·.out) = List.range (g.outgoing op).length := by
  obtain ⟨s, hs, hs'⟩ := Graph.isSome_op?.1 hop
  have hrange := eq_range_length (pairwise_portsOf hg hop) (mem_portsOf_of_compact hc hg hop)
  rwa [portsOf_outgoing hg hs hs', List.length_map] at hrange

/-- Without gaps, there is nothing to close. -/
lemma closedPort_of_compact (hg : g.WellFormed) (hl : ∀ op ∈ l, (g.op? op).isSome)
    (he : e ∈ g.edges) (hc : e.src ∈ l → g.Compact e.src) : closedPort g l e = e.out := by
  by_cases hsrc : e.src ∈ l
  · have hop := hl _ hsrc
    rw [closedPort, if_pos hsrc]
    exact idxOf_eq_self (pairwise_portsOf hg hop) (mem_portsOf_of_compact (hc hsrc) hg hop)
      ((mem_portsOf hg hop).2 ⟨e, he, rfl, rfl⟩)
  · exact closedPort_of_notMem hsrc

/-- Edges keep their order. -/
lemma closedPort_lt (hg : g.WellFormed) (hl : ∀ op ∈ l, (g.op? op).isSome) (he : e ∈ g.edges)
    (hf : f ∈ g.edges) (hsame : e.src = f.src) (hlt : e.out < f.out) :
    closedPort g l e < closedPort g l f := by
  unfold closedPort
  rw [hsame]
  split
  · next hsrc =>
    exact idxOf_lt_idxOf (pairwise_portsOf hg (hl _ hsrc))
      ((mem_portsOf hg (hl _ hsrc)).2 ⟨e, he, hsame, rfl⟩)
      ((mem_portsOf hg (hl _ hsrc)).2 ⟨f, hf, rfl, rfl⟩) hlt
  · exact hlt

lemma compact_of_renumbered (hg : g.WellFormed) (hop : (g.op? op).isSome) (hmem : op ∈ l)
    (hren : g.Renumbered h (closedPort g l)) : h.Compact op := by
  have hsorted := pairwise_portsOf hg hop
  have hclosed {e : Edge} (hsrc : e.src = op) :
      closedPort g l e = (portsOf (g.outgoing op)).idxOf e.out := by
    rw [closedPort, if_pos (hsrc ▸ hmem), hsrc]
  intro e he hsrc m hm
  obtain ⟨e', he', rfl⟩ := (hren.edges e).1 he
  have hport : closedPort g l e' = (portsOf (g.outgoing op)).idxOf e'.out := hclosed hsrc
  have hin : e'.out ∈ portsOf (g.outgoing op) := (mem_portsOf hg hop).2 ⟨e', he', hsrc, rfl⟩
  have hlt : m < (portsOf (g.outgoing op)).length :=
    Nat.lt_trans (hport ▸ hm) (List.idxOf_lt_length_of_mem hin)
  obtain ⟨f, hf, hfsrc, hfout⟩ := (mem_portsOf hg hop).1 (List.getElem_mem hlt)
  refine ⟨_, (hren.edges _).2 ⟨f, hf, rfl⟩, hfsrc, ?_⟩
  show closedPort g l f = m
  have hnodup : (portsOf (g.outgoing op)).Nodup := hsorted.imp Nat.ne_of_lt
  rw [hclosed hfsrc, hfout]
  exact hnodup.idxOf_getElem m hlt

/-- Closing the gaps of one operation, and then those of others. -/
lemma closedPort_cons (hg : g.WellFormed) (hk : k.WellFormed)
    (hren : g.Renumbered k (closedPort g [op])) (hl : ∀ a ∈ l, (g.op? a).isSome) (hnot : op ∉ l) :
    closedPort k l { e with out := closedPort g [op] e } = closedPort g (op :: l) e := by
  have hother {a : NodeId} (ha : a ≠ op) :
      ∀ e ∈ g.edges, e.src = a → closedPort g [op] e = e.out := fun e _ hsrc =>
    closedPort_of_notMem fun hin => ha (hsrc.symm.trans (List.mem_singleton.1 hin))
  by_cases hsrc : e.src = op
  · rw [closedPort_of_notMem (e := { e with out := _ }) (hsrc ▸ hnot), closedPort, closedPort,
      if_pos (List.mem_singleton.2 hsrc), if_pos (hsrc ▸ List.mem_cons_self ..)]
  · rw [closedPort_of_notMem (l := [op]) fun hin => hsrc (List.mem_singleton.1 hin)]
    by_cases hmem : e.src ∈ l
    · rw [closedPort, closedPort, if_pos hmem, if_pos (List.mem_cons_of_mem op hmem),
        portsOf_of_renumbered hg hk hren (hl _ hmem) (hother hsrc)]
    · rw [closedPort_of_notMem hmem, closedPort_of_notMem fun hin => hmem
        ((List.mem_cons.1 hin).resolve_left hsrc)]

lemma countP_add_countP {α : Type} {p q r : α → Bool} {l : List α}
    (h : ∀ a ∈ l, r a = (p a || q a) ∧ (p a && q a) = false) :
    l.countP p + l.countP q = l.countP r := by
  induction l with
  | nil => rfl
  | cons a l ih =>
    obtain ⟨hr, hdisjoint⟩ := h a (List.mem_cons_self ..)
    have ih := ih fun b hb => h b (List.mem_cons_of_mem a hb)
    rw [List.countP_cons, List.countP_cons, List.countP_cons, hr]
    cases hp : p a <;> cases hq : q a <;> simp [hp, hq] at hdisjoint ⊢ <;> omega

/-- Closing the gaps of operations one after the other. -/
lemma gives_compactAll {ns : List Nat} (hg : g.WellFormed) (hnodup : l.Nodup)
    (hl : ∀ op ∈ l, (g.op? op).isSome) (hx : Gives (l.mapM compactOutputs) g ns h) :
    g.Renumbered h (closedPort g l) ∧
      ns.sum = g.edges.countP fun e => closedPort g l e ≠ e.out := by
  induction l generalizing g ns with
  | nil =>
    obtain ⟨rfl, rfl⟩ := gives_pure.1 hx
    exact ⟨(Graph.Renumbered.refl g).congr fun e _ => rfl, by simp [closedPort]⟩
  | cons op l ih =>
    rw [List.mapM_cons] at hx
    obtain ⟨n, k, hfirst, hx⟩ := gives_bind.1 hx
    obtain ⟨rest, _, hrest, hx⟩ := gives_bind.1 hx
    obtain ⟨rfl, rfl⟩ := gives_pure.1 hx
    obtain ⟨hnot, hnodup⟩ := List.nodup_cons.1 hnodup
    have hl := fun a ha => hl a (List.mem_cons_of_mem op ha)
    have hk : k.WellFormed := hfirst.keeps (keeps_compactOutputs op) hg
    obtain ⟨hren, hn⟩ := gives_compactOutputs hfirst
    obtain ⟨hport, hsum⟩ := ih hk hnodup (fun a ha => hren.op? a ▸ hl a ha) hrest
    refine ⟨(hren.trans hport).congr fun e _ => closedPort_cons hg hk hren hl hnot, ?_⟩
    rw [List.sum_cons, hn, hsum, hren.perm.countP_eq, List.countP_map]
    refine countP_add_countP fun e _ => ?_
    -- an edge moves either with the first operation or with one of the others
    simp only [Function.comp_apply, closedPort_cons hg hk hren hl hnot]
    by_cases hsrc : e.src = op
    · simp [closedPort, hsrc]
    · have hsame : closedPort g [op] e = e.out := closedPort_of_notMem (by simpa using hsrc)
      simp [hsame]

lemma gives_compactOutputs_of_compact (hg : g.WellFormed) (hop : (g.op? op).isSome)
    (hc : g.Compact op) : Gives (compactOutputs op) g 0 g := by
  have hnone : (g.outgoing op).filter
      (fun e => (portsOf (g.outgoing op)).idxOf e.out ≠ e.out) = [] := by
    refine List.filter_eq_nil_iff.2 fun e he => ?_
    obtain ⟨hmem, hsrc⟩ := Graph.mem_outgoing.1 he
    have hport := closedPort_of_compact (l := [op]) hg (by simpa using hop) hmem fun _ => hsrc ▸ hc
    rw [closedPort, if_pos (List.mem_singleton.2 hsrc), hsrc] at hport
    simpa using hport
  obtain ⟨s, hs, -⟩ := Graph.isSome_op?.1 hop
  refine gives_bind.2 ⟨g.outgoing op, g, gives_query.2 ⟨outEdges_eq_ok.2 ⟨⟨s, hs⟩, rfl⟩, rfl⟩, ?_⟩
  simp only
  rw [hnone]
  exact ⟨rfl, rfl⟩

end Edit

end TensorGraph
