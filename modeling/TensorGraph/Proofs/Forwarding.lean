import TensorGraph.Proofs.Clearings
import TensorGraph.Proofs.Successes

/-!
What the removal of all identities does to a graph without cycles.

A removable identity goes together with its output, and what read the output then reads the input,
which may be the output of another identity that goes (`Graph.Forwards`). The pass follows a list
drawn up before it begins. On the way the graph relates to the first one as at the end, for those
identities that are no longer on the list (`Graph.Forwarding`); that there are no cycles is what
lets each step succeed (`removeIdentities_forwards`).
-/

namespace TensorGraph

open Edit Relation

/-- The node without a mark for inference. -/
def Node.unmarked (n : Node) : Node := n.mapOperation fun o => { o with needsInference := false }

namespace Graph

variable {g h k : Graph} {id keep drop d d' r i j op : NodeId} {c e : Edge} {l : List NodeId}
  {o : Operation} {p : Nat}

lemma Agrees.unmarked (ha : g.Agrees h) (j : NodeId) :
    (g.node? j).map (·.unmarked) = (h.node? j).map (·.unmarked) := by
  have hlabel := label_of_skeleton ha.skeleton j
  have hattributes := ha.attributes j
  have hfact := ha.fact j
  unfold attributes? op? at hattributes
  unfold fact? at hfact
  rcases hg : g.node? j with _ | ⟨a, b | f⟩ <;> rcases hh : h.node? j with _ | ⟨a', b' | f'⟩ <;>
    rw [hg, hh] at hlabel hattributes hfact <;>
    simp_all [Node.label, Node.operation?, Node.fact?, Node.unmarked, Node.mapOperation]

/-! ### Where data is read from in the end -/

/-- `d` is the output of an identity that can be removed, and `d'` its input. -/
def Forwards (g : Graph) (d d' : NodeId) : Prop :=
  ∃ id c e, g.Removable id ∧ g.Passes id c e ∧ e.dst = d ∧ c.src = d'

/-- The data node goes with the identity that it comes from. -/
def Dropped (g : Graph) (d : NodeId) : Prop := ∃ d', g.Forwards d d'

/-- Going on from the outputs of removable identities to their inputs leads from `d` to `r`, and
`r` stays. -/
def Resolves (g : Graph) (d r : NodeId) : Prop := ReflTransGen g.Forwards d r ∧ ¬ g.Dropped r

lemma Removable.exists_passes (hr : g.Removable id) : ∃ c e, g.Passes id c e := by
  obtain ⟨hkind, ⟨c, hc, hdst, hinp⟩, e, he, hsrc, hout, -⟩ := hr
  exact ⟨c, e, hkind, hc, hdst, hinp, he, hsrc, hout⟩

lemma Passes.unique (hg : g.WellFormed) {c' e' : Edge} (hw : g.Passes id c e)
    (hw' : g.Passes id c' e') : c = c' ∧ e = e' := by
  obtain ⟨o, ho, -⟩ := kind?_eq_some.1 hw.kind
  obtain ⟨name, hn⟩ := op?_eq_some.1 ho
  exact ⟨hg.inp_unique hw.input hw'.input (hw.dst.trans hw'.dst.symm) (hw.inp.trans hw'.inp.symm),
    hg.out_unique hw.output hw'.output (hw.src ▸ hn) rfl (hw.src.trans hw'.src.symm)
      (hw.out.trans hw'.out.symm)⟩

lemma Forwards.unique (hg : g.WellFormed) (hd : g.Forwards d i) (hd' : g.Forwards d j) : i = j := by
  obtain ⟨id, c, e, -, hw, rfl, rfl⟩ := hd
  obtain ⟨id', c', e', -, hw', hdst, rfl⟩ := hd'
  obtain ⟨o, ho, -⟩ := kind?_eq_some.1 hw.kind
  obtain ⟨f, hf⟩ := ends_of_op_src hg hw.output (hw.src ▸ ho)
  obtain rfl := eq_of_dst_eq hg hw.output hw'.output hdst.symm hf
  obtain rfl : id = id' := hw.src.symm.trans hw'.src
  rw [(hw.unique hg hw').1]

/-- What stays leads no further. -/
lemma Resolves.unique (hg : g.WellFormed) (hr : g.Resolves d r) (hr' : g.Resolves d j) : r = j := by
  have hend : ∀ {a b : NodeId}, ¬ g.Dropped a → ReflTransGen g.Forwards a b → a = b := by
    intro a b ha hab
    rcases ReflTransGen.cases_head hab with rfl | ⟨c, hc, -⟩
    · rfl
    · exact absurd ⟨c, hc⟩ ha
  have hunique : Relator.RightUnique g.Forwards := fun _ _ _ => Forwards.unique hg
  rcases ReflTransGen.total_of_right_unique hunique hr.1 hr'.1 with h | h
  · exact hend hr.2 h
  · exact (hend hr'.2 h).symm

/-- `h` is `g` without the removable identities and their outputs. What read such an output reads
the data that stays in its place. -/
structure Forwarded (g h : Graph) : Prop where
  gone : ∀ {j}, g.Removable j ∨ g.Dropped j → h.node? j = none
  kept : ∀ {j}, ¬ (g.Removable j ∨ g.Dropped j) →
    (h.node? j).map (·.unmarked) = (g.node? j).map (·.unmarked)
  outputs : ∀ {e o}, h.op? e.src = some o → (e ∈ h.edges ↔ e ∈ g.edges)
  inputs : ∀ {op o p d}, h.op? op = some o → g.inSource op p = some d →
    ∃ r, h.inSource op p = some r ∧ ∀ r', g.Resolves d r' ↔ r' = r
  unread : ∀ {op o p}, h.op? op = some o → g.inSource op p = none → h.inSource op p = none

/-! ### One splice -/

namespace Spliced

variable (hs : g.Spliced h id c.src e.dst) (hw : g.Passes id c e)

include hs hw

/-- What reads the output of an identity could be reached from its input before. -/
lemma acyclic (ha : g.Acyclic) : h.Acyclic := by
  have hleads : ∀ a b, h.Leads a b → TransGen g.Leads a b := by
    rintro _ _ ⟨f, hf, rfl, rfl⟩
    rcases hs.old f hf with ⟨hf, -⟩ | ⟨hsrc, c', hc', hread, hdst, -⟩
    · exact .single ⟨f, hf, rfl, rfl⟩
    · rw [hsrc, ← hdst]
      exact .tail (.tail (.single ⟨c, hw.input, rfl, hw.dst⟩) ⟨e, hw.output, hw.src, rfl⟩)
        ⟨c', hc', hread, rfl⟩
  intro a hcycle
  exact ha a (hcycle.lift' (fun i => i) hleads)

variable (hg : g.WellFormed)

include hg

/-- The other identities can be removed as before. -/
lemma removable_iff (hr : g.Removable id) : h.Removable j ↔ g.Removable j ∧ j ≠ id := by
  refine ⟨fun hj => ⟨hs.removable hw hg hj, (hs.kind?_eq_some hj.1).2⟩, fun ⟨hj, hne⟩ => ?_⟩
  obtain ⟨o, ho, -⟩ := Graph.kind?_eq_some.1 hj.1
  obtain ⟨o₀, ho₀, -⟩ := Graph.kind?_eq_some.1 hw.kind
  obtain ⟨f₀, hf₀⟩ := ends_of_op_src hg hw.output (hw.src ▸ ho₀)
  have hdata {i : NodeId} {o : Operation} (hi : g.op? i = some o) : i ≠ e.dst := fun heq => by
    cases (op?_eq_none_of_fact hf₀).symm.trans (heq ▸ hi)
  have hkept {i : NodeId} {o : Operation} (hi : g.op? i = some o) (hid : i ≠ id) :
      h.kind? i = g.kind? i := by
    rw [kind?, kind?, op?, op?, hs.node?, if_neg (not_or.2 ⟨hdata hi, hid⟩)]
  obtain ⟨hkind, ⟨f, hf, hfdst, hinp⟩, f', hf', hsrc, hout, hfree⟩ := hj
  have hkind' : h.kind? j = some "Identity" := (hkept ho hne).trans hkind
  obtain ⟨o', ho', -⟩ := Graph.kind?_eq_some.1 hkind'
  refine ⟨hkind', ?_, f', (hs.mem_edges_output hw hg (hsrc ▸ ho')).2 hf', hsrc, hout, ?_⟩
  · by_cases hread : f.src = e.dst
    · obtain ⟨f₁, hf₁, -, hdst₁, hinp₁⟩ :=
        hs.moved f hf hread (hfdst ▸ hdata ho) (hfdst ▸ hne)
      exact ⟨f₁, hf₁, hdst₁.trans hfdst, hinp₁.trans hinp⟩
    · obtain ⟨f₁, hf₁⟩ := ends_of_op_dst hg hf (hfdst ▸ ho)
      refine ⟨f, hs.stays f hf hread (hfdst ▸ hdata ho) (fun heq => ?_) (hfdst ▸ hne), hfdst, hinp⟩
      cases (fact?_eq_none_of_op ho₀).symm.trans (heq ▸ hf₁)
  · -- a reader of the output has read it before, or what the identity passed on
    intro r hr' hread hresult
    obtain ⟨hresult, -⟩ := hs.kind?_eq_some hresult
    rcases hs.old r hr' with ⟨hr', -⟩ | ⟨-, c', hc', hcsrc, hdst, -⟩
    · exact hfree r hr' hread hresult
    · obtain ⟨-, -, e₁, he₁, hsrc₁, hout₁, hfree₁⟩ := hr
      obtain ⟨name, hn⟩ := Graph.op?_eq_some.1 ho₀
      obtain rfl : e₁ = e := hg.out_unique he₁ hw.output (hsrc₁ ▸ hn) rfl (hsrc₁.trans hw.src.symm)
        (hout₁.trans hw.out.symm)
      exact hfree₁ c' hc' hcsrc (hdst ▸ hresult)

/-- Another operation reads what it read, or the input of the identity in place of its output. -/
lemma inSource_eq (hh : h.WellFormed) (ho : h.op? op = some o) (hr : g.inSource op p = some r) :
    h.inSource op p = some (if r = e.dst then c.src else r) := by
  obtain ⟨o₀, ho₀, -⟩ := Graph.kind?_eq_some.1 hw.kind
  obtain ⟨ho', hdrop, hid⟩ := hs.op?_eq_some ho
  obtain ⟨f, hf, rfl, rfl, rfl⟩ := (inSource_eq_some hg).1 hr
  refine (inSource_eq_some hh).2 ?_
  split
  · next hread =>
    obtain ⟨f', hf', hsrc, hdst, hinp⟩ := hs.moved f hf hread hdrop hid
    exact ⟨f', hf', hdst, hinp, hsrc⟩
  · next hread =>
    obtain ⟨f₁, hf₁⟩ := ends_of_op_dst hg hf ho'
    refine ⟨f, hs.stays f hf hread hdrop (fun heq => ?_) hid, rfl, rfl, rfl⟩
    cases (fact?_eq_none_of_op ho₀).symm.trans (heq ▸ hf₁)

end Spliced

/-! ### The pass -/

/-- A removable identity that is no longer on the list, or its output. -/
def Spent (g : Graph) (l : List NodeId) (j : NodeId) : Prop :=
  ∃ id c e, g.Removable id ∧ g.Passes id c e ∧ id ∉ l ∧ (j = id ∨ j = e.dst)

/-- The pass over `g` has come to `k`, with a list of identities before it. -/
structure Forwarding (g : Graph) (l : List NodeId) (k : Graph) : Prop where
  wellFormed : k.WellFormed
  acyclic : k.Acyclic
  listed : ∀ i ∈ l, k.kind? i = some "Identity"
  left : ∀ i, k.Removable i ↔ g.Removable i ∧ i ∈ l
  gone : ∀ {j}, g.Spent l j → k.node? j = none
  kept : ∀ {j}, ¬ g.Spent l j → (k.node? j).map (·.unmarked) = (g.node? j).map (·.unmarked)
  outputs : ∀ {e o}, k.op? e.src = some o → (e ∈ k.edges ↔ e ∈ g.edges)
  inputs : ∀ {op o p d}, k.op? op = some o → g.inSource op p = some d →
    ∃ r, k.inSource op p = some r ∧ ReflTransGen g.Forwards d r
  unread : ∀ {op o p}, k.op? op = some o → g.inSource op p = none → k.inSource op p = none

lemma Forwarding.start (hg : g.WellFormed) (ha : g.Acyclic)
    (hl : ∀ i, i ∈ l ↔ g.kind? i = some "Identity") : g.Forwarding l g := by
  have hspent : ∀ j, ¬ g.Spent l j := by
    rintro j ⟨id, c, e, hr, -, hnot, -⟩
    exact hnot ((hl id).2 hr.1)
  exact ⟨hg, ha, fun i => (hl i).1, fun i => ⟨fun hr => ⟨hr, (hl i).2 hr.1⟩, And.left⟩,
    fun hj => absurd hj (hspent _), fun _ => rfl, fun _ => Iff.rfl,
    fun _ hd => ⟨_, hd, .refl⟩, fun _ hd => hd⟩

/-- An identity that cannot be removed is passed over. -/
lemma Forwarding.skip (hf : g.Forwarding (id :: l) k) (hnot : ¬ k.Removable id) :
    g.Forwarding l k := by
  have hne : ∀ {i}, g.Removable i → i ≠ id := by
    rintro i hi rfl
    exact hnot ((hf.left i).2 ⟨hi, List.mem_cons_self ..⟩)
  have hspent : ∀ {j}, g.Spent l j ↔ g.Spent (id :: l) j := by
    intro j
    refine exists_congr fun i => exists_congr fun c => exists_congr fun e =>
      and_congr_right fun hi => ?_
    simp only [List.mem_cons, hne hi, false_or]
  refine ⟨hf.wellFormed, hf.acyclic, fun i hi => hf.listed i (List.mem_cons_of_mem id hi),
    fun i => (hf.left i).trans (and_congr_right fun hi => ?_), fun hj => hf.gone (hspent.1 hj),
    fun hj => hf.kept fun hj' => hj (hspent.2 hj'), hf.outputs, hf.inputs, hf.unread⟩
  simp only [List.mem_cons, hne hi, false_or]

/-- An identity that is spliced out takes its output with it. -/
lemma spent_iff (hg : g.WellFormed) (hr : g.Removable id) (hw : g.Passes id c e) (hnot : id ∉ l) :
    g.Spent l j ↔ g.Spent (id :: l) j ∨ j = id ∨ j = e.dst := by
  constructor
  · rintro ⟨i, c', e', hi, hw', hmem, hj⟩
    by_cases heq : i = id
    · subst heq
      exact .inr ((hw.unique hg hw').2 ▸ hj)
    · exact .inl ⟨i, c', e', hi, hw', by simp [heq, hmem], hj⟩
  · rintro (⟨i, c', e', hi, hw', hmem, hj⟩ | hj)
    · exact ⟨i, c', e', hi, hw', fun h => hmem (List.mem_cons_of_mem id h), hj⟩
    · exact ⟨id, c, e, hr, hw, hnot, hj⟩

lemma Forwarding.splice (hg : g.WellFormed) (hf : g.Forwarding (id :: l) k) (hnot : id ∉ l)
    (hr : k.Removable id) (hw : k.Passes id c e) (hs : k.Spliced h id c.src e.dst)
    (hh : h.WellFormed) : g.Forwarding l h := by
  have hk := hf.wellFormed
  obtain ⟨o₀, ho₀, -⟩ := Graph.kind?_eq_some.1 hw.kind
  -- the identity has the same output in `g`
  have hr₀ : g.Removable id := ((hf.left id).1 hr).1
  obtain ⟨c₀, e₀, hw₀⟩ := hr₀.exists_passes
  have hout : g.Passes id c₀ e :=
    ⟨hw₀.kind, hw₀.input, hw₀.dst, hw₀.inp, (hf.outputs (hw.src ▸ ho₀)).1 hw.output, hw.src, hw.out⟩
  have hspent := fun j => spent_iff (j := j) hg hr₀ hout hnot
  obtain ⟨f₀, hf₀⟩ := ends_of_op_src hk hw.output (hw.src ▸ ho₀)
  have hin₀ : g.inSource id 0 = some c₀.src :=
    (inSource_eq_some hg).2 ⟨c₀, hw₀.input, hw₀.dst, hw₀.inp, rfl⟩
  have hin : k.inSource id 0 = some c.src :=
    (inSource_eq_some hk).2 ⟨c, hw.input, hw.dst, hw.inp, rfl⟩
  refine ⟨hh, hs.acyclic hw hf.acyclic, fun i hi => ?_, fun i => ?_, fun {j} hj => ?_,
    fun {j} hj => ?_, fun ho => ?_, fun {op o p d} ho hd => ?_, fun {op o p} ho hd => ?_⟩
  · have hkind := hf.listed i (List.mem_cons_of_mem id hi)
    obtain ⟨o, ho, -⟩ := Graph.kind?_eq_some.1 hkind
    have hne : i ≠ e.dst := fun heq => by
      cases (op?_eq_none_of_fact hf₀).symm.trans (heq ▸ ho)
    have hid : i ≠ id := fun heq => hnot (heq ▸ hi)
    rw [kind?, op?, hs.node?, if_neg (not_or.2 ⟨hne, hid⟩)]
    exact hkind
  · rw [hs.removable_iff hw hk hr, hf.left, List.mem_cons]
    constructor
    · rintro ⟨⟨hi, hmem⟩, hne⟩
      exact ⟨hi, hmem.resolve_left hne⟩
    · rintro ⟨hi, hmem⟩
      exact ⟨⟨hi, .inr hmem⟩, fun heq => hnot (heq ▸ hmem)⟩
  · rw [hs.node?]
    split
    · rfl
    · next hne => exact hf.gone (((hspent j).1 hj).resolve_right fun h => hne h.symm)
  · obtain ⟨hj, hne⟩ := not_or.1 (mt (hspent j).2 hj)
    rw [hs.node?, if_neg fun h => hne h.symm]
    exact hf.kept hj
  · exact (hs.mem_edges_output hw hk ho).trans (hf.outputs (hs.op?_eq_some ho).1)
  · obtain ⟨r, hr', hpath⟩ := hf.inputs (hs.op?_eq_some ho).1 hd
    refine ⟨_, hs.inSource_eq hw hk hh ho hr', ?_⟩
    split
    · next heq =>
      -- from the output of the identity to its input in `g`, and on to its input in `k`
      obtain ⟨r', hr', hon⟩ := hf.inputs ho₀ hin₀
      obtain rfl := Option.some.inj (hin.symm.trans hr')
      have hstep : g.Forwards r c₀.src := ⟨id, c₀, e, hr₀, hout, heq.symm, rfl⟩
      exact (hpath.tail hstep).trans hon
    · exact hpath
  · exact hs.inSource_eq_none (hf.unread (hs.op?_eq_some ho).1 hd)

lemma Forwarding.of_agrees (hf : g.Forwarding l k) (ha : h.Agrees k) : g.Forwarding l h := by
  have hs := ha.skeleton
  have hop {i : NodeId} {o : Operation} (ho : h.op? i = some o) : ∃ o', k.op? i = some o' :=
    exists_op?_of_skeleton hs.symm ho
  refine ⟨hf.wellFormed.of_skeleton hs, ?_, fun i hi =>
    (kind?_of_skeleton hs i).trans (hf.listed i hi),
    fun i => (removable_of_skeleton hs).trans (hf.left i), fun {j} hj => ?_,
    fun {j} hj => (ha.unmarked j).trans (hf.kept hj), fun {e o} ho => ?_,
      fun {op o p d} ho hd => ?_,
    fun {op o p} ho hd => ?_⟩
  · unfold Acyclic Leads
    rw [edges_of_skeleton hs]
    exact hf.acyclic
  · rw [← Option.not_isSome_iff_eq_none, isSome_node?_of_skeleton hs, hf.gone hj]
    exact Bool.false_ne_true
  · obtain ⟨o', ho'⟩ := hop ho
    rw [edges_of_skeleton hs]
    exact hf.outputs ho'
  · obtain ⟨o', ho'⟩ := hop ho
    rw [inSource_of_skeleton hs]
    exact hf.inputs ho' hd
  · obtain ⟨o', ho'⟩ := hop ho
    rw [inSource_of_skeleton hs]
    exact hf.unread ho' hd

lemma Forwarding.step (hg : g.WellFormed) (hf : g.Forwarding (id :: l) k) (hnot : id ∉ l) :
    ∃ h, Gives (removeIdentity id) k () h ∧ g.Forwarding l h := by
  have hkind := hf.listed id (List.mem_cons_self ..)
  obtain ⟨o, ho, -⟩ := Graph.kind?_eq_some.1 hkind
  obtain ⟨h, hx⟩ := exists_gives_removeIdentity hf.wellFormed hf.acyclic ho
  refine ⟨h, hx, ?_⟩
  rcases gives_removeIdentity hf.wellFormed hkind hx with rfl | ⟨hr, c, e, m, hw, hs, hm, ha⟩
  · refine hf.skip ?_
    rcases removeIdentity_settled hf.wellFormed hx with ⟨-, hnot⟩ | hlt
    · exact hnot
    · exact absurd hlt (Nat.lt_irrefl _)
  · exact (hf.splice hg hnot hr hw hs hm).of_agrees ha

lemma Forwarding.run (hg : g.WellFormed) (hf : g.Forwarding l k) (hl : l.Nodup) :
    ∃ h, Gives (l.forM removeIdentity) k () h ∧ g.Forwarding [] h := by
  induction l generalizing k with
  | nil => exact ⟨k, ⟨rfl, rfl⟩, hf⟩
  | cons id l ih =>
    obtain ⟨hnot, hl⟩ := List.nodup_cons.1 hl
    obtain ⟨m, hfirst, hm⟩ := hf.step hg hnot
    obtain ⟨h, hrest, hh⟩ := ih hm hl
    exact ⟨h, gives_bind.2 ⟨(), m, hfirst, hrest⟩, hh⟩

lemma nodup_opNodesOf (g : Graph) (kind : String) : (g.opNodesOf kind).Nodup :=
  g.nodup_entryIds.sublist (List.filter_sublist.map _)

lemma exists_gives_removeIdentities (hg : g.WellFormed) (ha : g.Acyclic) :
    ∃ h, Gives Transformation.removeIdentity.apply g () h ∧ g.Forwarding [] h := by
  obtain ⟨h, hx, hh⟩ := (Forwarding.start hg ha fun _ => mem_opNodesOf).run hg
    (nodup_opNodesOf g "Identity")
  exact ⟨h, gives_bind.2 ⟨g, g, gives_current.2 ⟨rfl, rfl⟩, hx⟩, hh⟩

/-- At the end all that could be removed is gone, and nothing that is left is read through it. -/
lemma Forwarding.forwarded (hg : g.WellFormed) (hf : g.Forwarding [] h) : g.Forwarded h := by
  have hspent : ∀ {j}, g.Spent [] j ↔ g.Removable j ∨ g.Dropped j := by
    intro j
    constructor
    · rintro ⟨id, c, e, hr, hw, -, rfl | rfl⟩
      · exact .inl hr
      · exact .inr ⟨_, id, c, e, hr, hw, rfl, rfl⟩
    · rintro (hr | ⟨_, id, c, e, hr, hw, rfl, -⟩)
      · obtain ⟨c, e, hw⟩ := hr.exists_passes
        exact ⟨j, c, e, hr, hw, List.not_mem_nil, .inl rfl⟩
      · exact ⟨id, c, e, hr, hw, List.not_mem_nil, .inr rfl⟩
  refine ⟨fun hj => hf.gone (hspent.2 hj), fun hj => hf.kept (mt hspent.1 hj), hf.outputs,
    fun {op o p d} ho hd => ?_, hf.unread⟩
  obtain ⟨r, hr, hpath⟩ := hf.inputs ho hd
  have hresolves : g.Resolves d r := by
    refine ⟨hpath, fun hdropped => ?_⟩
    obtain ⟨f, hf'⟩ := exists_fact_of_inSource hf.wellFormed ho hr
    obtain ⟨name, hn⟩ := fact?_eq_some.1 hf'
    cases (hf.gone (hspent.2 (.inr hdropped))).symm.trans hn
  refine ⟨r, hr, fun r' => ⟨fun hr' => hr'.unique hg hresolves, ?_⟩⟩
  rintro rfl
  exact hresolves

end Graph

/-- **Identities are removed in one pass**: in a graph without cycles the pass succeeds. It removes
exactly the identities that can be removed, each with its output, leaves the other nodes but for
their marks, and feeds each input port of an operation that stays from the data that its source
resolves to. A second pass does nothing. -/
theorem removeIdentities_forwards {g : Graph} (hg : g.WellFormed) (ha : g.Acyclic) :
    ∃ h, Gives Transformation.removeIdentity.apply g () h ∧ g.Forwarded h ∧
      Gives Transformation.removeIdentity.apply h () h := by
  obtain ⟨h, hx, hf⟩ := Graph.exists_gives_removeIdentities hg ha
  obtain ⟨k, hy, -⟩ := Graph.exists_gives_removeIdentities hf.wellFormed hf.acyclic
  have hsettled : ∀ id, ¬ h.Removable id := fun id hid =>
    List.not_mem_nil ((hf.left id).1 hid).2
  obtain rfl := Graph.eq_of_removeIdentities hsettled hf.wellFormed hy
  exact ⟨k, hx, hf.forwarded hg, hy⟩

/-- Of two identities in a row both go in one pass, and what read the second reads the input of the
first. -/
theorem removeIdentities_forwards_passedTwice :
    let g := (passedTwice.run ∅).graph
    let h := (Transformation.removeIdentity.apply.run g).graph
    g.WellFormed ∧ g.Acyclic ∧ Gives Transformation.removeIdentity.apply g () h ∧ g.Forwarded h ∧
      Gives Transformation.removeIdentity.apply h () h ∧
      g.inSource ⟨6⟩ 0 = some ⟨5⟩ ∧ h.inSource ⟨6⟩ 0 = some ⟨1⟩ ∧
      h.nodeIds = [⟨0⟩, ⟨1⟩, ⟨6⟩, ⟨7⟩, ⟨8⟩] := by
  intro g h
  have hg : g.WellFormed := by decide +kernel
  have horder : g.evalOrder = .ok [⟨0⟩, ⟨1⟩, ⟨2⟩, ⟨3⟩, ⟨4⟩, ⟨5⟩, ⟨6⟩, ⟨7⟩, ⟨8⟩] :=
    toOption_eq_some.1 (by decide +kernel)
  have ha : g.Acyclic := (Graph.ordered_of_evalOrder horder).acyclic hg
  obtain ⟨k, hx, hf, hy⟩ := removeIdentities_forwards hg ha
  obtain rfl : h = k := hx.2
  exact ⟨hg, ha, hx, hf, hy, by decide +kernel, by decide +kernel, by decide +kernel⟩

end TensorGraph
