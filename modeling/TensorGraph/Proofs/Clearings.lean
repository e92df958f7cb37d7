import TensorGraph.Proofs.FixedPoints
import TensorGraph.Proofs.Optimized
import TensorGraph.Proofs.Splices

/-!
One pass removes all identities that can be removed.

The pass works on a list of identities drawn up before it begins. Splicing one of them out makes no
other one removable (`Spliced.removable`), so those that can still be removed are always among the
rest of the list (`Graph.Clearing`), and at its end the graph is merged. What follows the pass keeps
it so, and a pass over a merged graph does nothing. Hence two applications are always enough, and
the standard pipeline never gives up (`optimize_never_exhausted`).
-/

namespace TensorGraph

open Edit

namespace Graph

variable {g h : Graph} {id keep drop j : NodeId} {c e : Edge} {l : List NodeId}

/-! ### Splicing out an identity -/

namespace Spliced

variable (hs : g.Spliced h id c.src e.dst) (hw : g.Passes id c e) (hg : g.WellFormed)

include hs

lemma kind?_eq_some {kind : String} (hk : h.kind? j = some kind) :
    g.kind? j = some kind ∧ j ≠ id := by
  obtain ⟨o, ho, rfl⟩ := Graph.kind?_eq_some.1 hk
  obtain ⟨ho', -, hj⟩ := hs.op?_eq_some ho
  exact ⟨Graph.kind?_eq_some.2 ⟨o, ho', rfl⟩, hj⟩

include hw hg

/-- An output of the model reads on what another identity writes. -/
lemma exists_result {f f' : Edge} (hf : f ∈ g.edges) (hj : g.kind? f.src = some "Identity")
    (hne : f.src ≠ id) (hf' : f' ∈ g.edges) (hread : f'.src = f.dst)
    (hresult : g.kind? f'.dst = some "Result") :
    f' ∈ h.edges ∧ h.kind? f'.dst = some "Result" := by
  obtain ⟨o, ho, -⟩ := Graph.kind?_eq_some.1 hj
  obtain ⟨o₀, ho₀, -⟩ := Graph.kind?_eq_some.1 hw.kind
  obtain ⟨o', ho', -⟩ := Graph.kind?_eq_some.1 hresult
  obtain ⟨d, hd⟩ := ends_of_op_src hg hf ho
  obtain ⟨d', hd'⟩ := ends_of_op_src hg hw.output (hw.src ▸ ho₀)
  have hread' : f'.src ≠ e.dst := fun heq => by
    refine hne ?_
    rw [eq_of_dst_eq hg hf hw.output (hread.symm.trans heq) hd, hw.src]
  have hsrc : f'.src ≠ id := fun heq => by
    rw [← hread, heq, fact?_eq_none_of_op ho₀] at hd
    cases hd
  have hdst : f'.dst ≠ e.dst := fun heq => by
    rw [heq, op?_eq_none_of_fact hd'] at ho'
    cases ho'
  have hid : f'.dst ≠ id := fun heq => by
    rw [heq, hw.kind] at hresult
    exact absurd hresult (by decide)
  refine ⟨hs.stays f' hf' hread' hdst hsrc hid, ?_⟩
  rw [kind?, op?, hs.node?, if_neg (not_or.2 ⟨hdst, hid⟩)]
  exact hresult

/-- What can be removed afterwards could be removed before. -/
lemma removable (hr : h.Removable j) : g.Removable j := by
  obtain ⟨hkind, ⟨f, hf, hfdst, hinp⟩, f', hf', hsrc, hout, hfree⟩ := hr
  obtain ⟨hkind', hne⟩ := hs.kind?_eq_some hkind
  obtain ⟨o, ho, -⟩ := Graph.kind?_eq_some.1 hkind
  have hmem : f' ∈ g.edges := (hs.mem_edges_output hw hg (hsrc.symm ▸ ho)).1 hf'
  refine ⟨hkind', ?_, f', hmem, hsrc, hout, fun r hr hread hresult => ?_⟩
  · rcases hs.old f hf with ⟨hf, -⟩ | ⟨-, c', hc', -, hdst', hinp'⟩
    · exact ⟨f, hf, hfdst, hinp⟩
    · exact ⟨c', hc', hdst'.trans hfdst, hinp'.trans hinp⟩
  · obtain ⟨hr', hresult'⟩ :=
      hs.exists_result hw hg hmem (hsrc.symm ▸ hkind') (hsrc.symm ▸ hne) hr hread hresult
    exact hfree r hr' hread hresult'

/-- The other operations keep their output ports. -/
lemma compact {kind : String} (hk : h.kind? j = some kind) (hc : g.Compact j) : h.Compact j := by
  obtain ⟨o, ho, -⟩ := Graph.kind?_eq_some.1 hk
  intro f hf hsrc n hn
  obtain ⟨f', hf', hsrc', hout⟩ :=
    hc f ((hs.mem_edges_output hw hg (hsrc.symm ▸ ho)).1 hf) hsrc n hn
  exact ⟨f', (hs.mem_edges_output hw hg (hsrc'.symm ▸ ho)).2 hf', hsrc', hout⟩

end Spliced

/-! ### The pass -/

lemma removable_of_skeleton (hs : h.skeleton = g.skeleton) : h.Removable j ↔ g.Removable j := by
  unfold Removable
  simp only [kind?_of_skeleton hs, edges_of_skeleton hs]

lemma compact_of_skeleton (hs : h.skeleton = g.skeleton) : h.Compact j ↔ g.Compact j := by
  unfold Compact
  rw [edges_of_skeleton hs]

/-- The pass stands before a list of identities, and all that can be removed are on it. -/
structure Clearing (l : List NodeId) (g : Graph) : Prop where
  wellFormed : g.WellFormed
  listed : ∀ i ∈ l, (g.node? i).isSome → g.kind? i = some "Identity"
  left : ∀ i, g.Removable i → i ∈ l
  compact : ∀ i, g.kind? i = some "Identity" → g.Compact i

/-- One step of the pass. -/
lemma Clearing.step (hc : g.Clearing (id :: l)) (hx : Gives (Edit.removeIdentity id) g () h) :
    h.Clearing l := by
  have hg := hc.wellFormed
  have hh : h.WellFormed := hx.keeps (keeps_removeIdentity id) hg
  have hid := hc.listed id (List.mem_cons_self ..) (isSome_node?_of_removeIdentity hx)
  rcases gives_removeIdentity hg hid hx with rfl | ⟨-, c, e, k, hw, hs, hk, ha⟩
  · have hnot : ¬ h.Removable id := by
      rcases removeIdentity_settled hg hx with ⟨-, hnot⟩ | hlt
      · exact hnot
      · exact absurd hlt (Nat.lt_irrefl _)
    refine ⟨hh, fun i hi => hc.listed i (List.mem_cons_of_mem id hi), fun i hi => ?_, hc.compact⟩
    exact (List.mem_cons.1 (hc.left i hi)).resolve_left fun heq => hnot (heq ▸ hi)
  · have hkind {i : NodeId} {kind : String} (hi : h.kind? i = some kind) :
        g.kind? i = some kind ∧ i ≠ id :=
      hs.kind?_eq_some (kind?_of_skeleton ha.skeleton i ▸ hi)
    refine ⟨hh, fun i hi hlive => ?_, fun i hi => ?_, fun i hi => ?_⟩
    · rw [isSome_node?_of_skeleton ha.skeleton, hs.node?] at hlive
      split at hlive
      · cases hlive
      · next hne =>
        rw [kind?_of_skeleton ha.skeleton, kind?, op?, hs.node?, if_neg hne]
        exact hc.listed i (List.mem_cons_of_mem id hi) hlive
    · have hi' : g.Removable i := hs.removable hw hg ((removable_of_skeleton ha.skeleton).1 hi)
      exact (List.mem_cons.1 (hc.left i hi')).resolve_left (hkind hi.1).2
    · refine (compact_of_skeleton ha.skeleton).2 ?_
      exact hs.compact hw hg (kind?_of_skeleton ha.skeleton i ▸ hi) (hc.compact i (hkind hi).1)

/-- The whole pass. -/
lemma Clearing.run (hc : g.Clearing l) (hx : Gives (l.forM Edit.removeIdentity) g () h) :
    h.Clearing [] := by
  induction l generalizing g with
  | nil =>
    obtain ⟨-, rfl⟩ := gives_pure.1 hx
    exact hc
  | cons id l ih =>
    obtain ⟨_, k, hfirst, hrest⟩ := gives_bind.1 hx
    exact ih (hc.step hfirst) hrest

lemma Clearing.merged (hc : g.Clearing []) : g.Merged :=
  ⟨fun id hid => List.not_mem_nil (hc.left id hid), hc.compact⟩

/-- **One pass is enough**: where the ports of the identities have no gaps, none of them can be
removed after the pass. -/
theorem merged_of_removeIdentities (hg : g.WellFormed)
    (hcompact : ∀ i, g.kind? i = some "Identity" → g.Compact i)
    (hx : Gives Transformation.removeIdentity.apply g () h) : h.Merged := by
  obtain ⟨_, _, hcurrent, hx⟩ := gives_bind.1 hx
  obtain ⟨rfl, rfl⟩ := gives_current.1 hcurrent
  have hstart : g.Clearing (g.opNodesOf "Identity") :=
    ⟨hg, fun i hi _ => mem_opNodesOf.1 hi, fun i hi => mem_opNodesOf.2 hi.1, hcompact⟩
  exact (hstart.run hx).merged

/-- A pass that finds nothing to remove does nothing. -/
lemma eq_of_removeIdentities (hsettled : ∀ id, ¬ g.Removable id) (hg : g.WellFormed)
    (hx : Gives Transformation.removeIdentity.apply g () h) : h = g := by
  have hloop {l : List NodeId} (hl : ∀ i ∈ l, g.kind? i = some "Identity")
      (hx : Gives (l.forM Edit.removeIdentity) g () h) : h = g := by
    induction l with
    | nil => exact (gives_pure.1 hx).2.symm
    | cons id l ih =>
      obtain ⟨_, k, hfirst, hrest⟩ := gives_bind.1 hx
      rcases gives_removeIdentity hg (hl id (List.mem_cons_self ..)) hfirst with rfl | ⟨hid, -⟩
      · exact ih (fun i hi => hl i (List.mem_cons_of_mem id hi)) hrest
      · exact absurd hid (hsettled id)
  obtain ⟨_, _, hcurrent, hx⟩ := gives_bind.1 hx
  obtain ⟨rfl, rfl⟩ := gives_current.1 hcurrent
  exact hloop (fun i hi => mem_opNodesOf.1 hi) hx

end Graph

/-! ### Sessions that do not give up -/

namespace Session

variable {α β : Type} {I : Graph → Prop}

/-- The session keeps a property of graphs when it succeeds, and fails with ordinary errors only. -/
def Meets (I : Graph → Prop) (x : Session α) : Prop :=
  ∀ count g, I g → Ends x count g fun r _ h =>
    match r with
    | .ok _ => I h
    | .error e => e.Ordinary

lemma meets_pure (a : α) : Meets I (Pure.pure a) := fun _ _ hg => ends_pure hg

lemma meets_liftM {x : Edit α} (hk : Edit.Keeps I x) (hf : ∀ {g e}, Edit.Fails x g e → e.Ordinary) :
    Meets I (liftM x : Session α) := fun _ _ hg =>
  ends_liftM (fun _ _ hx => hx.keeps hk hg) fun _ _ he => hf he

lemma meets_bind {x : Session α} {f : α → Session β} (hx : Meets I x) (hf : ∀ a, Meets I (f a)) :
    Meets I (x >>= f) := fun count g hg => ends_bind <| (hx count g hg).mono fun r n k hr => by
  cases r with
  | error e => exact hr
  | ok a => exact hf a n k hr

lemma meets_within {context : String} {x : Session α} (hx : Meets I x) :
    Meets I (x.within context) := fun count g hg => ends_within <| (hx count g hg).mono
  fun r _ _ hr => by cases r <;> exact hr

lemma meets_discard {x : Session α} (hx : Meets I x) : Meets I (discard x) :=
  fun count g hg => ends_discard <| (hx count g hg).mono fun r _ _ hr => by cases r <;> exact hr

lemma meets_forM {l : List α} {f : α → Session Unit} (hf : ∀ a ∈ l, Meets I (f a)) :
    Meets I (l.forM f) := by
  induction l with
  | nil => exact meets_pure ()
  | cons a l ih =>
    refine meets_bind (hf a (List.mem_cons_self ..)) fun _ => ?_
    exact ih fun b hb => hf b (List.mem_cons_of_mem a hb)

end Session

/-- The graph is well-formed and the output ports of its identities have no gaps. -/
structure Graph.Seamless (g : Graph) : Prop where
  wellFormed : g.WellFormed
  compact : ∀ id, g.kind? id = some "Identity" → g.Compact id

lemma Graph.Seamless.of_skeleton {g h : Graph} (hs : h.skeleton = g.skeleton) (hg : g.Seamless) :
    h.Seamless where
  wellFormed := hg.wellFormed.of_skeleton hs
  compact id hid := (compact_of_skeleton hs).2 (hg.compact id (kind?_of_skeleton hs id ▸ hid))

namespace Pipeline

variable {p : Pipeline} {g h : Graph} (hr : p.registry.entries = Registry.standard.entries)

include hr

lemma normalize_eq : p.normalize = (standardWith p.registry.rules).normalize := by
  obtain ⟨⟨entries, rules⟩, ts, o⟩ := p
  obtain rfl : entries = Registry.standard.entries := hr
  rfl

lemma Normal.seamless (hn : p.Normal g) : g.Seamless where
  wellFormed := hn.wellFormed
  compact id hid := hn.tidy.compact id "Identity" hid (by
    unfold Registry.isFixed Registry.find?
    rw [hr]
    rfl)

/-- An application to identities merges the graph, and leaves one that is merged. -/
lemma ends_applyOnce_removeIdentity (count : Nat) (hg : g.Seamless) :
    Session.Ends (p.applyOnce .removeIdentity) count g fun r _ k =>
      match r with
      | .ok changed => k.Seamless ∧ k.Merged ∧ (g.Merged → changed = false)
      | .error e => e.Ordinary := by
  have hst : Structural Transformation.removeIdentity.apply :=
    structural_standard (.tail _ (.head _))
  refine (ends_applyOnce _ count g).mono fun r _ k happ => ?_
  cases happ with
  | failed he => exact hst.fails he
  | astray _ he => exact (structural_normalize p).fails he
  | @done m _ happly hnext =>
    have hm : m.WellFormed := happly.keeps (hst.keeps invariant_wellFormed.shaped) hg.wellFormed
    have hmerged : m.Merged := Graph.merged_of_removeIdentities hg.wellFormed hg.compact happly
    refine ⟨(hnext.normal rfl hm).seamless hr, ?_, fun hmerged => ?_⟩
    · exact merged_of_normalize hm hmerged (normalize_eq hr ▸ hnext.gives rfl)
    · obtain rfl := Graph.eq_of_removeIdentities hmerged.settled hg.wellFormed happly
      exact decide_eq_false fun hne => hne rfl

/-- Two applications to identities are enough. -/
lemma meets_applyRepeatedly (n : Nat) :
    Session.Meets Graph.Seamless (p.applyRepeatedly .removeIdentity (n + 2)) := by
  intro count g hg
  refine Session.ends_bind ((ends_applyOnce_removeIdentity hr count hg).mono
    fun r count k hend => ?_)
  cases r with
  | error e => exact hend
  | ok changed =>
    obtain ⟨hk, hmerged, -⟩ := hend
    refine Session.ends_ite (fun _ => ?_) fun _ => Session.ends_pure hk
    refine Session.ends_bind ((ends_applyOnce_removeIdentity hr count hk).mono
      fun r count k' hend => ?_)
    cases r with
    | error e => exact hend
    | ok changed =>
      obtain ⟨hk', -, hsame⟩ := hend
      rw [hsame hmerged]
      exact Session.ends_pure hk'

/-- A transformation that is applied once leaves no gaps either. -/
lemma meets_applyOnce {t : Transformation} (ht : t ∈ Transformation.standard) :
    Session.Meets Graph.Seamless (p.applyOnce t) := by
  intro count g hg
  refine (ends_applyOnce t count g).mono fun r _ k happ => ?_
  cases happ with
  | failed he => exact (structural_standard ht).fails he
  | astray _ he => exact (structural_normalize p).fails he
  | done happly hnext =>
    by_cases hk : t.descriptor.kind = .pattern
    · exact (hnext.normal hk (happly.keeps (keeps_standard ht) hg.wellFormed)).seamless hr
    · rw [Followed, if_neg hk] at hnext
      obtain rfl := hnext
      -- the only one that is not followed by a normalization changes attributes
      simp only [Transformation.standard, List.mem_cons, List.not_mem_nil, or_false] at ht
      rcases ht with rfl | rfl | rfl | rfl
      · exact absurd rfl hk
      · exact absurd rfl hk
      · exact absurd rfl hk
      · exact hg.of_skeleton (skeleton_of_normalizeGatherAxes happly).1

lemma meets_runOne (hmax : 2 ≤ p.options.maxIterations) {t : Transformation}
    (ht : t ∈ Transformation.standard) : Session.Meets Graph.Seamless (p.runOne t) := by
  unfold runOne
  split
  · exact Session.meets_discard (meets_applyOnce hr ht)
  · next hmode =>
    -- identities are removed until none is left, all others are applied once
    simp only [Transformation.standard, List.mem_cons, List.not_mem_nil, or_false] at ht
    rcases ht with rfl | rfl | rfl | rfl
    · cases hmode
    · obtain ⟨n, hn⟩ := Nat.exists_eq_add_of_le' hmax
      rw [hn]
      exact meets_applyRepeatedly hr n
    · cases hmode
    · cases hmode

lemma meets_runStage (hmax : 2 ≤ p.options.maxIterations) {ts : List Transformation}
    (hts : ∀ t ∈ ts, t ∈ Transformation.standard) (s : Stage) :
    Session.Meets Graph.Seamless (p.runStage ts s) := by
  have hnote (level : Level) (text : String) :
      Session.Meets Graph.Seamless (liftM (note level text) : Session Unit) :=
    Session.meets_liftM (keeps_note _ _) (orderly_note (C := fun _ => False) _ _).fails
  unfold runStage
  split
  · refine Session.meets_bind (Session.meets_liftM (fun k hk => ?_) nofun) fun _ => ?_
    · exact hk.of_skeleton (Graph.skeleton_stage k s)
    · exact Session.meets_forM fun t ht => Session.meets_within
        (meets_runOne hr hmax (hts t (List.mem_filter.1 ht).1))
  · exact hnote _ _

omit hr in
lemma plain_order (ds : List Descriptor) : Plain (Schedule.order ds) := by
  unfold Schedule.order
  rcases Schedule.duplicate? [] ds with _ | id
  · rcases hback : (Schedule.dependencies ds).find? (Schedule.isBackward ds) with _ | pair
    · simp only [hback]
      exact plain_bind (plain_ensure (fun _ h => by cases h)) fun _ => plain_pure _
    · simp only [hback]
      exact plain_error fun _ h => by cases h
  · exact plain_error fun _ h => by cases h

omit hr in
lemma tame_scheduleLogged : Tame p.scheduleLogged :=
  orderly_bind (orderly_forM fun m => orderly_note m.level m.text) fun _ =>
    orderly_lift (plain_bind (plain_order _) fun _ => plain_pure _)

lemma ends_optimizeIn (hts : p.transformations = Transformation.standard)
    (hmax : 2 ≤ p.options.maxIterations) (count : Nat) (hg : g.WellFormed) :
    Session.Ends p.optimizeIn count g fun r _ _ =>
      match r with
      | .ok _ => True
      | .error e => e.Ordinary := by
  refine Session.ends_bind (Session.ends_lift (fun ts k hsched => ?_)
    fun _ _ he => tame_scheduleLogged.fails he)
  have hts : ∀ t ∈ ts, t ∈ Transformation.standard := fun t ht =>
    hts ▸ p.mem_schedule (gives_scheduleLogged hsched) ht
  have hk : k.WellFormed := hsched.keeps keeps_scheduleLogged hg
  refine Session.ends_bind (Session.ends_lift (fun _ m hnormal => ?_)
    fun _ _ he => (orderly_within (structural_normalize p)).fails he)
  have hm : m.Seamless := (normal_of_gives hk (gives_within.1 hnormal)).seamless hr
  refine Session.ends_bind ((Session.meets_forM (fun s _ => meets_runStage hr hmax hts s) count m
    hm).mono fun r _ _ hend => ?_)
  cases r with
  | error e => exact hend
  | ok _ =>
    exact Session.ends_bind (Session.ends_count (Session.ends_liftM (fun _ _ _ => trivial)
      fun _ _ he => absurd he fails_note))

end Pipeline

/-- **Two iterations are enough**: the standard pipeline, with any transformations disabled and any
stages left out, never fails because removing identities does not come to an end, whatever rules the
operations name. -/
theorem optimize_never_exhausted {g : Graph} (hg : g.WellFormed) (rules : Dict Rule) {o : Options}
    (hmax : 2 ≤ o.maxIterations) (context : List String) (bound : Nat) :
    ¬ Fails { Pipeline.standardWith rules with options := o }.optimize g
      ⟨context, .noFixedPoint bound⟩ := by
  intro he
  obtain ⟨r, count, h, hrun, hend⟩ := Pipeline.ends_optimizeIn
    (p := { Pipeline.standardWith rules with options := o }) rfl rfl hmax 0 hg
  rcases fails_bind.1 he with he | ⟨_, _, hrun', he⟩
  · cases he.symm.trans hrun.1
  · obtain ⟨rfl, rfl⟩ := hrun.unique hrun'
    cases r with
    | ok _ => cases he
    | error e =>
      obtain rfl : e = _ := Except.error.inj he
      exact hend bound rfl

/-- Two identities in a row need two iterations, and one is not enough. -/
theorem optimize_never_exhausted_passedTwice :
    let g := (passedTwice.run ∅).graph
    g.WellFormed ∧ (∀ context bound, ¬ Fails
        { Pipeline.standardWith .empty with options := ⟨2, [], Stage.all⟩ }.optimize g
        ⟨context, .noFixedPoint bound⟩) ∧
      Fails { Pipeline.standardWith .empty with options := ⟨1, [], Stage.all⟩ }.optimize g
        ⟨["Running transformation RemoveIdentity"], .noFixedPoint 1⟩ := by
  intro g
  have hg : g.WellFormed := by decide +kernel
  refine ⟨hg, optimize_never_exhausted hg .empty (Nat.le_refl 2), ?_⟩
  show (Edit.run _ _).result = .error _
  decide +kernel

end TensorGraph
