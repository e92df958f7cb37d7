import TensorGraph.Proofs.Reshapes

/-!
What a successful run of the standard pipeline guarantees.

Each guarantee comes from one pass, and the later ones keep it: normalizations leave tidy graphs
without marks, the middle stage ends when no identity can be removed, and the last pass, which
nothing follows, writes attributes only.
-/

namespace TensorGraph

open Edit

namespace Graph

/-- A gathering of data of known shape along an axis that is written with a sign. -/
def SignedAxis (g : Graph) (id : NodeId) : Prop :=
  ∃ o, g.op? id = some o ∧ o.kind = "GatherElements" ∧
    (∃ e ∈ g.edges, e.dst = id ∧ e.inp = 0 ∧ ∃ f, g.fact? e.src = some f ∧ f.shape.isSome) ∧
    ∃ a axis, o.attributes.find? "axis" = some a ∧ a.toInt? = some axis ∧ axis < 0

end Graph

namespace Edit

variable {g h : Graph} {op : NodeId}

/-! ### Axes -/

lemma dataRank?_eq_ok (hg : g.WellFormed) {rank? : Option Nat} (hx : g.dataRank? op = .ok rank?)
    {e : Edge} (he : e ∈ g.edges) (hdst : e.dst = op) (hinp : e.inp = 0) {f : Fact}
    (hf : g.fact? e.src = some f) : rank? = f.shape.map (·.length) := by
  obtain ⟨o, ho⟩ := Graph.ends_of_fact_src hg he hf
  have hin : g.inputData op 0 = .ok (some e.src) := by
    rw [Graph.inputData_eq (hdst ▸ ho), (Graph.inSource_eq_some hg).2 ⟨e, he, hdst, hinp, rfl⟩]
  unfold Graph.dataRank? at hx
  rw [hin, ok_bind] at hx
  simp only [Graph.fact_eq_ok.2 hf, ok_bind] at hx
  exact (Except.ok.inj hx).symm

/-- The axis of a gathering is left when it has no sign or cannot be counted from the left, and is
written without one otherwise. -/
lemma gives_normalizeGatherAxis (hg : g.WellFormed) (hx : Gives (normalizeGatherAxis op) g () h) :
    h = g ∧ ¬ g.SignedAxis op ∨
      ∃ n : Nat, Gives (setAttribute op "axis" (.int n)) g () h := by
  obtain ⟨axis?, _, hquery, hx⟩ := gives_bind.1 hx
  obtain ⟨haxis, rfl⟩ := gives_query.1 hquery
  -- what the axis of an operation reads as has been found
  have hfound {o : Operation} (ho : g.op? op = some o) :
      axis? = (o.attributes.find? "axis").bind (·.toInt?) := by
    unfold Graph.axis? at haxis
    rw [Graph.operation_eq_ok.2 ho, ok_bind] at haxis
    exact (Except.ok.inj haxis).symm
  rcases axis? with _ | axis
  · refine .inl ⟨(gives_pure.1 hx).2.symm, ?_⟩
    rintro ⟨o, ho, -, -, a, axis, ha, hint, -⟩
    have := hfound ho
    simp [ha, hint] at this
  simp only at hx
  split at hx
  · next hpos =>
    refine .inl ⟨(gives_pure.1 hx).2.symm, ?_⟩
    rintro ⟨o, ho, -, -, a, axis', ha, hint, hneg⟩
    have := hfound ho
    simp only [ha, hint, Option.bind_some, Option.some.injEq] at this
    omega
  obtain ⟨rank?, _, hquery, hx⟩ := gives_bind.1 hx
  obtain ⟨hrank, rfl⟩ := gives_query.1 hquery
  rcases rank? with _ | rank
  · refine .inl ⟨(gives_pure.1 hx).2.symm, ?_⟩
    rintro ⟨o, -, -, ⟨e, he, hdst, hinp, f, hf, hshape⟩, -⟩
    have := dataRank?_eq_ok hg hrank he hdst hinp hf
    rw [eq_comm, Option.map_eq_none_iff] at this
    simp [this] at hshape
  · obtain ⟨n, _, hlift, hx⟩ := gives_bind.1 hx
    obtain ⟨-, rfl⟩ := gives_lift.1 hlift
    exact .inr ⟨n, hx⟩

/-- Writing the axis of one operation without a sign leaves no other one with a sign. -/
lemma signedAxis_of_setAttribute {n : Nat} (hx : Gives (setAttribute op "axis" (.int n)) g () h)
    {id : NodeId} (hs : h.SignedAxis id) : id ≠ op ∧ g.SignedAxis id := by
  have halike := alike_of_modifyOp hx
  have hedges : h.edges = g.edges := Graph.edges_congr halike.2
  obtain ⟨o, ho, hkind, hread, a, axis, ha, hint, hneg⟩ := hs
  rw [halike.op?, Graph.op?_modifyOp] at ho
  simp only [hedges, halike.fact?, Graph.fact?_modifyOp] at hread
  have hne : id ≠ op := by
    rintro rfl
    rw [if_pos rfl] at ho
    obtain ⟨o', -, rfl⟩ := Option.map_eq_some_iff.1 ho
    rw [Operation.withAttribute, Dict.find?_insert, if_pos rfl, Option.some.injEq] at ha
    subst ha
    obtain rfl := Option.some.inj hint
    omega
  rw [if_neg hne] at ho
  exact ⟨hne, o, ho, hkind, hread, a, axis, ha, hint, hneg⟩

/-- After the pass over all gatherings, no axis that can be counted from the left has a sign. -/
theorem not_signedAxis_of_normalizeGatherAxes (hg : g.WellFormed)
    (hx : Gives Transformation.normalizeGatherAxes.apply g () h) (id : NodeId) :
    ¬ h.SignedAxis id := by
  have hloop {l : List NodeId} {k : Graph} (hk : k.WellFormed)
      (hl : Gives (l.forM normalizeGatherAxis) k () h) :
      h.SignedAxis id → id ∉ l ∧ k.SignedAxis id := by
    induction l generalizing k with
    | nil =>
      obtain ⟨-, rfl⟩ := gives_pure.1 hl
      exact fun hs => ⟨List.not_mem_nil, hs⟩
    | cons op l ih =>
      obtain ⟨_, k', hfirst, hrest⟩ := gives_bind.1 hl
      intro hs
      obtain ⟨hnot, hs'⟩ := ih (hfirst.keeps (keeps_normalizeGatherAxis op) hk) hrest hs
      rw [List.mem_cons, not_or]
      rcases gives_normalizeGatherAxis hk hfirst with ⟨rfl, hop⟩ | ⟨n, hset⟩
      · exact ⟨⟨fun heq => hop (heq ▸ hs'), hnot⟩, hs'⟩
      · obtain ⟨hne, hs''⟩ := signedAxis_of_setAttribute hset hs'
        exact ⟨⟨hne, hnot⟩, hs''⟩
  obtain ⟨_, _, hcurrent, hx⟩ := gives_bind.1 hx
  obtain ⟨rfl, rfl⟩ := gives_current.1 hcurrent
  intro hs
  obtain ⟨hnot, o, ho, hkind, -⟩ := hloop hg hx hs
  exact hnot (Graph.mem_opNodesOf.2 (Graph.kind?_eq_some.2 ⟨o, ho, hkind⟩))

end Edit

namespace Pipeline

variable {rules : Dict Rule} {g h k : Graph}

/-! ### Stages -/

lemma normalized_of_passed {t : Transformation} (ht : t ∈ Transformation.standard)
    (hg : g.WellFormed) (hx : (standardWith rules).Passed t g h) : Normalized h := by
  obtain ⟨k, happly, hnormal⟩ := hx
  exact normalized_of_gives (happly.keeps (keeps_standard ht) hg) hnormal

lemma acyclic_of_passed {t : Transformation} (ht : t ∈ Transformation.standard)
    (hg : g.WellFormed) (hx : (standardWith rules).Passed t g h) : h.Acyclic := by
  obtain ⟨k, happly, hnormal⟩ := hx
  exact acyclic_of_normalize (happly.keeps (keeps_standard ht) hg) hnormal

/-- A normalization keeps a graph merged. -/
lemma merged_of_normalize (hg : g.WellFormed) (hm : g.Merged)
    (hx : Gives (standardWith rules).normalize g () h) : h.Merged := by
  obtain ⟨report, k, n, hclean, hinfer⟩ := gives_normalize hx
  obtain ⟨port, hcleaned⟩ := cleaned_of_gives hg hclean
  refine (hcleaned.merged hg hm).of_skeleton ?_
  exact hinfer.keeps
    ((standardWith rules).registry.keeps_inferMarked_of (Graph.unaffected_skeleton _)) rfl

lemma merged_of_passed (hg : g.WellFormed) (hm : g.Merged)
    (hx : (standardWith rules).Passed .pinReshapes g h) : h.Merged := by
  obtain ⟨k, happly, hnormal⟩ := hx
  have hk : k.WellFormed :=
    happly.keeps (keeps_standard (by simp [Transformation.standard])) hg
  exact merged_of_normalize hk (merged_of_pinReshapes hg hm happly) hnormal

/-- When the removal of identities has come to an end, the graph is merged. -/
lemma merged_of_settles (hg : g.WellFormed) (ht : g.Tidy Registry.standard.isFixed)
    (hx : (standardWith rules).Settles .removeIdentity g h) : h.WellFormed ∧ h.Merged := by
  induction hx with
  | @last g k h happly hrev hnormal =>
    rcases removeIdentities_settled hg happly with ⟨rfl, hnone⟩ | hlt
    · have hmerged : k.Merged :=
        ⟨hnone, fun id hid => ht.compact id "Identity" hid (by rfl)⟩
      exact ⟨(normalized_of_gives hg hnormal).wellFormed, merged_of_normalize hg hmerged hnormal⟩
    · omega
  | more hfirst _ ih =>
    have hk := normalized_of_passed (by simp [Transformation.standard]) hg hfirst
    exact ih hk.wellFormed hk.tidy

/-- The last pass changes attributes only. -/
lemma skeleton_of_normalizeGatherAxes
    (hx : Gives Transformation.normalizeGatherAxes.apply g () h) :
    h.skeleton = g.skeleton ∧ ((∀ id, g.flag? id ≠ some true) → ∀ id, h.flag? id ≠ some true) := by
  constructor
  · refine hx.keeps (P := fun k => k.skeleton = g.skeleton) ?_ rfl
    exact keeps_bind keeps_current fun _ => keeps_forM fun op _ =>
      keeps_normalizeGatherAxis_of (Graph.unaffected_skeleton _).attr op
  · refine hx.keeps (P := fun k => ∀ id, k.flag? id ≠ some true) ?_
    refine keeps_bind keeps_current fun _ => keeps_forM fun op _ =>
      keeps_normalizeGatherAxis_of (fun {k} id name value r hk j => ?_) op
    have hflag : (k.modifyOp id (·.withAttribute name value)).flag? j = k.flag? j :=
      Graph.flag?_modifyOp id fun _ => rfl
    exact fun hj => hk j (hflag ▸ hj)

/-- What the passes have come to is there at the end. -/
lemma normalized_of_optimize (hg : g.WellFormed)
    (hx : Gives (standardWith rules).optimize g () h) :
    Normalized h ∧ h.Acyclic ∧ h.Merged ∧ ∀ id, ¬ h.SignedAxis id := by
  obtain ⟨g₀, g₁, g₂, g₃, hfirst, hqueues, hidentities, hreshapes, haxes⟩ := gives_optimize hx
  have h₀ := normalized_of_gives hg hfirst
  have h₁ := normalized_of_passed (by simp [Transformation.standard])
    (wellFormed_stage h₀.wellFormed .front) hqueues
  obtain ⟨hwf₂, hmerged₂⟩ := merged_of_settles (wellFormed_stage h₁.wellFormed .middle)
    (h₁.tidy.of_skeleton (Graph.skeleton_stage _ _)) hidentities
  have h₃ := normalized_of_passed (by simp [Transformation.standard])
    (wellFormed_stage hwf₂ .back) hreshapes
  have hmerged₃ := merged_of_passed (wellFormed_stage hwf₂ .back)
    (hmerged₂.of_skeleton (Graph.skeleton_stage _ _)) hreshapes
  have hacyclic₃ := acyclic_of_passed (by simp [Transformation.standard])
    (wellFormed_stage hwf₂ .back) hreshapes
  obtain ⟨hskel, hflags⟩ := skeleton_of_normalizeGatherAxes haxes
  exact ⟨⟨h₃.wellFormed.of_skeleton hskel, h₃.tidy.of_skeleton hskel, hflags h₃.unmarked⟩,
    hacyclic₃.of_skeleton hskel, hmerged₃.of_skeleton hskel,
    not_signedAxis_of_normalizeGatherAxes h₃.wellFormed haxes⟩

/-- **What a successful run guarantees**, whatever rules the operations name: there is nothing to
clean up, no operation is due for inference, no identity can be removed, and no gathering of data of
known shape has an axis with a sign. -/
theorem optimize_settled (hg : g.WellFormed) (hx : Gives (standardWith rules).optimize g () h) :
    Gives (cleanUp Registry.standard.isFixed) h ⟨[], 0⟩ h ∧
      (∀ id o, h.op? id = some o → o.needsInference = false) ∧
      (∀ id, ¬ h.Removable id) ∧ ∀ id, ¬ h.SignedAxis id := by
  obtain ⟨hn, -, hmerged, haxes⟩ := normalized_of_optimize hg hx
  refine ⟨gives_cleanUp_of_tidy hn.wellFormed hn.tidy, fun id o ho => ?_, hmerged.settled, haxes⟩
  have hflag := hn.unmarked id
  rw [Graph.flag?_of_op? ho] at hflag
  simpa using hflag

end Pipeline

/-- A gathering along the last axis, of an input that an identity with a rule of its own passes
on. -/
def gatherLast : Edit Unit := do
  let x ← addParameter "x" [2, 3]
  let same ← wire "same"
    ((Operation.ofKind "Identity").withAttribute "infer" (.rule "two by three"))
    [x]
  let i ← addParameter "i" [2, 2]
  let y ← wire "y" ((Operation.ofKind "GatherElements").withAttribute "axis" (.int (-1))) [same, i]
  discard (addResult "out" y)

theorem optimize_settled_gatherLast :
    let p := Pipeline.standardWith
      (Dict.empty.insert "two by three" (RuleM.perform (.outputShape 0 [2, 3])))
    let g := (gatherLast.run ∅).graph
    let h := (p.optimize.run g).graph
    Gives p.optimize g () h ∧
      Gives (cleanUp Registry.standard.isFixed) h ⟨[], 0⟩ h ∧
      (∀ id o, h.op? id = some o → o.needsInference = false) ∧
      (∀ id, ¬ h.Removable id) ∧ ∀ id, ¬ h.SignedAxis id := by
  intro p g h
  have hx : Gives p.optimize g () h :=
    ⟨toOption_eq_some.1 (by decide +kernel), rfl⟩
  exact ⟨hx, Pipeline.optimize_settled (by decide +kernel) hx⟩

end TensorGraph
