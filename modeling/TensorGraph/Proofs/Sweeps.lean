import TensorGraph.Proofs.Runs

/-!
Inference when every operation is marked.

Then no operation is passed over, so a run visits the nodes of the order one after the other
(`Registry.sweep`).
-/

namespace TensorGraph

open Edit

/-- No operation of the list is unmarked. -/
def Graph.Flagged (g : Graph) (l : List NodeId) : Prop := ∀ id ∈ l, g.flag? id ≠ some false

lemma Graph.Flagged.alike {g h : Graph} {l : List NodeId} (hg : g.Flagged l) (hl : g.Alike h) :
    h.Flagged l := fun id hid => hl.flag? id ▸ hg id hid

lemma Graph.flagged_flagOps (g : Graph) (l : List NodeId) : (g.flagOps g.opNodes).Flagged l := by
  intro id _
  rw [Graph.flag?_flagOps]
  split
  · rcases g.flag? id with _ | b <;> simp
  · next hid =>
    unfold Graph.flag?
    rcases ho : g.op? id with _ | o
    · simp
    · exact absurd (Graph.mem_opNodes.2 (ho ▸ rfl)) hid

namespace Registry

variable {r : Registry} {g h k : Graph} {id : NodeId} {l : List NodeId}

/-- Visits the nodes of a list. -/
def sweep (r : Registry) (g : Graph) (l : List NodeId) : Except Error Graph := l.foldlM r.visit g

lemma sweep_cons_eq_ok : r.sweep g (id :: l) = .ok k ↔
    ∃ h, r.visit g id = .ok h ∧ r.sweep h l = .ok k := by
  unfold sweep
  rw [List.foldlM_cons, bind_eq_ok]

lemma skeleton_sweep (hk : r.sweep g l = .ok k) : k.skeleton = g.skeleton := by
  induction l generalizing g with
  | nil =>
    cases hk
    rfl
  | cons id l ih =>
    obtain ⟨h, hh, hk⟩ := sweep_cons_eq_ok.1 hk
    rw [ih hk, skeleton_visit hh]

/-- A visit leaves the marks of the nodes to come. -/
lemma flagged_visit (hk : r.visit g id = .ok k) (hg : g.Flagged (id :: l)) (hid : id ∉ l) :
    k.Flagged l := by
  intro j hj
  have hne : j ≠ id := fun heq => hid (heq ▸ hj)
  rw [flag?_visit hk, if_neg hne]
  exact hg j (List.mem_cons_of_mem id hj)

lemma sweep_of_alike (hl : g.Alike h) (hk : r.sweep g l = .ok k) :
    ∃ k', r.sweep h l = .ok k' ∧ k.Alike k' := by
  induction l generalizing g h with
  | nil =>
    cases hk
    exact ⟨h, rfl, hl⟩
  | cons id l ih =>
    obtain ⟨g', hg', hk⟩ := sweep_cons_eq_ok.1 hk
    obtain ⟨h', hh', hl'⟩ := visit_of_alike hl hg'
    obtain ⟨k', hk', halike⟩ := ih hl' hk
    exact ⟨k', sweep_cons_eq_ok.2 ⟨h', hh', hk'⟩, halike⟩

/-- A run in which every operation is marked visits all of them. -/
lemma sweep_of_run {changed : List NodeId} (hrun : r.Run changed l g h) (hflag : g.Flagged l)
    (hl : l.Nodup) : ∃ k, r.sweep g l = .ok k ∧ h.Alike k := by
  induction hrun with
  | nil halike => exact ⟨_, rfl, halike.symm⟩
  | @data _ rest id g h hop _ ih =>
    obtain ⟨k, hk, halike⟩ :=
      ih (fun i hi => hflag i (List.mem_cons_of_mem id hi)) (List.nodup_cons.1 hl).2
    exact ⟨k, sweep_cons_eq_ok.2 ⟨g, visit_eq_ok.2 (Or.inl ⟨hop, rfl⟩), hk⟩, halike⟩
  | @skip _ rest id _ _ hskip _ _ _ => exact absurd hskip (hflag id (List.mem_cons_self ..))
  | visit _ _ hk _ _ ih =>
    obtain ⟨hid, hrest⟩ := List.nodup_cons.1 hl
    obtain ⟨k', hk', halike⟩ := ih (flagged_visit hk hflag hid) hrest
    exact ⟨k', sweep_cons_eq_ok.2 ⟨_, hk, hk'⟩, halike⟩

/-- A sweep that succeeds is a run of inference. -/
lemma exists_gives_of_sweep (hr : r.Local) (hg : Runnable g) (hflag : g.Flagged l) (hl : l.Nodup)
    (hlive : ∀ id ∈ l, (g.node? id).isSome) (hk : r.sweep g l = .ok k) :
    ∃ n h, Gives (r.inferAmong [] 0 l) g n h ∧ h.Alike k := by
  have := exists_gives hr (g := g) (l := l)
    (I := fun rest g => g.Flagged rest ∧ rest.Nodup ∧ ∃ k', r.sweep g rest = .ok k' ∧ k'.Alike k)
    ?_ ?_ ?_ ?_ hg hlive ⟨hflag, hl, k, hk, .refl k⟩ [] 0
  · obtain ⟨n, h, hx, -, -, k', hk', halike⟩ := this
    cases hk'
    exact ⟨n, _, hx, halike⟩
  · rintro l g h hgh ⟨hflag, hl, k', hk', halike⟩
    obtain ⟨k'', hk'', halike'⟩ := sweep_of_alike hgh hk'
    exact ⟨hflag.alike hgh, hl, k'', hk'', halike'.symm.trans halike⟩
  · rintro id rest g hf ⟨hflag, hl, k', hk', halike⟩
    obtain ⟨h, hh, hrest⟩ := sweep_cons_eq_ok.1 hk'
    obtain ⟨f, hf⟩ := Option.isSome_iff_exists.1 hf
    rcases visit_eq_ok.1 hh with ⟨-, rfl⟩ | ⟨name, o, ws, hn, -, -⟩
    · exact ⟨fun i hi => hflag i (List.mem_cons_of_mem id hi), (List.nodup_cons.1 hl).2, k', hrest,
        halike⟩
    · cases (Graph.op?_eq_none_of_fact hf).symm.trans (Graph.op?_eq_some.2 ⟨name, hn⟩)
  · rintro id rest g hskip ⟨hflag, -⟩
    exact absurd hskip (hflag id (List.mem_cons_self ..))
  · rintro id rest g - ⟨hflag, hl, k', hk', halike⟩
    obtain ⟨h, hh, hk'⟩ := sweep_cons_eq_ok.1 hk'
    obtain ⟨hid, hrest⟩ := List.nodup_cons.1 hl
    exact ⟨h, hh, flagged_visit hh hflag hid, hrest, k', hk', halike⟩

/-- **Inference of marked graphs**: when every operation is marked, inference sweeps over the
evaluation order. -/
theorem sweep_of_gives (hr : r.Local) (hg : g.WellFormed) (hflag : ∀ l, g.Flagged l) {n : Nat}
    (hx : Gives r.inferMarked g n h) :
    ∃ l k, g.evalOrder = .ok l ∧ r.sweep g l = .ok k ∧ h.Alike k := by
  obtain ⟨l, hl, hx⟩ := gives_inferMarked.1 hx
  obtain ⟨k, hk, halike⟩ := sweep_of_run (run_of_gives hr (runnable_of_evalOrder hg hl) hx)
    (hflag l) (Graph.ordered_of_evalOrder hl).ready.nodup
  exact ⟨l, k, hl, hk, halike⟩

theorem gives_of_sweep (hr : r.Local) (hg : g.WellFormed) (hflag : ∀ l, g.Flagged l)
    (hl : g.evalOrder = .ok l) (hk : r.sweep g l = .ok k) :
    ∃ n h, Gives r.inferMarked g n h ∧ h.Alike k := by
  have hord := Graph.ordered_of_evalOrder hl
  obtain ⟨n, h, hx, halike⟩ := exists_gives_of_sweep hr (runnable_of_evalOrder hg hl) (hflag l)
    hord.ready.nodup (fun id hid => hord.mem.1 hid) hk
  exact ⟨n, h, gives_inferMarked.2 ⟨l, hl, hx⟩, halike⟩

end Registry

end TensorGraph
