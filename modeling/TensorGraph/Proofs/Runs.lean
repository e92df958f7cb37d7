import TensorGraph.Proofs.Marks
import TensorGraph.Proofs.Orders
import TensorGraph.Proofs.Verdicts

/-!
What a run of inference comes to.

`Registry.Run` is a run over a list of nodes, visit by visit: a node is passed over or visited, and
what is not among the changed data is as it was. `run_of_gives` reads a run off an inference that
succeeds; `exists_gives` shows that one succeeds when every visit does.
-/

namespace TensorGraph

open Edit

namespace Registry

variable {r : Registry} {g h k : Graph} {id : NodeId}

/-! ### Visits -/

lemma visit_eq_ok : r.visit g id = .ok k ↔
    (g.op? id = none ∧ k = g) ∨ ∃ name o ws, g.node? id = some ⟨name, .op o⟩ ∧
      r.verdict o.kind (g.scene id name o.attributes) = .ok ws ∧
        k = (g.settle id ws).unmark id := by
  rcases hn : g.node? id with _ | ⟨name, o | f⟩
  · simp [visit, hn, Graph.op?, eq_comm]
  · have hop : g.op? id = some o := Graph.op?_eq_some.2 ⟨name, hn⟩
    rw [visit_eq r hn, map_eq_ok, hop]
    constructor
    · rintro ⟨ws, hv, rfl⟩
      exact Or.inr ⟨name, o, ws, rfl, hv, rfl⟩
    · rintro (⟨hnone, -⟩ | ⟨_, _, ws, heq, hv, rfl⟩)
      · cases hnone
      · cases heq
        exact ⟨ws, hv, rfl⟩
  · simp [visit, hn, Graph.op?, Node.operation?, eq_comm]

lemma skeleton_visit (hk : r.visit g id = .ok k) : k.skeleton = g.skeleton := by
  rcases visit_eq_ok.1 hk with ⟨-, rfl⟩ | ⟨name, o, ws, -, -, rfl⟩
  · rfl
  · rw [Graph.skeleton_unmark, Graph.skeleton_settle]

lemma flag?_visit (hk : r.visit g id = .ok k) (j : NodeId) :
    k.flag? j = if j = id then (g.flag? id).map fun _ => false else g.flag? j := by
  rcases visit_eq_ok.1 hk with ⟨hop, rfl⟩ | ⟨name, o, ws, -, -, rfl⟩
  · split
    · next hj =>
      rw [hj, Graph.flag?, hop]
      rfl
    · rfl
  · rw [Graph.flag?_unmark, Graph.flag?_settle, Graph.flag?_settle]

lemma visit_of_alike (hl : g.Alike h) (hk : r.visit g id = .ok k) :
    ∃ k', r.visit h id = .ok k' ∧ k.Alike k' := by
  rcases visit_eq_ok.1 hk with ⟨hop, rfl⟩ | ⟨name, o, ws, hn, hv, rfl⟩
  · exact ⟨h, visit_eq_ok.2 (Or.inl ⟨hl.op? id ▸ hop, rfl⟩), hl⟩
  · refine ⟨(h.settle id ws).unmark id, ?_, (hl.settle ws).unmark id⟩
    exact visit_eq_ok.2 (Or.inr ⟨name, o, ws, hl.node? id ▸ hn, hl.scene .. ▸ hv, rfl⟩)

/-! ### Runs -/

/-- A run of inference over a list of nodes with data that changed before. -/
inductive Run (r : Registry) : List NodeId → List NodeId → Graph → Graph → Prop
  | nil {changed : List NodeId} {g h : Graph} : g.Alike h → Run r changed [] g h
  | data {changed rest : List NodeId} {id : NodeId} {g h : Graph} : g.op? id = none →
      Run r changed rest g h → Run r changed (id :: rest) g h
  | skip {changed rest : List NodeId} {id : NodeId} {g h : Graph} : g.flag? id = some false →
      (∀ d ∈ g.sources id, d ∉ changed) → Run r changed rest g h → Run r changed (id :: rest) g h
  | visit {changed more rest : List NodeId} {id : NodeId} {o : Operation} {g k h : Graph} :
      g.op? id = some o → (g.flag? id = some true ∨ ∃ d ∈ g.sources id, d ∈ changed) →
      r.visit g id = .ok k → (∀ d ∉ more, k.fact? d = g.fact? d) →
      Run r (more ++ changed) rest k h → Run r changed (id :: rest) g h

lemma Run.of_alike {changed l : List NodeId} (hl : g.Alike k) (hrun : r.Run changed l g h) :
    r.Run changed l k h := by
  induction hrun generalizing k with
  | nil halike => exact .nil (hl.symm.trans halike)
  | data hop _ ih => exact .data (hl.op? _ ▸ hop) (ih hl)
  | @skip _ _ _ g _ hflag hsrc _ ih =>
    have hs : k.sources = g.sources :=
      funext (Graph.sources_of_skeleton hl.symm.skeleton)
    exact .skip (hl.flag? _ ▸ hflag) (hs ▸ hsrc) (ih hl)
  | @visit _ _ _ id o g _ _ hop hwhy hk hsame _ ih =>
    obtain ⟨k', hk', hl'⟩ := visit_of_alike hl hk
    have hs : k.sources = g.sources := funext (Graph.sources_of_skeleton hl.symm.skeleton)
    refine .visit (hl.op? _ ▸ hop) (hl.flag? _ ▸ hs ▸ hwhy) hk' (fun d hd => ?_) (ih hl')
    rw [← hl'.fact?, hsame d hd, hl.fact?]

/-- The graphs in which runs are looked at: well-formed, with operations that read nothing they
write. -/
structure Runnable (g : Graph) : Prop where
  wellFormed : g.WellFormed
  apart : ∀ op, g.Apart op

lemma Runnable.of_skeleton (hs : h.skeleton = g.skeleton) (hg : Runnable g) : Runnable h :=
  ⟨hg.wellFormed.of_skeleton hs, fun op => (hg.apart op).of_skeleton hs⟩

/-- Runs of inference, unfolded at the first node. -/
lemma gives_inferAmong_cons {changed rest : List NodeId} {visited n : Nat} :
    Gives (r.inferAmong changed visited (id :: rest)) g n h ↔
      (∃ f, g.fact? id = some f ∧ Gives (r.inferAmong changed visited rest) g n h) ∨
      ∃ o, g.op? id = some o ∧
        if o.needsInference || (g.sources id).any (· ∈ changed) then
          ∃ more k, Gives (r.inferNode id) g more k ∧
            Gives (r.inferAmong (more ++ changed) (visited + 1) rest) k n h
        else Gives (r.inferAmong changed visited rest) g n h := by
  rw [inferAmong, gives_bind]
  simp only [gives_query, Graph.node_eq_ok]
  rcases hn : g.node? id with _ | ⟨name, o | f⟩
  · simp [Graph.fact?, Graph.op?, hn]
  · have hop : g.op? id = some o := Graph.op?_eq_some.2 ⟨name, hn⟩
    have hfact := Graph.fact?_eq_none_of_op hop
    simp only [hop, hfact, reduceCtorEq, false_and, exists_false, false_or, Option.some.injEq,
      exists_eq_left']
    constructor
    · rintro ⟨_, _, ⟨rfl, rfl⟩, hx⟩
      simp only [Node.operation?, gives_bind, gives_query, Graph.inputs_ok hop,
        Except.ok.injEq] at hx
      obtain ⟨_, _, ⟨rfl, rfl⟩, hx⟩ := hx
      split at hx
      · next hc =>
        rw [if_pos hc]
        exact gives_bind.1 hx
      · next hc =>
        rw [if_neg hc]
        exact hx
    · intro hx
      refine ⟨_, g, ⟨rfl, rfl⟩, ?_⟩
      simp only [Node.operation?, gives_bind, gives_query, Graph.inputs_ok hop, Except.ok.injEq]
      refine ⟨_, g, ⟨rfl, rfl⟩, ?_⟩
      split at hx
      · next hc =>
        rw [if_pos hc]
        exact gives_bind.2 hx
      · next hc =>
        rw [if_neg hc]
        exact hx
  · have hfact : g.fact? id = some f := Graph.fact?_eq_some.2 ⟨name, hn⟩
    have hop := Graph.op?_eq_none_of_fact hfact
    simp only [hop, hfact, reduceCtorEq, false_and, exists_false, or_false, Option.some.injEq,
      exists_eq_left']
    constructor
    · rintro ⟨_, _, ⟨rfl, rfl⟩, hx⟩
      exact hx
    · intro hx
      exact ⟨_, g, ⟨rfl, rfl⟩, hx⟩

/-- Runs of inference that fail, unfolded at the first node. -/
lemma stops_inferAmong_cons (hn : (g.node? id).isSome) {changed rest : List NodeId} {visited : Nat}
    {e : Error} :
    Stops (r.inferAmong changed visited (id :: rest)) g e h ↔
      (g.op? id = none ∧ Stops (r.inferAmong changed visited rest) g e h) ∨
      ∃ o, g.op? id = some o ∧
        if o.needsInference || (g.sources id).any (· ∈ changed) then
          Stops (r.inferNode id) g e h ∨ ∃ more k, Gives (r.inferNode id) g more k ∧
            Stops (r.inferAmong (more ++ changed) (visited + 1) rest) k e h
        else Stops (r.inferAmong changed visited rest) g e h := by
  obtain ⟨n, hn⟩ := Option.isSome_iff_exists.1 hn
  have hnode : g.node id = .ok n := Graph.node_eq_ok.2 hn
  rw [inferAmong, stops_bind]
  simp only [stops_query, gives_query, hnode, reduceCtorEq, false_and, false_or, Except.ok.injEq]
  rcases ho : n.operation? with _ | o
  · have hop : g.op? id = none := by rw [Graph.op?, hn, Option.bind_some, ho]
    simp [hop, ho]
  · have hop : g.op? id = some o := by rw [Graph.op?, hn, Option.bind_some, ho]
    simp only [hop, reduceCtorEq, false_and, false_or, Option.some.injEq, exists_eq_left']
    constructor
    · rintro ⟨_, _, ⟨rfl, rfl⟩, hx⟩
      simp only [ho, stops_bind, stops_query, gives_query, Graph.inputs_ok hop, reduceCtorEq,
        false_and, false_or, Except.ok.injEq] at hx
      obtain ⟨_, _, ⟨rfl, rfl⟩, hx⟩ := hx
      split at hx
      · next hc =>
        rw [if_pos hc]
        exact stops_bind.1 hx
      · next hc =>
        rw [if_neg hc]
        exact hx
    · intro hx
      refine ⟨n, g, ⟨rfl, rfl⟩, ?_⟩
      simp only [ho, stops_bind, stops_query, gives_query, Graph.inputs_ok hop, reduceCtorEq,
        false_and, false_or, Except.ok.injEq]
      refine ⟨_, g, ⟨rfl, rfl⟩, ?_⟩
      split at hx
      · next hc =>
        rw [if_pos hc]
        exact stops_bind.2 hx
      · next hc =>
        rw [if_neg hc]
        exact hx

lemma fails_inferAmong_cons (hn : (g.node? id).isSome) {changed rest : List NodeId} {visited : Nat}
    {e : Error} :
    Fails (r.inferAmong changed visited (id :: rest)) g e ↔
      (g.op? id = none ∧ Fails (r.inferAmong changed visited rest) g e) ∨
      ∃ o, g.op? id = some o ∧
        if o.needsInference || (g.sources id).any (· ∈ changed) then
          Fails (r.inferNode id) g e ∨ ∃ more k, Gives (r.inferNode id) g more k ∧
            Fails (r.inferAmong (more ++ changed) (visited + 1) rest) k e
        else Fails (r.inferAmong changed visited rest) g e := by
  rw [fails_iff_stops]
  simp only [stops_inferAmong_cons hn]
  rcases ho : g.op? id with _ | o
  · simp [fails_iff_stops]
  · simp only [reduceCtorEq, false_and, false_or, Option.some.injEq, exists_eq_left']
    split <;> simp only [fails_iff_stops]
    constructor
    · rintro ⟨h, hx | ⟨more, k, hx, hrest⟩⟩
      · exact .inl ⟨h, hx⟩
      · exact .inr ⟨more, k, hx, h, hrest⟩
    · rintro (⟨h, hx⟩ | ⟨more, k, hx, h, hrest⟩)
      · exact ⟨h, .inl hx⟩
      · exact ⟨h, .inr ⟨more, k, hx, hrest⟩⟩

/-- An inference over a list of nodes that succeeds is a run over the list. -/
theorem run_of_gives (hr : r.Local) {changed l : List NodeId} {visited n : Nat}
    (hg : Runnable g) (hx : Gives (r.inferAmong changed visited l) g n h) :
    r.Run changed l g h := by
  induction l generalizing changed visited g with
  | nil =>
    obtain ⟨-, rfl⟩ := gives_pure.1 hx
    exact .nil (.refl g)
  | cons id rest ih =>
    rcases gives_inferAmong_cons.1 hx with ⟨f, hf, hx⟩ | ⟨o, ho, hx⟩
    · exact .data (Graph.op?_eq_none_of_fact hf) (ih hg hx)
    · split at hx
      · -- the operation is visited
        next hwhy =>
        obtain ⟨more, k, hinfer, hx⟩ := hx
        obtain ⟨k', hk', hl, hsame⟩ := Gives.visit hr hg.wellFormed ho (hg.apart id) hinfer
        have hg' : Runnable k := hg.of_skeleton (hl.skeleton.trans (skeleton_visit hk'))
        refine .visit ho ?_ hk' hsame ((ih hg' hx).of_alike hl)
        rw [Graph.flag?_of_op? ho]
        simpa using hwhy
      · -- the operation is passed over
        next hwhy =>
        simp only [Bool.or_eq_true, not_or, Bool.not_eq_true, List.any_eq_true, decide_eq_true_eq,
          not_exists, not_and] at hwhy
        refine .skip ?_ hwhy.2 (ih hg hx)
        rw [Graph.flag?_of_op? ho, hwhy.1]

/-- Inference over a list of nodes succeeds when what holds of the graph and the nodes to come
lets each node be visited, and is kept. -/
theorem exists_gives (hr : r.Local) {I : List NodeId → Graph → Prop}
    (halike : ∀ {l g h}, g.Alike h → I l g → I l h)
    (hdata : ∀ {id rest g}, (g.fact? id).isSome → I (id :: rest) g → I rest g)
    (hskip : ∀ {id rest g}, g.flag? id = some false → I (id :: rest) g → I rest g)
    (hvisit : ∀ {id rest g}, (g.op? id).isSome → I (id :: rest) g →
      ∃ k, r.visit g id = .ok k ∧ I rest k)
    {l : List NodeId} (hg : Runnable g) (hlive : ∀ id ∈ l, (g.node? id).isSome) (hI : I l g)
    (changed : List NodeId) (visited : Nat) :
    ∃ n h, Gives (r.inferAmong changed visited l) g n h ∧ I [] h := by
  induction l generalizing changed visited g with
  | nil => exact ⟨visited, g, ⟨rfl, rfl⟩, hI⟩
  | cons id rest ih =>
    have hrest : ∀ i ∈ rest, (g.node? i).isSome := fun i hi => hlive i (List.mem_cons_of_mem id hi)
    obtain ⟨⟨name, o | f⟩, hn⟩ := Option.isSome_iff_exists.1 (hlive id (List.mem_cons_self ..))
    · have ho : g.op? id = some o := Graph.op?_eq_some.2 ⟨name, hn⟩
      by_cases hwhy : (o.needsInference || (g.sources id).any (· ∈ changed)) = true
      · obtain ⟨k', hk', hI'⟩ := hvisit (by rw [ho]; rfl) hI
        obtain ⟨more, k, hinfer, hl, -⟩ := gives_of_visit hr hg.wellFormed ho (hg.apart id) hk'
        have hskel := hl.skeleton.trans (skeleton_visit hk')
        have hrest' : ∀ i ∈ rest, (k.node? i).isSome := fun i hi => by
          rw [Graph.isSome_node?_of_skeleton hskel]
          exact hrest i hi
        obtain ⟨n, h, hx, hI''⟩ := ih (hg.of_skeleton hskel) hrest' (halike hl.symm hI')
          (more ++ changed) (visited + 1)
        refine ⟨n, h, gives_inferAmong_cons.2 (Or.inr ⟨o, ho, ?_⟩), hI''⟩
        rw [if_pos hwhy]
        exact ⟨more, k, hinfer, hx⟩
      · have hflag : g.flag? id = some false := by
          rw [Graph.flag?_of_op? ho]
          simp only [Bool.or_eq_true, not_or, Bool.not_eq_true] at hwhy
          rw [hwhy.1]
        obtain ⟨n, h, hx, hI'⟩ := ih hg hrest (hskip hflag hI) changed visited
        refine ⟨n, h, gives_inferAmong_cons.2 (Or.inr ⟨o, ho, ?_⟩), hI'⟩
        rw [if_neg hwhy]
        exact hx
    · have hf : g.fact? id = some f := Graph.fact?_eq_some.2 ⟨name, hn⟩
      obtain ⟨n, h, hx, hI'⟩ := ih hg hrest (hdata (by rw [hf]; rfl) hI) changed visited
      exact ⟨n, h, gives_inferAmong_cons.2 (Or.inl ⟨f, hf, hx⟩), hI'⟩

/-! ### Runs over a graph -/

lemma gives_inferMarked {n : Nat} : Gives r.inferMarked g n h ↔
    ∃ l, g.evalOrder = .ok l ∧ Gives (r.inferAmong [] 0 l) g n h := by
  unfold inferMarked
  simp only [gives_bind, gives_query, gives_note, gives_pure]
  constructor
  · rintro ⟨l, _, ⟨hl, rfl⟩, _, _, hx, _, _, rfl, rfl, rfl⟩
    exact ⟨l, hl, hx⟩
  · rintro ⟨l, hl, hx⟩
    exact ⟨l, g, ⟨hl, rfl⟩, n, h, hx, (), h, rfl, rfl, rfl⟩

lemma runnable_of_evalOrder (hg : g.WellFormed) {l : List NodeId} (hl : g.evalOrder = .ok l) :
    Runnable g := ⟨hg, (Graph.ordered_of_evalOrder hl).apart hg⟩

lemma fails_inferMarked {l : List NodeId} (hl : g.evalOrder = .ok l) {e : Error}
    (hx : Fails (r.inferAmong [] 0 l) g e) : Fails r.inferMarked g e := by
  unfold inferMarked
  simp only [fails_bind, gives_query, hl, Except.ok.injEq]
  exact Or.inr ⟨l, g, ⟨rfl, rfl⟩, Or.inl hx⟩

/-- Inference of all operations puts every mark on and infers what is marked. -/
lemma gives_inferAll {n : Nat} : Gives r.inferAll g n h ↔
    ∃ k, Gives (g.opNodes.forM mark) g () k ∧ k.Alike (g.flagOps g.opNodes) ∧
      Gives r.inferMarked k n h := by
  obtain ⟨k, hk, hl⟩ := gives_flagOps gives_mark_op (g := g) (l := g.opNodes)
    fun _ hi => Graph.mem_opNodes.1 hi
  unfold inferAll
  simp only [gives_bind, gives_current]
  constructor
  · rintro ⟨_, _, ⟨rfl, rfl⟩, _, k', hk', hx⟩
    obtain ⟨-, rfl⟩ := hk.unique hk'
    exact ⟨k, hk, hl, hx⟩
  · rintro ⟨k', hk', -, hx⟩
    exact ⟨g, g, ⟨rfl, rfl⟩, (), k', hk', hx⟩

lemma fails_inferAll (hk : Gives (g.opNodes.forM mark) g () k) {e : Error}
    (hx : Fails r.inferMarked k e) : Fails r.inferAll g e := by
  unfold inferAll
  simp only [fails_bind, gives_current]
  exact Or.inr ⟨g, g, ⟨rfl, rfl⟩, Or.inr ⟨(), k, hk, hx⟩⟩

end Registry

end TensorGraph
