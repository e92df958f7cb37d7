import TensorGraph.Proofs.Commuting
import TensorGraph.Proofs.Incremental
import TensorGraph.Proofs.Passes

/-!
Which operations an inference of what is marked visits.

Rules are arbitrary here: they may look at anything, and write to their outputs, to inputs of their
own, and to the constants that these come from. `Registry.Visits` is a run with the operations it
visits. No visit changes an input of an operation that was passed over before, so that one run
settles all (`inferMarked_settles`).
-/

namespace TensorGraph

open Edit

namespace Graph

variable {g h : Graph} {id : NodeId}

/-- Data of which the same is known are the same nodes. -/
lemma node?_of_fact? (hs : h.skeleton = g.skeleton) (hsome : (g.fact? id).isSome)
    (hsame : h.fact? id = g.fact? id) : h.node? id = g.node? id := by
  obtain ⟨f, hf⟩ := Option.isSome_iff_exists.1 hsome
  obtain ⟨name, hn⟩ := fact?_eq_some.1 hf
  obtain ⟨name', hn'⟩ := fact?_eq_some.1 (hsame.trans hf)
  have hlabel := label_of_skeleton hs id
  rw [hn, hn'] at hlabel
  obtain rfl : name' = name := congrArg Prod.fst (Option.some.inj hlabel)
  rw [hn, hn']

end Graph

namespace Registry

variable {r : Registry} {g h k : Graph} {id j d : NodeId} {o : Operation}
  {changed more l visited : List NodeId}

/-! ### One visit -/

section

variable (hg : Runnable g) (ho : g.op? id = some o) (hx : Gives (r.inferNode id) g more k)

include hg ho hx

lemma skeleton_inferNode : k.skeleton = g.skeleton := by
  obtain ⟨ws, hl, -⟩ := exists_settle_of_inferNode hg.wellFormed ho hx
  rw [hl.skeleton, Graph.skeleton_unmark, Graph.skeleton_settle]

lemma flag?_inferNode (hne : j ≠ id) : k.flag? j = g.flag? j := by
  obtain ⟨ws, hl, -⟩ := exists_settle_of_inferNode hg.wellFormed ho hx
  rw [hl.flag?, Graph.flag?_unmark, if_neg hne, Graph.flag?_settle]

/-- What a visit says of data that another operation reads and that do not come from the operation
visited: nothing. -/
lemma fact?_inferNode {e : Edge} (he : e ∈ g.edges) (hdst : e.dst ≠ id)
    (hsrc : id ∉ g.sources e.src) :
    k.fact? e.src = g.fact? e.src := by
  obtain ⟨ws, hl, -⟩ := exists_settle_of_inferNode hg.wellFormed ho hx
  rw [hl.fact?, Graph.fact?_unmark]
  refine Graph.fact?_settle_of_reader hg.wellFormed ho (fun e' he' hsrc' hdst' => ?_) he rfl hdst ws
  exact hsrc (Graph.mem_sources.2 ⟨e', he', hdst', hsrc'⟩)

end

/-! ### Runs -/

/-- A run of inference over a list of nodes, with data that changed before, and the operations it
visits. -/
inductive Visits (r : Registry) :
    List NodeId → List NodeId → Graph → List NodeId → Graph → Prop
  | nil {changed : List NodeId} {g : Graph} : Visits r changed [] g [] g
  | data {changed rest visited : List NodeId} {id : NodeId} {f : Fact} {g h : Graph} :
      g.fact? id = some f → Visits r changed rest g visited h →
      Visits r changed (id :: rest) g visited h
  | skip {changed rest visited : List NodeId} {id : NodeId} {g h : Graph} :
      g.flag? id = some false → (∀ d ∈ g.sources id, d ∉ changed) →
      Visits r changed rest g visited h → Visits r changed (id :: rest) g visited h
  | visit {changed more rest visited : List NodeId} {id : NodeId} {o : Operation} {g k h : Graph} :
      g.op? id = some o → (g.flag? id = some true ∨ ∃ d ∈ g.sources id, d ∈ changed) →
      Gives (r.inferNode id) g more k → Visits r (more ++ changed) rest k visited h →
      Visits r changed (id :: rest) g (id :: visited) h

/-- An inference over a list of nodes counts the operations it visits. -/
theorem gives_inferAmong {n m : Nat} : Gives (r.inferAmong changed n l) g m h ↔
    ∃ visited, r.Visits changed l g visited h ∧ m = n + visited.length := by
  constructor
  · intro hx
    induction l generalizing changed n g with
    | nil =>
      obtain ⟨rfl, rfl⟩ := gives_pure.1 hx
      exact ⟨[], .nil, rfl⟩
    | cons id rest ih =>
      rcases gives_inferAmong_cons.1 hx with ⟨f, hf, hx⟩ | ⟨o, ho, hx⟩
      · obtain ⟨visited, hv, hm⟩ := ih hx
        exact ⟨visited, .data hf hv, hm⟩
      · have hflag := Graph.flag?_of_op? ho
        split at hx
        · next hwhy =>
          obtain ⟨more, k, hfirst, hx⟩ := hx
          obtain ⟨visited, hv, hm⟩ := ih hx
          refine ⟨id :: visited, .visit ho ?_ hfirst hv, ?_⟩
          · simpa [hflag] using hwhy
          · rw [hm, List.length_cons]
            omega
        · next hwhy =>
          obtain ⟨visited, hv, hm⟩ := ih hx
          simp only [Bool.or_eq_true, not_or, Bool.not_eq_true, List.any_eq_true, decide_eq_true_eq,
            not_exists, not_and] at hwhy
          exact ⟨visited, .skip (hflag.trans (congrArg some hwhy.1)) hwhy.2 hv, hm⟩
  · rintro ⟨visited, hv, rfl⟩
    induction hv generalizing n with
    | nil => exact gives_pure.2 ⟨rfl, rfl⟩
    | data hf _ ih => exact gives_inferAmong_cons.2 (.inl ⟨_, hf, ih⟩)
    | @skip _ _ _ id g _ hflag hsrc _ ih =>
      obtain ⟨o, ho, hmark⟩ := Option.map_eq_some_iff.1 hflag
      refine gives_inferAmong_cons.2 (.inr ⟨o, ho, ?_⟩)
      rw [if_neg]
      · exact ih
      · simpa [hmark] using hsrc
    | @visit _ _ _ visited _ o _ _ _ ho hwhy hfirst _ ih =>
      refine gives_inferAmong_cons.2 (.inr ⟨o, ho, ?_⟩)
      rw [if_pos]
      · refine ⟨_, _, hfirst, ?_⟩
        rw [List.length_cons, Nat.add_comm visited.length, ← Nat.add_assoc]
        exact ih
      · simpa [Graph.flag?_of_op? ho] using hwhy

namespace Visits

lemma sublist (hv : r.Visits changed l g visited h) : visited.Sublist l := by
  induction hv with
  | nil => exact .slnil
  | data _ _ ih => exact ih.cons _
  | skip _ _ _ ih => exact ih.cons _
  | visit _ _ _ _ ih => exact ih.cons_cons _

lemma skeleton (hv : r.Visits changed l g visited h) (hg : Runnable g) :
    h.skeleton = g.skeleton := by
  induction hv with
  | nil => rfl
  | data _ _ ih => exact ih hg
  | skip _ _ _ ih => exact ih hg
  | visit ho _ hfirst _ ih =>
    have hs := skeleton_inferNode hg ho hfirst
    exact (ih (hg.of_skeleton hs)).trans hs

lemma isSome_op? (hv : r.Visits changed l g visited h) (hg : Runnable g) (hj : j ∈ visited) :
    (g.op? j).isSome := by
  induction hv with
  | nil => cases hj
  | data _ _ ih => exact ih hg hj
  | skip _ _ _ ih => exact ih hg hj
  | visit ho _ hfirst _ ih =>
    rcases List.mem_cons.1 hj with rfl | hj
    · exact ho ▸ rfl
    · have hs := skeleton_inferNode hg ho hfirst
      rw [← Graph.isSome_op?_of_skeleton hs]
      exact ih (hg.of_skeleton hs) hj

/-- What is marked is visited: marks come off by a visit only. -/
lemma mem_of_flag? (hv : r.Visits changed l g visited h) (hg : Runnable g) (hj : j ∈ l)
    (hflag : g.flag? j = some true) : j ∈ visited := by
  induction hv with
  | nil => cases hj
  | data hf _ ih =>
    rcases List.mem_cons.1 hj with rfl | hj
    · rw [Graph.flag?, Graph.op?_eq_none_of_fact hf] at hflag
      cases hflag
    · exact ih hg hj hflag
  | skip hunmarked _ _ ih =>
    rcases List.mem_cons.1 hj with rfl | hj
    · cases hunmarked.symm.trans hflag
    · exact ih hg hj hflag
  | @visit _ _ _ _ id _ _ _ _ ho _ hfirst _ ih =>
    by_cases hne : j = id
    · exact hne ▸ List.mem_cons_self ..
    · refine List.mem_cons_of_mem id (ih (hg.of_skeleton (skeleton_inferNode hg ho hfirst))
        ((List.mem_cons.1 hj).resolve_left hne) ?_)
      rw [flag?_inferNode hg ho hfirst hne, hflag]

/-- Data that nothing in the list feeds, and that an operation outside it reads, stay. -/
lemma fact?_of_reader (hv : r.Visits changed l g visited h) (hg : Runnable g) {e : Edge}
    (he : e ∈ g.edges) (hdst : e.dst ∉ l) (hsrc : ∀ i ∈ g.sources e.src, i ∉ l) :
    h.fact? e.src = g.fact? e.src := by
  induction hv with
  | nil => rfl
  | data _ _ ih =>
    exact ih hg he (fun hin => hdst (List.mem_cons_of_mem _ hin))
      fun i hi hin => hsrc i hi (List.mem_cons_of_mem _ hin)
  | skip _ _ _ ih =>
    exact ih hg he (fun hin => hdst (List.mem_cons_of_mem _ hin))
      fun i hi hin => hsrc i hi (List.mem_cons_of_mem _ hin)
  | @visit _ _ _ _ id _ _ _ _ ho _ hfirst _ ih =>
    have hs := skeleton_inferNode hg ho hfirst
    obtain ⟨hne, hdst⟩ := not_or.1 (List.mem_cons.not.1 hdst)
    rw [ih (hg.of_skeleton hs) (Graph.edges_of_skeleton hs ▸ he) hdst fun i hi hin =>
      hsrc i (Graph.sources_of_skeleton hs _ ▸ hi) (List.mem_cons_of_mem id hin)]
    exact fact?_inferNode hg ho hfirst he hne fun hi => hsrc id hi (List.mem_cons_self ..)

/-- The inputs of an operation that is passed over had not changed before, and stay: what comes
later feeds none of them, and cannot write to data that the operation reads. -/
lemma fact?_of_skipped (hv : r.Visits changed l g visited h) (hg : Runnable g) (hnodup : l.Nodup)
    (hl : l.Pairwise fun a b => ¬g.Feeds b a) (hj : j ∈ l)
    (hop : (g.op? j).isSome) (hnot : j ∉ visited) (hd : d ∈ g.sources j) :
    d ∉ changed ∧ h.fact? d = g.fact? d := by
  induction hv with
  | nil => cases hj
  | data hf _ ih =>
    rcases List.mem_cons.1 hj with rfl | hj
    · rw [Graph.op?_eq_none_of_fact hf] at hop
      cases hop
    · exact ih hg hnodup.of_cons hl.of_cons hj hop hnot hd
  | @skip _ rest _ id g _ _ hclean hrest ih =>
    rcases List.mem_cons.1 hj with rfl | hj
    · refine ⟨hclean d hd, ?_⟩
      obtain ⟨e, he, hdst, rfl⟩ := Graph.mem_sources.1 hd
      refine hrest.fact?_of_reader hg he (hdst ▸ (List.nodup_cons.1 hnodup).1) fun i hi hin => ?_
      obtain ⟨e', he', hdst', hsrc'⟩ := Graph.mem_sources.1 hi
      exact (List.pairwise_cons.1 hl).1 i hin ⟨e', he', e, he, hsrc', hdst', hdst⟩
    · exact ih hg hnodup.of_cons hl.of_cons hj hop hnot hd
  | @visit _ _ _ _ id _ g k _ ho _ hfirst _ ih =>
    obtain ⟨hne, hnot⟩ := not_or.1 (List.mem_cons.not.1 hnot)
    have hs := skeleton_inferNode hg ho hfirst
    obtain ⟨hmore, hsame⟩ := ih (hg.of_skeleton hs) hnodup.of_cons
      (by simpa only [Graph.feeds_of_skeleton hs] using hl.of_cons)
      ((List.mem_cons.1 hj).resolve_left hne) (Graph.isSome_op?_of_skeleton hs j ▸ hop) hnot
      (Graph.sources_of_skeleton hs j ▸ hd)
    obtain ⟨hmore, hchanged⟩ := not_or.1 (List.mem_append.not.1 hmore)
    obtain ⟨ws, -, hkept⟩ := exists_settle_of_inferNode hg.wellFormed ho hfirst
    exact ⟨hchanged, hsame.trans (hkept d hmore)⟩

end Visits

end Registry

namespace Graph

variable {g h : Graph} {r : Registry}

/-- What a run of inference is to come to, by the operations it visits. -/
structure SettledBy (g : Graph) (visited : List NodeId) (h : Graph) : Prop where
  /-- Operations are visited, each at most once. -/
  operation : ∀ op ∈ visited, (g.op? op).isSome
  nodup : visited.Nodup
  /-- An operation is visited after those that give its inputs. -/
  ordered : ∀ before op after, visited = before ++ op :: after →
    ∀ p ∈ visited, g.Feeds p op → p ∈ before
  marked : ∀ op, g.flag? op = some true → op ∈ visited
  /-- The inputs of operations that are not visited are as they were. -/
  untouched : ∀ op, (g.op? op).isSome → op ∉ visited → ∀ d ∈ g.sources op, h.node? d = g.node? d
  unmarked : ∀ op, h.flag? op ≠ some true

/-- **Settling**: whatever the rules, an inference of what is marked that succeeds gives the number
of the operations it visits. It visits those that were marked, and leaves the inputs of the others
as they were; a second one has nothing to do. -/
theorem inferMarked_settles (r : Registry) (hg : g.WellFormed) {v : Nat}
    (hx : Gives r.inferMarked g v h) : ∃ order visited, g.evalOrder = .ok order ∧
      r.Visits [] order g visited h ∧ v = visited.length ∧ g.SettledBy visited h ∧
      Gives r.inferMarked h 0 h := by
  obtain ⟨l, hl, hamong⟩ := Registry.gives_inferMarked.1 hx
  obtain ⟨visited, hv, rfl⟩ := Registry.gives_inferAmong.1 hamong
  have hrun := Registry.runnable_of_evalOrder hg hl
  have horder := ordered_of_evalOrder hl
  have hpairwise := horder.ready.pairwise (by simp)
  have hskel := hv.skeleton hrun
  have hunmarked := Registry.unmarked_of_inferMarked hx
  refine ⟨l, visited, hl, hv, Nat.zero_add _, ⟨fun op => hv.isSome_op? hrun,
    horder.ready.nodup.sublist hv.sublist, ?ordered, ?marked, ?untouched, hunmarked⟩,
    Registry.gives_inferMarked_of_unmarked hunmarked (evalOrder_of_skeleton hskel hl)⟩
  case ordered =>
    rintro before op after rfl p hin hfeeds
    have hlater := (List.pairwise_append.1 (hpairwise.sublist hv.sublist)).2.1
    refine (List.mem_append.1 hin).resolve_right fun hin => ?_
    rcases List.mem_cons.1 hin with rfl | hin
    · obtain ⟨e, he, e', he', hsrc, hdst, hdst'⟩ := hfeeds
      exact hrun.apart p e he e' he' hsrc hdst' hdst
    · exact (List.pairwise_cons.1 hlater).1 p hin hfeeds
  case marked =>
    intro op hflag
    obtain ⟨n, hn, -⟩ := isSome_op?.1 (isSome_op?_of_flag? hflag)
    exact hv.mem_of_flag? hrun (horder.mem.2 (hn ▸ rfl)) hflag
  case untouched =>
    intro op hop hnot d hd
    obtain ⟨n, hn, -⟩ := isSome_op?.1 hop
    obtain ⟨-, hsame⟩ := hv.fact?_of_skipped hrun horder.ready.nodup hpairwise
      (horder.mem.2 (hn ▸ rfl)) hop hnot hd
    obtain ⟨o, ho⟩ := Option.isSome_iff_exists.1 hop
    obtain ⟨e, he, rfl, rfl⟩ := mem_sources.1 hd
    obtain ⟨f, hf⟩ := ends_of_op_dst hg he ho
    exact node?_of_fact? hskel (hf ▸ rfl) hsame

end Graph

/-- The front axis counted from the right: the operation that inserts it counts it from the left
again, and finds the shape that was known, so that nothing after it is visited. -/
theorem inferMarked_settles_unsqueezed :
    let g := (unsqueezed.run ∅).graph.modifyOp ⟨2⟩ fun o =>
      { o.withAttribute "value" (.tensor (.ofInts [-3])) with needsInference := true }
    let h := (Registry.standard.inferMarked.run g).graph
    g.WellFormed ∧ Gives Registry.standard.inferMarked g 2 h ∧ ∃ order visited,
      g.evalOrder = .ok order ∧ Registry.standard.Visits [] order g visited h ∧
      2 = visited.length ∧ g.SettledBy visited h ∧ Gives Registry.standard.inferMarked h 0 h := by
  intro g h
  have hg : g.WellFormed := by decide +kernel
  have hx : Gives Registry.standard.inferMarked g 2 h :=
    ⟨toOption_eq_some.1 (by decide +kernel), rfl⟩
  exact ⟨hg, hx, Graph.inferMarked_settles Registry.standard hg hx⟩

end TensorGraph
