import TensorGraph.Proofs.Visits

/-!
What an inference that fails leaves to do.

A run of inference stops at the first operation whose rule fails. `Registry.Interrupted` is such a
run with the operations it has visited before. Whatever the rules, marks come off these only
(`inferMarked_interrupted`), so that a later run visits what was marked. But no marks are put on
for it: an operation that was to be visited for a changed input alone is forgotten
(`inferMarked_interrupted_unmarked`).
-/

namespace TensorGraph

open Edit

namespace Registry

variable {r : Registry} {g h k : Graph} {id op j : NodeId} {o : Operation}
  {changed more l visited : List NodeId} {e : Error}

/-! ### Marks -/

lemma flag?_inferNode_self (hg : Runnable g) (ho : g.op? id = some o)
    (hx : Gives (r.inferNode id) g more k) : k.flag? id = some false := by
  obtain ⟨ws, hl, -⟩ := exists_settle_of_inferNode hg.wellFormed ho hx
  rw [hl.flag?, Graph.flag?_unmark, if_pos rfl, Graph.flag?_settle, Graph.flag?_of_op? ho]
  rfl

lemma flag?_of_stops (hg : Runnable g) (ho : g.op? id = some o)
    (hx : Stops (r.inferNode id) g e h) :
    h.flag? j = g.flag? j := by
  obtain ⟨ws, hl⟩ := exists_settle_of_stops hg.wellFormed ho hx
  rw [hl.flag?, Graph.flag?_settle]

/-! ### Runs that fail -/

/-- A run of inference over a list of nodes, with data that changed before, that visits some
operations and then stops at one whose rule fails. -/
inductive Interrupted (r : Registry) :
    List NodeId → List NodeId → Graph → List NodeId → NodeId → Error → Graph → Prop
  | stop {changed rest : List NodeId} {op : NodeId} {o : Operation} {e : Error} {g h : Graph} :
      g.op? op = some o → (g.flag? op = some true ∨ ∃ d ∈ g.sources op, d ∈ changed) →
      Stops (r.inferNode op) g e h → Interrupted r changed (op :: rest) g [] op e h
  | data {changed rest visited : List NodeId} {id op : NodeId} {f : Fact} {e : Error}
      {g h : Graph} :
      g.fact? id = some f → Interrupted r changed rest g visited op e h →
      Interrupted r changed (id :: rest) g visited op e h
  | skip {changed rest visited : List NodeId} {id op : NodeId} {e : Error} {g h : Graph} :
      g.flag? id = some false → (∀ d ∈ g.sources id, d ∉ changed) →
      Interrupted r changed rest g visited op e h →
      Interrupted r changed (id :: rest) g visited op e h
  | visit {changed more rest visited : List NodeId} {id op : NodeId} {o : Operation} {e : Error}
      {g k h : Graph} :
      g.op? id = some o → (g.flag? id = some true ∨ ∃ d ∈ g.sources id, d ∈ changed) →
      Gives (r.inferNode id) g more k → Interrupted r (more ++ changed) rest k visited op e h →
      Interrupted r changed (id :: rest) g (id :: visited) op e h

/-- An inference over a list of nodes fails exactly if it is interrupted. -/
theorem stops_inferAmong {n : Nat} (hg : Runnable g) (hlive : ∀ id ∈ l, (g.node? id).isSome) :
    Stops (r.inferAmong changed n l) g e h ↔
      ∃ visited op, r.Interrupted changed l g visited op e h := by
  constructor
  · intro hx
    induction l generalizing changed n g with
    | nil => exact absurd hx stops_pure
    | cons id rest ih =>
      have hrest : ∀ i ∈ rest, (g.node? i).isSome := fun i hi =>
        hlive i (List.mem_cons_of_mem id hi)
      obtain ⟨⟨name, c⟩, hn⟩ := Option.isSome_iff_exists.1 (hlive id (List.mem_cons_self ..))
      rcases (stops_inferAmong_cons (hn ▸ rfl)).1 hx with ⟨hnone, hx⟩ | ⟨o, ho, hx⟩
      · cases c with
        | op o => cases hnone.symm.trans (Graph.op?_eq_some.2 ⟨name, hn⟩)
        | data f =>
          obtain ⟨visited, op, hr⟩ := ih hg hrest hx
          exact ⟨visited, op, .data (Graph.fact?_eq_some.2 ⟨name, hn⟩) hr⟩
      · have hflag := Graph.flag?_of_op? ho
        split at hx
        · next hwhy =>
          have hwhy : g.flag? id = some true ∨ ∃ d ∈ g.sources id, d ∈ changed := by
            simpa [hflag] using hwhy
          rcases hx with hx | ⟨more, k, hfirst, hx⟩
          · exact ⟨[], id, .stop ho hwhy hx⟩
          · have hs := skeleton_inferNode hg ho hfirst
            obtain ⟨visited, op, hr⟩ := ih (hg.of_skeleton hs)
              (fun i hi => Graph.isSome_node?_of_skeleton hs i ▸ hrest i hi) hx
            exact ⟨id :: visited, op, .visit ho hwhy hfirst hr⟩
        · next hwhy =>
          simp only [Bool.or_eq_true, not_or, Bool.not_eq_true, List.any_eq_true, decide_eq_true_eq,
            not_exists, not_and] at hwhy
          obtain ⟨visited, op, hr⟩ := ih hg hrest hx
          exact ⟨visited, op, .skip (hflag.trans (congrArg some hwhy.1)) hwhy.2 hr⟩
  · rintro ⟨visited, op, hr⟩
    induction hr generalizing n with
    | stop ho hwhy hx =>
      refine (stops_inferAmong_cons (hlive _ (List.mem_cons_self ..))).2 (.inr ⟨_, ho, ?_⟩)
      rw [if_pos (by simpa [Graph.flag?_of_op? ho] using hwhy)]
      exact .inl hx
    | data hf _ ih =>
      refine (stops_inferAmong_cons (hlive _ (List.mem_cons_self ..))).2
        (.inl ⟨Graph.op?_eq_none_of_fact hf, ih hg fun i hi => hlive i (List.mem_cons_of_mem _ hi)⟩)
    | skip hflag hsrc _ ih =>
      obtain ⟨o, ho, hmark⟩ := Option.map_eq_some_iff.1 hflag
      refine (stops_inferAmong_cons (hlive _ (List.mem_cons_self ..))).2 (.inr ⟨o, ho, ?_⟩)
      rw [if_neg (by simpa [hmark] using hsrc)]
      exact ih hg fun i hi => hlive i (List.mem_cons_of_mem _ hi)
    | visit ho hwhy hfirst _ ih =>
      have hs := skeleton_inferNode hg ho hfirst
      refine (stops_inferAmong_cons (hlive _ (List.mem_cons_self ..))).2 (.inr ⟨_, ho, ?_⟩)
      rw [if_pos (by simpa [Graph.flag?_of_op? ho] using hwhy)]
      refine .inr ⟨_, _, hfirst, ih (hg.of_skeleton hs) fun i hi => ?_⟩
      rw [Graph.isSome_node?_of_skeleton hs]
      exact hlive i (List.mem_cons_of_mem _ hi)

lemma stops_inferMarked (hg : g.WellFormed) (hl : g.evalOrder = .ok l) :
    Stops r.inferMarked g e h ↔ ∃ visited op, r.Interrupted [] l g visited op e h := by
  rw [← stops_inferAmong (n := 0) (runnable_of_evalOrder hg hl)
    fun i hi => (Graph.ordered_of_evalOrder hl).mem.1 hi]
  constructor
  · intro hx
    refine (stops_bind.1 (hx.of_query hl)).resolve_right ?_
    rintro ⟨_, _, -, hx⟩
    rcases stops_bind.1 hx with hx | ⟨_, _, -, hx⟩
    · exact stops_note hx
    · exact stops_pure hx
  · exact fun hx => stops_bind.2 (.inr ⟨l, g, gives_query.2 ⟨hl, rfl⟩, stops_bind.2 (.inl hx)⟩)

namespace Interrupted

/-- The operations visited come before the one whose rule fails. -/
lemma sublist (hr : r.Interrupted changed l g visited op e h) : (visited ++ [op]).Sublist l := by
  induction hr with
  | stop => exact List.singleton_sublist.2 (List.mem_cons_self ..)
  | data _ _ ih => exact ih.cons _
  | skip _ _ _ ih => exact ih.cons _
  | visit _ _ _ _ ih => exact ih.cons_cons _

/-- Marks come off the operations visited, and off no others. -/
lemma flag? (hr : r.Interrupted changed l g visited op e h) (hg : Runnable g) :
    h.flag? j = if j ∈ visited then some false else g.flag? j := by
  induction hr with
  | stop ho _ hx => exact flag?_of_stops hg ho hx
  | data _ _ ih => exact ih hg
  | skip _ _ _ ih => exact ih hg
  | @visit _ _ _ visited id _ _ _ _ _ _ ho _ hfirst _ ih =>
    rw [ih (hg.of_skeleton (skeleton_inferNode hg ho hfirst))]
    by_cases hin : j ∈ visited
    · rw [if_pos hin, if_pos (List.mem_cons_of_mem id hin)]
    · rw [if_neg hin]
      by_cases hj : j = id
      · subst hj
        rw [if_pos (List.mem_cons_self ..), flag?_inferNode_self hg ho hfirst]
      · rw [if_neg (List.not_mem_cons_of_ne_of_not_mem hj hin), flag?_inferNode hg ho hfirst hj]

end Interrupted

end Registry

namespace Graph

variable {g h : Graph} {r : Registry} {e : Error} {order visited : List NodeId} {op : NodeId}

/-- What is left of the marks by a run that was interrupted after some visits. -/
structure MarksLeft (g : Graph) (visited : List NodeId) (h : Graph) : Prop where
  flag : ∀ i, h.flag? i = if i ∈ visited then some false else g.flag? i
  /-- A run that succeeds later, where the marks that are left are on, visits the operations that
  were marked and not visited. -/
  again : ∀ (r : Registry) (k : Graph) (n : Nat) (k' : Graph), k.WellFormed →
    (∀ i, h.flag? i = some true → k.flag? i = some true) → Gives r.inferMarked k n k' →
    ∃ order again, k.evalOrder = .ok order ∧ r.Visits [] order k again k' ∧
      ∀ i ∉ visited, g.flag? i = some true → i ∈ again

/-- **Interruptions**: whatever the rules, an inference of what is marked that fails has visited
some operations and stopped at another. It takes the marks off those it visited, and leaves those of
all others to a later one. -/
theorem inferMarked_interrupted (r : Registry) (hg : g.WellFormed) (hl : g.evalOrder = .ok order)
    (hx : Stops r.inferMarked g e h) :
    ∃ visited op, r.Interrupted [] order g visited op e h ∧ op ∉ visited ∧
      g.MarksLeft visited h := by
  obtain ⟨visited, op, hr⟩ := (Registry.stops_inferMarked hg hl).1 hx
  have hflag (i : NodeId) := hr.flag? (j := i) (Registry.runnable_of_evalOrder hg hl)
  refine ⟨visited, op, hr, fun hin => ?_, hflag, fun r' k n k' hk hmarks hagain => ?_⟩
  · have hnodup := (ordered_of_evalOrder hl).ready.nodup.sublist hr.sublist
    exact (List.nodup_append.1 hnodup).2.2 op hin op (List.mem_singleton_self op) rfl
  · obtain ⟨order', hl', hamong⟩ := Registry.gives_inferMarked.1 hagain
    obtain ⟨again, hv, -⟩ := Registry.gives_inferAmong.1 hamong
    refine ⟨order', again, hl', hv, fun i hi hmark => ?_⟩
    have hmark' : k.flag? i = some true := hmarks i (by rw [hflag, if_neg hi, hmark])
    obtain ⟨m, hm, -⟩ := isSome_op?.1 (isSome_op?_of_flag? hmark')
    exact hv.mem_of_flag? (Registry.runnable_of_evalOrder hk hl')
      ((ordered_of_evalOrder hl').mem.2 (hm ▸ rfl)) hmark'

end Graph

/-! ### An input that is stretched -/

/-- An input that is added to a constant, and read by another operation. -/
def summedAndRead : Edit Unit := do
  let x ← addParameter "x" [2]
  let c ← addConst "c" (.ofInts [1, 2])
  let sum ← wire "sum" (.ofKind "Add") [x, c]
  let y ← wire "y" (.ofKind "Relu") [x]
  discard (addResult "first" sum)
  discard (addResult "second" y)
  discard Registry.standard.inferAll

/-- The graph after inference, with another shape of the input, which no longer fits the
constant. -/
def stretched : Graph := (summedAndRead.run ∅).graph.modifyOp ⟨0⟩ fun o =>
  { o.withAttribute "shape" (.ints [3]) with needsInference := true }

/-- Why the sum cannot be inferred. -/
def sumFault : Error :=
  Cause.inference "sum" (.rule "Broadcasting [[3], [2]]: Can not broadcast dimensions 3 and 2")

lemma wellFormed_stretched : stretched.WellFormed := by decide +kernel

/-- The other operation, which is marked too, stays so. -/
theorem inferMarked_interrupted_marked :
    let g := stretched.flagOp ⟨6⟩
    let h := (Registry.standard.inferMarked.run g).graph
    g.WellFormed ∧ Stops Registry.standard.inferMarked g sumFault h ∧ h.flag? ⟨6⟩ = some true ∧
      ∃ order visited op, g.evalOrder = .ok order ∧
        Registry.standard.Interrupted [] order g visited op sumFault h ∧ op ∉ visited ∧
        g.MarksLeft visited h := by
  intro g h
  have hg : g.WellFormed := wellFormed_stretched.modifyOp ⟨6⟩ _
  have hl : g.evalOrder = .ok [⟨0⟩, ⟨1⟩, ⟨2⟩, ⟨3⟩, ⟨4⟩, ⟨5⟩, ⟨8⟩, ⟨6⟩, ⟨7⟩, ⟨9⟩] :=
    toOption_eq_some.1 (by decide +kernel)
  have hx : Stops Registry.standard.inferMarked g sumFault h := by
    refine ⟨?_, rfl⟩
    show (Edit.run _ _).result = .error _
    decide +kernel
  obtain ⟨visited, op, hr⟩ := Graph.inferMarked_interrupted Registry.standard hg hl hx
  exact ⟨hg, hx, by decide +kernel, _, visited, op, hl, hr⟩

/-- Without a mark it is forgotten, though its input has changed in the run. -/
theorem inferMarked_interrupted_unmarked :
    let g := stretched
    g.WellFormed ∧ ∃ order visited op h, g.evalOrder = .ok order ∧
      Stops Registry.standard.inferMarked g sumFault h ∧
      Registry.standard.Interrupted [] order g visited op sumFault h ∧
      (g.op? ⟨6⟩).isSome ∧ ⟨6⟩ ∉ visited ∧ ⟨1⟩ ∈ g.sources ⟨6⟩ ∧ h.fact? ⟨1⟩ ≠ g.fact? ⟨1⟩ ∧
      h.flag? ⟨6⟩ = some false := by
  intro g
  let k := ((Registry.standard.inferNode ⟨0⟩).run g).graph
  let h := ((Registry.standard.inferNode ⟨4⟩).run k).graph
  have hl : g.evalOrder = .ok [⟨0⟩, ⟨1⟩, ⟨2⟩, ⟨3⟩, ⟨4⟩, ⟨5⟩, ⟨8⟩, ⟨6⟩, ⟨7⟩, ⟨9⟩] :=
    toOption_eq_some.1 (by decide +kernel)
  -- the shape of the input is written, then the sum fails
  obtain ⟨hfirst, hlast⟩ :
      ((Registry.standard.inferNode ⟨0⟩).run g).result.toOption = some [⟨1⟩] ∧
        ((Registry.standard.inferNode ⟨4⟩).run k).result = .error sumFault := by decide +kernel
  obtain ⟨⟨o, ho⟩, ⟨f, hf⟩, ⟨c, hc⟩, ⟨p, hp⟩⟩ :
      (∃ o, g.op? ⟨0⟩ = some o) ∧ (∃ f, k.fact? ⟨1⟩ = some f) ∧ (∃ c, k.fact? ⟨3⟩ = some c) ∧
        ∃ p, k.op? ⟨4⟩ = some p := by
    simp only [← Option.isSome_iff_exists]
    decide +kernel
  obtain ⟨hmark, hskip, hclean, hsum⟩ :
      g.flag? ⟨0⟩ = some true ∧ k.flag? ⟨2⟩ = some false ∧
        (∀ d ∈ k.sources ⟨2⟩, d ∉ [(⟨1⟩ : NodeId)]) ∧
        ∃ d ∈ k.sources ⟨4⟩, d ∈ [(⟨1⟩ : NodeId)] := by decide +kernel
  have hr : Registry.standard.Interrupted []
      [⟨0⟩, ⟨1⟩, ⟨2⟩, ⟨3⟩, ⟨4⟩, ⟨5⟩, ⟨8⟩, ⟨6⟩, ⟨7⟩, ⟨9⟩] g [⟨0⟩] ⟨4⟩ sumFault h :=
    .visit ho (.inl hmark) ⟨toOption_eq_some.1 hfirst, rfl⟩ <| .data hf <| .skip hskip hclean <|
      .data hc <| .stop hp (.inr hsum) ⟨hlast, rfl⟩
  obtain ⟨hop, hsrc, hshape, hflag⟩ :
      (g.op? ⟨6⟩).isSome ∧ ⟨1⟩ ∈ g.sources ⟨6⟩ ∧
        (h.fact? ⟨1⟩).map (·.shape) ≠ (g.fact? ⟨1⟩).map (·.shape) ∧ h.flag? ⟨6⟩ = some false := by
    decide +kernel
  exact ⟨wellFormed_stretched, _, _, _, h, hl,
    (Registry.stops_inferMarked wellFormed_stretched hl).2 ⟨_, _, hr⟩, hr, hop, by decide, hsrc,
    fun hsame => hshape (congrArg _ hsame), hflag⟩

end TensorGraph
