import TensorGraph.Proofs.Clearings
import TensorGraph.Proofs.Preservation
import TensorGraph.Proofs.QueueRuns
import TensorGraph.Proofs.Repinning
import TensorGraph.Proofs.Successes

/-!
Running the standard pipeline a second time.

No step takes the revision of a graph back, and one that leaves the revision leaves the graph. So a
run that ends with the revision it started from has gone through the same graph all the way, and no
pass has found anything to do there (`Pipeline.gives_optimize_self_iff`). In a graph that a run has
left, only two passes may still find something (`Pipeline.optimize_again`): the removal of
identities may have joined a queue to what takes batches out of it, after the pass over the queues,
and two products may ask for different patterns of one reshape.
-/

namespace TensorGraph

open Edit

/-! ### Passes that find nothing to do -/

namespace Graph

variable {g h : Graph}

/-- No product asks for another pattern of a reshape that feeds it. -/
def AllPinned (g : Graph) : Prop :=
  ∀ matmul operand s new, g.kind? matmul = some "MatMul" →
    g.reshapeSite matmul operand = .ok (some s) → g.replacement matmul operand s ≠ .ok (some new)

/-- The pattern that an operand of a product asks for in the place of the one there. -/
def asked? (g : Graph) (matmul : NodeId) (operand : Operand) : Option Shape :=
  (g.reshapeSite matmul operand).toOption.join.bind fun s =>
    (g.replacement matmul operand s).toOption.join

lemma asked?_eq_some {matmul : NodeId} {operand : Operand} {new : Shape} :
    g.asked? matmul operand = some new ↔ ∃ s, g.reshapeSite matmul operand = .ok (some s) ∧
      g.replacement matmul operand s = .ok (some new) := by
  simp [asked?, Option.bind_eq_some_iff, Option.join_eq_some_iff, toOption_eq_some]

lemma allPinned_iff : g.AllPinned ↔ ∀ pair ∈ operandsOf (g.opNodesOf "MatMul"),
    g.asked? pair.1 pair.2 = none := by
  simp only [AllPinned, Option.eq_none_iff_forall_ne_some, ne_eq, asked?_eq_some, not_exists,
    not_and, mem_operandsOf, mem_opNodesOf]
  exact ⟨fun hpinned pair hm new s => hpinned pair.1 pair.2 s new hm,
    fun hpinned matmul operand s new hm => hpinned (matmul, operand) hm new s⟩

instance : Decidable g.AllPinned := decidable_of_iff' _ allPinned_iff

/-- There is nothing to clean up, to infer or to rewrite. -/
structure Finished (g : Graph) : Prop extends Pipeline.Normalized g where
  acyclic : g.Acyclic
  queues : ∀ i, g.LeftInPlace i
  identities : ∀ id, ¬ g.Removable id
  reshapes : g.AllPinned
  axes : ∀ id, ¬ g.SignedAxis id

lemma Finished.stage (hg : g.Finished) (s : Stage) : Finished { g with stage := s } where
  wellFormed := wellFormed_stage hg.wellFormed s
  tidy := hg.tidy.of_skeleton (skeleton_stage g s)
  unmarked := hg.unmarked
  acyclic := hg.acyclic
  queues i queue image shape hd :=
    hg.queues i queue image shape ⟨hd.kind, hd.origin, hd.queueKind, hd.image, hd.shape⟩
  identities := hg.identities
  reshapes := hg.reshapes
  axes := hg.axes

end Graph

namespace Edit

variable {g h : Graph} {op : NodeId} {matmul : NodeId} {operand : Operand} {s : Graph.ReshapeSite}
  {name : String} {new : Shape}

lemma gives_replaceQueues_self_iff (hg : g.WellFormed) (ha : g.Acyclic) :
    Gives Transformation.replaceQueues.apply g () g ↔ ∀ i, g.LeftInPlace i := by
  constructor
  · intro hx i queue image shape hd
    have hi := gives_of_forM_self structural_replaceQueue (Graph.gives_replaceQueues.1 hx) i
      (Graph.mem_opNodesOf.2 hd.kind)
    obtain ⟨n, hn⟩ := Graph.exists_node_of_kind hd.queueKind
    obtain ⟨name, -, hfree, htaken⟩ := exists_gives_replaceQueue hd hg ha hn
    by_cases huse : g.InUse (g.Discarded i image) (dataName name 0)
    · exact hi.not_fails (htaken huse)
    · obtain ⟨h, hx, hr⟩ := hfree huse
      obtain ⟨-, rfl⟩ := hi.unique hx
      exact absurd hr.next (by omega)
  · exact Graph.gives_replaceQueues_of_idle hg

lemma gives_removeIdentities_self_iff (hg : g.WellFormed) (ha : g.Acyclic) :
    Gives Transformation.removeIdentity.apply g () g ↔ ∀ id, ¬ g.Removable id := by
  constructor
  · intro hx
    exact ((removeIdentities_settled hg hx).resolve_right (Nat.lt_irrefl _)).2
  · intro hsettled
    refine gives_bind.2 ⟨g, g, gives_current.2 ⟨rfl, rfl⟩, gives_forM_self fun id hid => ?_⟩
    have hkind := Graph.mem_opNodesOf.1 hid
    obtain ⟨o, ho, -⟩ := Graph.kind?_eq_some.1 hkind
    obtain ⟨h, hx⟩ := exists_gives_removeIdentity hg ha ho
    rcases gives_removeIdentity hg hkind hx with rfl | ⟨hremovable, -⟩
    · exact hx
    · exact absurd hremovable (hsettled id)

/-- A pattern is written into a constant or put into a new one. -/
lemma revision_lt_of_writePattern (hx : Gives (writePattern s name new) g () h) :
    g.revision < h.revision := by
  rcases gives_writePattern hx with ⟨-, hset⟩ | ⟨name', d, k, hadd, hrewire⟩
  · obtain ⟨_, k, hattr, hrest⟩ := gives_bind.1 hset
    have hst : Structural ((query fun g => g.outputs s.constant) >>= fun ds =>
        ds.forM fun data => modifyFact data fun _ => .ofValue (.ofInts new)) :=
      orderly_bind (orderly_query fun g => g.plain_outputs _) fun _ =>
        orderly_forM fun data => structural_setFact data (Fact.shaped_ofValue _)
    exact Nat.lt_of_lt_of_le (revision_lt_of_modifyOp hattr) (hrest.tracked hst).le
  · have hle := (hrewire.tracked (structural_rewireInput _ _ _)).le
    obtain ⟨p, m, hop, hfact⟩ := gives_bind.1 hadd
    obtain ⟨_, m', hmodify, hx⟩ := gives_bind.1 hfact
    obtain ⟨-, rfl⟩ := gives_pure.1 hx
    have hlt := revision_lt_of_modifyFact hmodify
    have hstart := (hop.tracked (structural_addOpWithData _ _)).le
    omega

lemma gives_pinReshapes_self_iff (hg : g.WellFormed) :
    Gives Transformation.pinReshapes.apply g () g ↔ g.AllPinned := by
  rw [gives_pinReshapes]
  constructor
  · intro hx matmul operand s new hm hsite hnew
    have hmem : (matmul, operand) ∈ Graph.operandsOf (g.opNodesOf "MatMul") :=
      Graph.mem_operandsOf.2 (Graph.mem_opNodesOf.2 hm)
    have hst (pair : NodeId × Operand) : Structural (pinReshape pair.1 pair.2) :=
      structural_pinReshape pair.1 pair.2
    have hpair := gives_of_forM_self hst hx (matmul, operand) hmem
    rcases gives_pinReshape hpair with ⟨-, hnone⟩ | ⟨s', _, _, k, -, -, hwrite, hmark⟩
    · exact hnone s new hsite hnew
    · have hlt := revision_lt_of_writePattern hwrite
      have hle := (hmark.tracked (annotating_markNeighbourhood s'.reshape).structural).le
      exact absurd hlt (Nat.not_lt_of_le hle)
  · exact fun hpinned => gives_forM_self fun pair hp =>
      have hm := Graph.mem_opNodesOf.1 (Graph.mem_operandsOf.1 hp)
      gives_pinReshape_of_skip hg hm fun s new hsite => hpinned pair.1 pair.2 s new hm hsite

lemma gives_normalizeGatherAxis_of_unsigned (hg : g.WellFormed)
    (hkind : g.kind? op = some "GatherElements") (hnot : ¬ g.SignedAxis op) :
    Gives (normalizeGatherAxis op) g () g := by
  obtain ⟨o, ho, hgather⟩ := Graph.kind?_eq_some.1 hkind
  have haxis : g.axis? op = .ok ((o.attributes.find? "axis").bind (·.toInt?)) := by
    unfold Graph.axis?
    rw [Graph.operation_eq_ok.2 ho, ok_bind]
    rfl
  have hrank : g.dataRank? op = .ok ((g.inputShape? op 0).map (·.length)) := by
    unfold Graph.dataRank? Graph.inputShape? Graph.inputFact?
    rw [Graph.inputData_eq ho, ok_bind]
    rcases hd : g.inSource op 0 with _ | d
    · rfl
    · obtain ⟨f, hf⟩ := Graph.exists_fact_of_inSource hg ho hd
      simp only [Graph.fact_eq_ok.2 hf, ok_bind, Option.bind_some, hf]
      rfl
  unfold normalizeGatherAxis
  refine gives_query_bind haxis ?_
  rcases hint : (o.attributes.find? "axis").bind (·.toInt?) with _ | axis
  · exact gives_pure.2 ⟨rfl, rfl⟩
  simp only
  split
  · exact gives_pure.2 ⟨rfl, rfl⟩
  next hneg =>
  refine gives_query_bind hrank ?_
  rcases hshape : g.inputShape? op 0 with _ | shape
  · exact gives_pure.2 ⟨rfl, rfl⟩
  refine absurd ⟨o, ho, hgather, ?_, ?_⟩ hnot
  · obtain ⟨f, hf, hknown⟩ := Option.bind_eq_some_iff.1 hshape
    obtain ⟨e, he, hdst, hinp, hfact⟩ := (Graph.inputFact?_eq_some hg).1 hf
    exact ⟨e, he, hdst, hinp, f, hfact, hknown ▸ rfl⟩
  · obtain ⟨a, ha, hint⟩ := Option.bind_eq_some_iff.1 hint
    exact ⟨a, axis, ha, hint, by omega⟩

lemma gives_normalizeGatherAxes_self_iff (hg : g.WellFormed) :
    Gives Transformation.normalizeGatherAxes.apply g () g ↔ ∀ id, ¬ g.SignedAxis id := by
  constructor
  · exact fun hx => not_signedAxis_of_normalizeGatherAxes hg hx
  · exact fun haxes => gives_bind.2 ⟨g, g, gives_current.2 ⟨rfl, rfl⟩, gives_forM_self fun op hop =>
      gives_normalizeGatherAxis_of_unsigned hg (Graph.mem_opNodesOf.1 hop) (haxes op)⟩

end Edit

/-! ### Sessions that leave a graph as it is -/

namespace Session

variable {α β : Type} {g h k : Graph} {a : α} {b : β}

/-- The session succeeds, whatever the count it starts from. -/
def Yields (x : Session α) (g : Graph) (a : α) (h : Graph) : Prop :=
  ∀ count, Ends x count g fun r _ k => r = .ok a ∧ k = h

lemma yields_pure : Yields (pure a) g a g := fun _ => ends_pure ⟨rfl, rfl⟩

lemma yields_liftM {x : Edit α} (hx : Edit.Gives x g a h) : Yields (liftM x : Session α) g a h :=
  fun _ => ends_liftM (fun _ _ hy => by obtain ⟨rfl, rfl⟩ := hx.unique hy; exact ⟨rfl, rfl⟩)
    fun _ _ he => absurd he hx.not_fails

lemma yields_bind {x : Session α} {f : α → Session β} (hx : Yields x g a k)
    (hf : Yields (f a) k b h) : Yields (x >>= f) g b h := fun count =>
  ends_bind <| (hx count).mono fun r n _ hr => by
    obtain ⟨rfl, rfl⟩ := hr
    exact hf n

lemma yields_within {context : String} {x : Session α} (hx : Yields x g a h) :
    Yields (x.within context) g a h := fun count =>
  ends_within <| (hx count).mono fun r _ _ hr => by
    obtain ⟨rfl, rfl⟩ := hr
    exact ⟨rfl, rfl⟩

lemma yields_discard {x : Session α} (hx : Yields x g a h) : Yields (discard x) g () h :=
  fun count => ends_discard <| (hx count).mono fun r _ _ hr => by
    obtain ⟨rfl, rfl⟩ := hr
    exact ⟨rfl, rfl⟩

lemma yields_forM_self {l : List α} {f : α → Session Unit} (hf : ∀ a ∈ l, Yields (f a) g () g) :
    Yields (l.forM f) g () g := by
  induction l with
  | nil => exact yields_pure
  | cons a l ih =>
    exact yields_bind (hf a (List.mem_cons_self ..))
      (ih fun b hb => hf b (List.mem_cons_of_mem a hb))

end Session

namespace Pipeline

variable {p : Pipeline} {g h : Graph} {t : Transformation}

lemma Normalized.gives_self (hg : Normalized g) (ha : g.Acyclic) :
    Gives standard.normalize g () g := by
  obtain ⟨l, hl⟩ := Graph.exists_evalOrder hg.wellFormed ha
  have hinfer : Gives Registry.standard.inferMarked g 0 g :=
    Registry.gives_inferMarked_of_unmarked hg.unmarked hl
  refine gives_bind.2 ⟨⟨[], 0⟩, g, gives_cleanUp_of_tidy hg.wellFormed hg.tidy, ?_⟩
  rw [if_neg (by decide)]
  exact gives_discard.2 ⟨0, hinfer⟩

/-- An application that has nothing to do is not counted. -/
lemma yields_applyOnce_self (ht : Gives t.apply g () g) (hn : Gives p.normalize g () g) :
    Session.Yields (p.applyOnce t) g false g := fun count =>
  (ends_applyOnce t count g).mono fun r _ k happ => by
    cases happ with
    | failed he => exact absurd he ht.not_fails
    | astray happly he =>
      obtain ⟨-, rfl⟩ := ht.unique happly
      exact absurd he hn.not_fails
    | done happly hnext =>
      obtain ⟨-, rfl⟩ := ht.unique happly
      refine ⟨congrArg Except.ok (decide_eq_false fun hne => hne rfl), ?_⟩
      unfold Followed at hnext
      split at hnext
      · exact (hn.unique hnext).2.symm
      · exact hnext.symm

lemma yields_runOne_self (hmax : 0 < p.options.maxIterations) (ht : Gives t.apply g () g)
    (hn : Gives p.normalize g () g) : Session.Yields (p.runOne t) g () g := by
  unfold runOne
  split
  · exact Session.yields_discard (yields_applyOnce_self ht hn)
  · obtain ⟨n, hmax⟩ := Nat.exists_eq_succ_of_ne_zero (Nat.ne_of_gt hmax)
    rw [hmax]
    exact Session.yields_bind (yields_applyOnce_self ht hn) Session.yields_pure

/-- A stage of which no transformation has anything to do is entered, and that is all. -/
lemma yields_runStage_self {ts : List Transformation} {s : Stage}
    (hs : p.options.stages.contains s) (hmax : 0 < p.options.maxIterations)
    (hts : ∀ t ∈ ts, Gives t.apply { g with stage := s } () { g with stage := s })
    (hn : Gives p.normalize { g with stage := s } () { g with stage := s }) :
    Session.Yields (p.runStage ts s) g () { g with stage := s } := by
  unfold runStage
  rw [if_pos hs]
  refine Session.yields_bind (a := ()) (Session.yields_liftM ⟨rfl, rfl⟩)
    (Session.yields_forM_self fun t ht => Session.yields_within (yields_runOne_self hmax ?_ hn))
  exact hts t (List.mem_filter.1 ht).1

lemma gives_apply_self (hg : g.Finished) (ht : t ∈ Transformation.standard) :
    Gives t.apply g () g := by
  simp only [Transformation.standard, List.mem_cons, List.not_mem_nil, or_false] at ht
  rcases ht with rfl | rfl | rfl | rfl
  · exact (gives_replaceQueues_self_iff hg.wellFormed hg.acyclic).2 hg.queues
  · exact (gives_removeIdentities_self_iff hg.wellFormed hg.acyclic).2 hg.identities
  · exact (gives_pinReshapes_self_iff hg.wellFormed).2 hg.reshapes
  · exact (gives_normalizeGatherAxes_self_iff hg.wellFormed).2 hg.axes

lemma yields_optimizeIn_self (hg : g.Finished) :
    Session.Yields standard.optimizeIn g () { g with stage := .back } := by
  have hschedule : Gives standard.scheduleLogged g Transformation.standard g :=
    gives_bind.2 ⟨(), g, gives_forM_self fun _ _ => gives_note.2 rfl, gives_lift.2 ⟨rfl, rfl⟩⟩
  have hnormal {k : Graph} (hk : k.Finished) : Gives standard.normalize k () k :=
    hk.toNormalized.gives_self hk.acyclic
  have hstage (k : Graph) (s : Stage) (hk : k.Finished) : Session.Yields
      (standard.runStage Transformation.standard s) k () { k with stage := s } :=
    yields_runStage_self (by cases s <;> rfl) (by decide) (fun t => gives_apply_self (hk.stage s))
      (hnormal (hk.stage s))
  have hfront := hg.stage .front
  have hmiddle := hg.stage .middle
  have hstages : Session.Yields (Stage.all.forM (standard.runStage Transformation.standard)) g ()
      { g with stage := .back } :=
    Session.yields_bind (hstage g .front hg) <| Session.yields_bind (hstage _ .middle hfront) <|
      Session.yields_bind (hstage _ .back hmiddle) Session.yields_pure
  refine Session.yields_bind (Session.yields_liftM hschedule) ?_
  refine Session.yields_bind (Session.yields_liftM (gives_within.2 (hnormal hg))) ?_
  refine Session.yields_bind hstages fun count => ?_
  exact Session.ends_bind (Session.ends_count (Session.ends_liftM
    (fun _ _ hx => ⟨rfl, (gives_note.1 hx).symm⟩) fun _ _ he => absurd he fails_note))

/-! ### Runs that come back to the revision they started from -/

lemma Passed.le (ht : t ∈ Transformation.standard) (hx : standard.Passed t g h) :
    g.revision ≤ h.revision := by
  obtain ⟨k, happly, hnormal⟩ := hx
  exact (happly.tracked (structural_standard ht)).le.trans
    (hnormal.tracked (structural_normalize _)).le

/-- A pass that comes back has not changed the graph. -/
lemma Passed.self_of_le (ht : t ∈ Transformation.standard) (hx : standard.Passed t g h)
    (hle : h.revision ≤ g.revision) : Gives t.apply g () g ∧ h = g := by
  obtain ⟨k, happly, hnormal⟩ := hx
  have hk := hnormal.tracked (structural_normalize _)
  obtain rfl := (happly.tracked (structural_standard ht)).eq_of_le (hk.le.trans hle)
  exact ⟨happly, hk.eq_of_le hle⟩

lemma Settles.le (ht : t ∈ Transformation.standard) (hx : standard.Settles t g h) :
    g.revision ≤ h.revision := by
  induction hx with
  | last happly _ hnormal => exact Passed.le ht ⟨_, happly, hnormal⟩
  | more hfirst _ ih => exact (hfirst.le ht).trans ih

lemma Settles.self_of_le (ht : t ∈ Transformation.standard) (hx : standard.Settles t g h)
    (hle : h.revision ≤ g.revision) : Gives t.apply g () g ∧ h = g := by
  induction hx with
  | last happly _ hnormal => exact Passed.self_of_le ht ⟨_, happly, hnormal⟩ hle
  | more hfirst hrest ih =>
    obtain ⟨happly, rfl⟩ := hfirst.self_of_le ht ((hrest.le ht).trans hle)
    exact ⟨happly, (ih hle).2⟩

/-- **Graphs that a run leaves as they are**: the pipeline succeeds on a graph, and leaves it as it
is but for the stage, if and only if there is nothing to clean up, to infer or to rewrite. -/
theorem gives_optimize_self_iff (hg : g.WellFormed) :
    Gives standard.optimize g () { g with stage := .back } ↔ g.Finished := by
  constructor
  · intro hx
    obtain ⟨g₀, g₁, g₂, g₃, hfirst, hqueues, hidentities, hreshapes, haxes⟩ := gives_optimize hx
    have hmem : Transformation.replaceQueues ∈ Transformation.standard ∧
        Transformation.removeIdentity ∈ Transformation.standard ∧
        Transformation.pinReshapes ∈ Transformation.standard := by simp [Transformation.standard]
    -- the revision is the same all the way
    have h₀ := (hfirst.tracked (structural_normalize _)).le
    have h₁ : g₀.revision ≤ g₁.revision := (hqueues.le hmem.1 :)
    have h₂ : g₁.revision ≤ g₂.revision := (hidentities.le hmem.2.1 :)
    have h₃ : g₂.revision ≤ g₃.revision := (hreshapes.le hmem.2.2 :)
    have h₄ : g₃.revision ≤ g.revision := (haxes.tracked (structural_standard (by
      simp [Transformation.standard]))).le
    obtain rfl : g₀ = g := (hfirst.tracked (structural_normalize _)).eq_of_le (by omega)
    have hacyclic := acyclic_of_normalize hg hfirst
    obtain ⟨hleft, rfl⟩ := hqueues.self_of_le hmem.1 (h₂.trans (h₃.trans h₄))
    obtain ⟨hmerged, rfl⟩ := hidentities.self_of_le hmem.2.1 (h₃.trans h₄)
    obtain ⟨hpinned, rfl⟩ := hreshapes.self_of_le hmem.2.2 h₄
    have hwf (s : Stage) : Graph.WellFormed { g₀ with stage := s } := wellFormed_stage hg s
    have hfront := (gives_replaceQueues_self_iff (hwf .front) hacyclic).1 hleft
    exact
      { toNormalized := normalized_of_gives hg hfirst
        acyclic := hacyclic
        queues := fun i queue image shape hd =>
          hfront i queue image shape ⟨hd.kind, hd.origin, hd.queueKind, hd.image, hd.shape⟩
        identities := (gives_removeIdentities_self_iff (hwf .middle) hacyclic).1 hmerged
        reshapes := (gives_pinReshapes_self_iff (hwf .back)).1 hpinned
        axes := (gives_normalizeGatherAxes_self_iff (hwf .back)).1 haxes }
  · intro hg
    obtain ⟨r, count, h, hrun, rfl, rfl⟩ := yields_optimizeIn_self hg 0
    exact gives_bind.2 ⟨_, _, hrun, gives_lift.2 ⟨rfl, rfl⟩⟩

lemma stage_of_optimize (hx : Gives standard.optimize g () h) : h.stage = .back := by
  obtain ⟨g₀, g₁, g₂, g₃, -, -, -, ⟨k, hpin, hnormal⟩, haxes⟩ := gives_optimize hx
  have hkeep {x : Edit Unit} (hst : Structural x) :
      Edit.Keeps (fun k : Graph => k.stage = .back) x :=
    hst.keeps (Graph.invariant_stage .back).shaped
  have hk : k.stage = .back := hpin.keeps (hkeep (structural_standard (by
    simp [Transformation.standard]))) rfl
  have h₃ : g₃.stage = .back := hnormal.keeps (hkeep (structural_normalize _)) hk
  exact haxes.keeps (hkeep (structural_standard (by simp [Transformation.standard]))) h₃

/-- **Second runs**: the graph that a run has left is left as it is by another one if and only if no
queue can be replaced in it and no product asks for another pattern. -/
theorem optimize_again (hg : g.WellFormed) (hx : Gives standard.optimize g () h) :
    Gives standard.optimize h () h ↔ (∀ i, h.LeftInPlace i) ∧ h.AllPinned := by
  obtain ⟨hnormal, hacyclic, hmerged, haxes⟩ := normalized_of_optimize hg hx
  have hsame : { h with stage := .back } = h := by
    rw [← stage_of_optimize hx]
  have hiff := gives_optimize_self_iff hnormal.wellFormed
  rw [hsame] at hiff
  rw [hiff]
  constructor
  · exact fun hdone => ⟨hdone.queues, hdone.reshapes⟩
  · exact fun ⟨hqueues, hreshapes⟩ =>
      { toNormalized := hnormal
        acyclic := hacyclic
        queues := hqueues
        identities := hmerged.settled
        reshapes := hreshapes
        axes := haxes }

end Pipeline

/-- A queue of which an identity passes the handle on. -/
def passedQueue : Edit Unit := do
  let (_, handle) ← addOpWithData "queue" ((Operation.ofKind "FIFOQueueV2").withAttribute "shapes"
    (.ints [2, 3]))
  let pass ← wire "pass" (.ofKind "Identity") [handle]
  let (batch, first) ← addOpWithData "deq" (.ofKind "QueueDequeueUpToV2")
  discard (addEdge pass batch 0 1)
  let image ← wire "image" (.ofKind "Identity") [first]
  discard (addResult "out" image)

/-- The reshape has been pinned, and a second run leaves the graph as it is. -/
theorem optimize_again_reshapedProduct :
    let g := (reshapedProduct.run ∅).graph
    let h := (Pipeline.standard.optimize.run g).graph
    g.WellFormed ∧ Gives Pipeline.standard.optimize g () h ∧ h.AllPinned ∧
      Gives Pipeline.standard.optimize h () h := by
  intro g h
  have hg : g.WellFormed := by decide +kernel
  have hx : Gives Pipeline.standard.optimize g () h :=
    ⟨toOption_eq_some.1 (by decide +kernel), rfl⟩
  have hpinned : h.opNodesOf "QueueDequeueUpToV2" = [] ∧ h.AllPinned := by decide +kernel
  have hqueues : ∀ i, h.LeftInPlace i := fun i _ _ _ hd =>
    List.not_mem_nil (hpinned.1 ▸ Graph.mem_opNodesOf.2 hd.kind)
  exact ⟨hg, hx, hpinned.2, (Pipeline.optimize_again hg hx).2 ⟨hqueues, hpinned.2⟩⟩

/-- When the identity has been removed, a second run finds a queue to replace. -/
theorem optimize_again_passedQueue :
    let g := (passedQueue.run ∅).graph
    let h := (Pipeline.standard.optimize.run g).graph
    g.WellFormed ∧ Gives Pipeline.standard.optimize g () h ∧ h.Dequeues ⟨4⟩ ⟨0⟩ ⟨5⟩ [2, 3] ∧
      ¬ Gives Pipeline.standard.optimize h () h := by
  intro g h
  have hg : g.WellFormed := by decide +kernel
  have hx : Gives Pipeline.standard.optimize g () h :=
    ⟨toOption_eq_some.1 (by decide +kernel), rfl⟩
  have hread : h.kind? ⟨4⟩ = some "QueueDequeueUpToV2" ∧ h.origin? ⟨4⟩ 1 = some ⟨0⟩ ∧
      h.kind? ⟨0⟩ = some "FIFOQueueV2" ∧ h.outTarget ⟨4⟩ 0 = some ⟨5⟩ ∧
      h.batchShape? ⟨4⟩ ⟨0⟩ = some [2, 3] := by decide +kernel
  obtain ⟨hkind, horigin, hqueue, himage, hshape⟩ := hread
  have hd : h.Dequeues ⟨4⟩ ⟨0⟩ ⟨5⟩ [2, 3] := ⟨hkind, horigin, hqueue, himage, hshape⟩
  exact ⟨hg, hx, hd, fun hagain => ((Pipeline.optimize_again hg hx).1 hagain).1 _ _ _ _ hd⟩

end TensorGraph
