import Mathlib.Data.List.Sort
import TensorGraph.Proofs.BatchSizes
import TensorGraph.Proofs.Owned

/-!
Pinning reshapes twice.

Operands that ask for different patterns of one reshape overwrite one another, and the last one
wins. A second pass starts from the winner, goes through the same patterns and ends with it again
(`Pinned.steady`). The first pass has given every reshape that it changed a constant of its own
(`Pinned.owned`), so the second one only changes what these constants hold, and changes it back
(`Retraced`).
-/

namespace TensorGraph

open Edit

namespace Operation

variable {o : Operation} {name : String} {v w : Attribute}

lemma withAttribute_withAttribute :
    (o.withAttribute name v).withAttribute name w = o.withAttribute name w := by
  unfold withAttribute
  congr 1
  refine Dict.ext_find? fun k => ?_
  simp only [Dict.find?_insert]
  split <;> rfl

lemma withAttribute_eq_self (h : o.attributes.find? name = some v) :
    o.withAttribute name v = o := by
  have hsame : o.attributes.insert name v = o.attributes := Dict.ext_find? fun k => by
    rw [Dict.find?_insert]
    split
    · next hk => rw [hk, h]
    · rfl
  unfold withAttribute
  rw [hsame]

end Operation

namespace Graph

variable {g h k : Graph} {s : ReshapeSite} {new : Shape} {pair : NodeId × Operand}
  {done rest : List (NodeId × Operand)} {matmul : NodeId} {operand : Operand}

/-! ### The first pass -/

/-- `k` is `g` after operands of products asked for patterns. Asked again they leave all sites as
they are, and not even on the way they change one that has no constant of its own. -/
structure Pinned (g : Graph) (done : List (NodeId × Operand)) (k : Graph) : Prop where
  wellFormed : k.WellFormed
  lone : k.Lone "Const"
  retains : g.Retains k
  steady : ∀ s, k.IsSite s → done.foldl g.revise s = s
  owned : ∀ s, k.IsSite s → k.Owned s ∨ ∀ pair ∈ done, g.revise s pair = s

lemma Pinned.start (hg : g.WellFormed) (hconst : g.Lone "Const") : g.Pinned [] g :=
  ⟨hg, hconst, .refl g, fun _ _ => rfl, fun _ _ => .inr fun _ hp => absurd hp List.not_mem_nil⟩

/-- Where nothing is written nothing is to be revised. -/
lemma revise_of_skip (hg : g.WellFormed) (hm : g.kind? pair.1 = some "MatMul")
    (hnone : ∀ s new, g.reshapeSite pair.1 pair.2 = .ok (some s) →
      g.replacement pair.1 pair.2 s ≠ .ok (some new)) (hs : g.IsSite s) : g.revise s pair = s := by
  rcases g.revise_eq s pair with hstay | ⟨new, hfeeds, hnew, -⟩
  · exact hstay
  · exact absurd hnew (hnone s new ((reshapeSite_eq_some hg hm).2 ⟨hfeeds, hs⟩))

/-- An operand revises the site of the reshape that feeds it. -/
lemma revise_of_ne {r : NodeId} (hfeeds : g.origin? pair.1 pair.2.port = some r)
    (hne : s.reshape ≠ r) : g.revise s pair = s := by
  rcases g.revise_eq s pair with hstay | ⟨new, hfeeds', -⟩
  · exact hstay
  · exact absurd (Option.some.inj (hfeeds'.symm.trans hfeeds)) hne

lemma Retains.kind?_of_isSite (hk : g.Retains k) (hs : k.IsSite s) :
    g.kind? s.reshape = some "Reshape" := (hk.kind? (by decide)).1 hs.reshape

/-- A site that stays as it is. -/
lemma Pinned.extend (hk : g.Pinned done k) (hs : k.IsSite s) (hstay : g.revise s pair = s) :
    (done ++ [pair]).foldl g.revise s = s ∧
      (k.Owned s ∨ ∀ p ∈ done ++ [pair], g.revise s p = s) := by
  constructor
  · rw [List.foldl_append, hk.steady s hs]
    exact hstay
  · refine (hk.owned s hs).imp_right fun hdone p hp => ?_
    rcases List.mem_append.1 hp with hp | hp
    · exact hdone p hp
    · exact List.mem_singleton.1 hp ▸ hstay

end Graph

namespace Edit

variable {g h k : Graph} {s : Graph.ReshapeSite} {new : Shape} {matmul : NodeId}
  {operand : Operand} {name : String}

lemma repatterned_of_writePattern (hg : g.WellFormed) (hconst : g.Lone "Const") (hs : g.HasSite s)
    (hx : Gives (writePattern s name new) g () k) :
    ∃ c d, g.Repatterned k s.reshape c d (.ofInts new) := by
  rcases gives_writePattern hx with ⟨hl, hset⟩ | ⟨name', d, k', hadd, hrewire⟩
  · exact ⟨_, _, repatterned_of_set hs hl hset hg hconst⟩
  · obtain ⟨c, hk, -⟩ := repatterned_of_add hg hs hadd hrewire
    exact ⟨c, d, hk⟩

/-- Marking the neighbourhood of an operation puts marks on and does nothing else. -/
lemma marks_of_markNeighbourhood {r : NodeId} {o : Operation} (hg : g.WellFormed)
    (ho : g.op? r = some o) (hx : Gives (markNeighbourhood r) g () h) :
    h.Agrees g ∧ (∀ i, g.flag? i = some true → h.flag? i = some true) ∧
      ∀ i ∈ g.neighbourhood r, h.flag? i = some true := by
  obtain ⟨h', hx', halike⟩ := exists_gives_markNeighbourhood hg ho
  obtain ⟨-, rfl⟩ := hx.unique hx'
  refine ⟨halike.agrees.trans (Graph.agrees_flagOps g _), fun i hi => ?_, fun i hi => ?_⟩
  · rw [halike.flag?, Graph.flag?_flagOps_of_true hi]
  · rw [halike.flag?, Graph.flag?_neighbourhood hg ho hi]

end Edit

namespace Graph

variable {g h k : Graph} {s : ReshapeSite} {new : Shape} {pair : NodeId × Operand}
  {done rest : List (NodeId × Operand)} {matmul : NodeId} {operand : Operand}

/-- One operand asks for a pattern. -/
theorem Pinned.step (hk : g.Pinned done k) (hg : g.WellFormed) (hm : g.kind? pair.1 = some "MatMul")
    (hx : Gives (pinReshape pair.1 pair.2) k () h) : g.Pinned (done ++ [pair]) h := by
  have hw := hk.wellFormed
  have hmk : k.kind? pair.1 = some "MatMul" := (hk.retains.kind? (by decide)).2 hm
  rcases gives_pinReshape hx with ⟨rfl, hnone⟩ | ⟨s, new, name, k₁, hsite, hnew, hwrite, hmark⟩
  · -- nothing is written
    have hstay : ∀ s, h.IsSite s → g.revise s pair = s := fun s hs => by
      rw [← hk.retains.revise hg hw hm (hk.retains.kind?_of_isSite hs)]
      exact revise_of_skip hw hmk hnone hs
    exact ⟨hw, hk.lone, hk.retains, fun s hs => (hk.extend hs (hstay s hs)).1,
      fun s hs => (hk.extend hs (hstay s hs)).2⟩
  obtain ⟨hfeeds, hs⟩ := (reshapeSite_eq_some hw hmk).1 hsite
  have hr := hk.retains.kind?_of_isSite hs
  rw [hk.retains.origin? hm (by decide) fun heq => absurd heq (by decide)] at hfeeds
  obtain ⟨c, d, hrep⟩ := repatterned_of_writePattern hw hk.lone hs.toHasSite hwrite
  obtain ⟨o, ho, -⟩ := kind?_eq_some.1 (hrep.kind?_reshape hs.reshape).1
  obtain ⟨hagrees, hflag, hmarked⟩ := marks_of_markNeighbourhood hrep.wellFormed ho hmark
  have hwh : h.WellFormed := hrep.wellFormed.of_skeleton hagrees.skeleton
  -- the site at which the pattern was written
  have hown : h.Owned ⟨s.reshape, c, d, new⟩ := {
    toHasSite := (hasSite_of_agrees hagrees).2
      (hrep.hasSite hs.reshape (toInts_of_replacement hnew))
    two := length_of_replacement hnew
    alone := fun e he => hrep.only_read e (.inr (edges_of_skeleton hagrees.skeleton ▸ he))
    known := (hagrees.fact d).trans hrep.fact
    stored := by rw [hagrees.attributes, hrep.stored]
    marked := fun i hi => hmarked i (neighbourhood_of_skeleton hagrees.skeleton _ ▸ hi) }
  have hnew' : g.replacement pair.1 pair.2 ⟨s.reshape, c, d, s.pattern⟩ = .ok (some new) :=
    (hk.retains.replacement (s := ⟨s.reshape, c, d, s.pattern⟩) hg hw hm hr pair.2).symm.trans hnew
  have hhere : (done ++ [pair]).foldl g.revise ⟨s.reshape, c, d, new⟩ = ⟨s.reshape, c, d, new⟩ := by
    rw [List.foldl_append]
    exact revise_settle (s := ⟨s.reshape, c, d, s.pattern⟩) hfeeds hnew' done
  -- the other sites
  have hother {s' : ReshapeSite} (hs' : h.IsSite s') (hne : s'.reshape ≠ s.reshape) : k.IsSite s' :=
    ⟨(hrep.hasSite_iff hs.reshape hne).1 ((hasSite_of_agrees hagrees).1 hs'.toHasSite), hs'.two⟩
  refine ⟨hwh, (hrep.lone_const hw hs.reshape hk.lone).of_skeleton hagrees.skeleton,
    (hk.retains.trans (hrep.retains hw hs.reshape)).trans hagrees.retains, fun s' hs' => ?_,
    fun s' hs' => ?_⟩
  · by_cases heq : s'.reshape = s.reshape
    · rw [hown.toHasSite.unique hwh hs'.toHasSite heq]
      exact hhere
    · exact (hk.extend (hother hs' heq) (revise_of_ne hfeeds heq)).1
  · by_cases heq : s'.reshape = s.reshape
    · rw [hown.toHasSite.unique hwh hs'.toHasSite heq]
      exact .inl hown
    · refine (hk.extend (hother hs' heq) (revise_of_ne hfeeds heq)).2.imp_left fun hs' => ?_
      exact (hrep.owned hs.reshape hs' heq).of_agrees hagrees hflag

/-- All operands ask, one after the other. -/
theorem Pinned.run (hk : g.Pinned done k) (hg : g.WellFormed)
    (hrest : ∀ pair ∈ rest, g.kind? pair.1 = some "MatMul")
    (hx : Gives (rest.forM fun pair => pinReshape pair.1 pair.2) k () h) :
    g.Pinned (done ++ rest) h := by
  induction rest generalizing done k with
  | nil =>
    obtain ⟨-, rfl⟩ := gives_pure.1 hx
    rwa [List.append_nil]
  | cons pair rest ih =>
    obtain ⟨_, m, hfirst, hx⟩ := gives_bind.1 hx
    have hm := hk.step hg (hrest pair (List.mem_cons_self ..)) hfirst
    have hh := ih hm (fun p hp => hrest p (List.mem_cons_of_mem pair hp)) hx
    rwa [List.append_assoc] at hh

/-! ### The second pass -/

/-- The constant of a site and its data hold the pattern, and else what they hold in `h`. -/
structure Holds (k h : Graph) (s : ReshapeSite) : Prop where
  constant : k.op? s.constant =
    (h.op? s.constant).map (·.withAttribute "value" (.tensor (.ofInts s.pattern)))
  data : k.fact? s.data = some (.ofValue (.ofInts s.pattern))

/-- `k` is `h` after operands of products asked again for their patterns: sites with a constant of
their own hold the last pattern that was asked for, and nothing else has changed. -/
structure Retraced (h : Graph) (done : List (NodeId × Operand)) (k : Graph) : Prop where
  skeleton : k.skeleton = h.skeleton
  retains : h.Retains k
  op? : ∀ i, (∀ s, h.Owned s → s.constant ≠ i) → k.op? i = h.op? i
  fact? : ∀ i, (∀ s, h.Owned s → s.data ≠ i) → k.fact? i = h.fact? i
  holds : ∀ s, h.Owned s → k.Holds h (done.foldl h.revise s)

lemma Owned.op?_eq_self (hs : g.Owned s) :
    (g.op? s.constant).map (·.withAttribute "value" (.tensor (.ofInts s.pattern))) =
      g.op? s.constant := by
  obtain ⟨o, ho, -⟩ := kind?_eq_some.1 hs.constant
  have hstored := hs.stored
  rw [attributes?_of_op? ho, Option.bind_some] at hstored
  rw [ho, Option.map_some, Operation.withAttribute_eq_self hstored]

lemma Retraced.start (h : Graph) : h.Retraced [] h where
  skeleton := rfl
  retains := .refl h
  op? _ _ := rfl
  fact? _ _ := rfl
  holds _ hs := ⟨hs.op?_eq_self.symm, hs.known⟩

/-- Sites with constants of their own do not share them. -/
lemma Owned.eq_of_data (hg : g.WellFormed) {s' : ReshapeSite} (hs : g.Owned s) (hs' : g.HasSite s')
    (hdata : s'.data = s.data) : s' = s := by
  obtain ⟨e, he, hsrc, hdst, -⟩ := hs'.read
  exact hs.toHasSite.unique hg hs' (hdst ▸ (hs.alone e he (hsrc.trans hdata)).1)

lemma Owned.eq_of_constant (hg : g.WellFormed) (hconst : g.Lone "Const") {s' : ReshapeSite}
    (hs : g.Owned s) (hs' : g.HasSite s') (heq : s'.constant = s.constant) : s' = s := by
  obtain ⟨e, he, hsrc, hdst⟩ := hs.written
  obtain ⟨e', he', hsrc', hdst'⟩ := hs'.written
  refine hs.eq_of_data hg hs' ?_
  rw [← hdst, ← hdst', hconst e he e' he' (hsrc ▸ hs.constant) (hsrc.trans (hsrc'.trans heq).symm)]

lemma Owned.unshared (hs : g.Owned s) (hg : g.WellFormed) : (g.outgoing s.data).length ≤ 1 := by
  obtain ⟨e, he, hsrc, hdst, hinp⟩ := hs.read
  have hsub : g.outgoing s.data ⊆ [e] := fun e' he' => by
    obtain ⟨he', hsrc'⟩ := mem_outgoing.1 he'
    obtain ⟨hdst', hinp'⟩ := hs.alone e' he' hsrc'
    exact List.mem_singleton.2
      (hg.inp_unique he' he (hdst'.trans hdst.symm) (hinp'.trans hinp.symm))
  exact (List.subperm_of_subset (g.nodup_outgoing s.data) hsub).length_le

/-- Patterns that are written are held as they are, and have two dimensions. -/
lemma IsSite.settle (hs : g.IsSite s) (pairs : List (NodeId × Operand)) :
    (Tensor.ofInts (pairs.foldl h.revise s).pattern).toInts = (pairs.foldl h.revise s).pattern ∧
      (pairs.foldl h.revise s).pattern.length = 2 := by
  obtain ⟨-, t, -, -, hpattern⟩ := hs.value
  have hstart : (Tensor.ofInts s.pattern).toInts = s.pattern ∧ s.pattern.length = 2 :=
    ⟨hpattern ▸ Tensor.toInts_ofInts_toInts t, hs.two⟩
  clear hs hpattern
  induction pairs generalizing s with
  | nil => exact hstart
  | cons pair pairs ih =>
    refine ih ?_
    rcases h.revise_eq s pair with hstay | ⟨new, -, hnew, hrevise⟩
    · rwa [hstay]
    · rw [hrevise]
      exact ⟨toInts_of_replacement hnew, length_of_replacement hnew⟩

namespace Retraced

variable (hk : h.Retraced done k) (hh : h.WellFormed)

include hk

lemma edges : k.edges = h.edges := edges_of_skeleton hk.skeleton

/-- A site with a constant of its own has the last pattern that was asked for. -/
lemma isSite (hs : h.Owned s) : k.IsSite (done.foldl h.revise s) := by
  obtain ⟨hcells, htwo⟩ := hs.toIsSite.settle (h := h) done
  refine ⟨⟨?_, ?_, ?_, ?_, _, _, (hk.holds s hs).data, rfl, hcells.symm⟩, htwo⟩
  · simpa [kind?_of_skeleton hk.skeleton] using hs.reshape
  · simpa [kind?_of_skeleton hk.skeleton] using hs.constant
  · simpa [hk.edges] using hs.read
  · simpa [hk.edges] using hs.written

/-- There are no other sites than there were. -/
lemma exists_owned (hh : h.WellFormed) {s' : ReshapeSite} (hs' : k.IsSite s') :
    (∃ s, h.Owned s ∧ s' = done.foldl h.revise s) ∨ h.IsSite s' ∧ ¬h.Owned s' := by
  by_cases hdata : ∃ s, h.Owned s ∧ s.data = s'.data
  · obtain ⟨s, hs, hdata⟩ := hdata
    refine .inl ⟨s, hs, (hk.isSite hs).toHasSite.unique (hh.of_skeleton hk.skeleton)
      hs'.toHasSite ?_⟩
    obtain ⟨e, he, hsrc, hdst, -⟩ := hs'.read
    rw [settle_reshape, ← hdst, (hs.alone e (hk.edges ▸ he) (hsrc.trans hdata.symm)).1]
  · refine .inr ⟨⟨(hasSite_congr ?_ ?_ ?_ ?_ ?_).1 hs'.toHasSite, hs'.two⟩,
      fun hown => hdata ⟨s', hown, rfl⟩⟩
    · exact kind?_of_skeleton hk.skeleton _
    · exact kind?_of_skeleton hk.skeleton _
    · exact hk.fact? _ fun s hs heq => hdata ⟨s, hs, heq⟩
    · exact fun _ _ _ => by rw [hk.edges]
    · exact fun _ _ _ => by rw [hk.edges]

lemma flag? (i : NodeId) : k.flag? i = h.flag? i := by
  by_cases hconst : ∃ s, h.Owned s ∧ s.constant = i
  · obtain ⟨s, hs, rfl⟩ := hconst
    have hheld := (hk.holds s hs).constant
    rw [settle_constant] at hheld
    rw [Graph.flag?, hheld, Option.map_map]
    rfl
  · rw [Graph.flag?, hk.op? i fun s hs heq => hconst ⟨s, hs, heq⟩]
    rfl

end Retraced

end Graph

namespace Edit

variable {g h k : Graph} {s : Graph.ReshapeSite} {new : Shape} {matmul : NodeId}
  {operand : Operand} {name : String}

lemma exists_gives_setFacts {l : List NodeId} (f : Fact → Fact)
    (hl : ∀ d ∈ l, (g.fact? d).isSome) : ∃ h, Gives (l.forM fun d => modifyFact d f) g () h := by
  induction l generalizing g with
  | nil => exact ⟨g, rfl, rfl⟩
  | cons d l ih =>
    obtain ⟨fact, hfact⟩ := Option.isSome_iff_exists.1 (hl d (List.mem_cons_self ..))
    have hfirst := gives_modifyFact hfact f
    obtain ⟨h, hrest⟩ :=
      ih (g := { g.modifyFact d f with revision := g.revision + 1 }) fun i hi => by
      have hsome : ((g.modifyFact d f).fact? i).isSome := by
        rw [Graph.isSome_fact?_of_skeleton (Graph.skeleton_modifyFact d f)]
        exact hl i (List.mem_cons_of_mem d hi)
      exact hsome
    exact ⟨h, gives_bind.2 ⟨(), _, hfirst, hrest⟩⟩

lemma exists_gives_setConstValue {c : NodeId} {o : Operation} (hg : g.WellFormed)
    (ho : g.op? c = some o) (value : Tensor) : ∃ h, Gives (setConstValue c value) g () h := by
  have hfirst := gives_modifyOp ho (·.withAttribute "value" (.tensor value))
  generalize hk : ({ g.modifyOp c (·.withAttribute "value" (.tensor value)) with
    revision := g.revision + 1 } : Graph) = k at hfirst
  have hskel : k.skeleton = g.skeleton := by
    rw [← hk, Graph.skeleton_revision]
    exact Graph.skeleton_modifyOp c (by intro o; rfl) (by intro o; rfl)
  obtain ⟨o', ho'⟩ := Graph.exists_op?_of_skeleton hskel ho
  obtain ⟨h, hrest⟩ := exists_gives_setFacts (g := k) (l := k.targets c) (fun _ => .ofValue value)
    fun d hd => by
      obtain ⟨e, he, rfl, rfl⟩ := Graph.mem_targets.1 hd
      obtain ⟨f, hf⟩ := Graph.ends_of_op_src (hg.of_skeleton hskel) he ho'
      rw [hf]
      rfl
  exact ⟨h, gives_bind.2 ⟨(), k, hfirst, gives_query_bind (Graph.outputs_eq ho') hrest⟩⟩

/-- Where no site has a pattern to be replaced, pinning succeeds and does nothing. -/
lemma gives_pinReshape_of_skip (hg : g.WellFormed) (hm : g.kind? matmul = some "MatMul")
    (hnone : ∀ s new, g.reshapeSite matmul operand = .ok (some s) →
      g.replacement matmul operand s ≠ .ok (some new)) : Gives
        (pinReshape matmul operand) g () g := by
  obtain ⟨site?, hsite⟩ := Graph.exists_reshapeSite hg hm operand
  unfold pinReshape
  refine gives_query_bind hsite ?_
  rcases site? with _ | s
  · exact gives_pure.2 ⟨rfl, rfl⟩
  obtain ⟨-, hs⟩ := (Graph.reshapeSite_eq_some hg hm).1 hsite
  obtain ⟨new?, hnew⟩ := Graph.exists_replacement hg hm operand hs.reshape
  refine gives_query_bind hnew ?_
  rcases new? with _ | new
  · exact gives_pure.2 ⟨rfl, rfl⟩
  · exact absurd hnew (hnone s new hsite)

/-- Where the data of the constant are read by the reshape alone, a pattern is written without
failing, into that constant. -/
lemma exists_gives_pinReshape (hg : g.WellFormed)
    (hm : g.kind? matmul = some "MatMul") (hsite : g.reshapeSite matmul operand = .ok (some s))
    (hnew : g.replacement matmul operand s = .ok (some new))
    (hl : (g.outgoing s.data).length ≤ 1) :
    ∃ k h, Gives (setConstValue s.constant (.ofInts new)) g () k ∧
      Gives (markNeighbourhood s.reshape) k () h ∧ Gives (pinReshape matmul operand) g () h := by
  obtain ⟨-, hs⟩ := (Graph.reshapeSite_eq_some hg hm).1 hsite
  obtain ⟨o, ho, -⟩ := Graph.kind?_eq_some.1 hs.reshape
  obtain ⟨c, hc, -⟩ := Graph.kind?_eq_some.1 hs.constant
  obtain ⟨f, t, hf, -⟩ := hs.value
  obtain ⟨n, hn⟩ := Graph.node_ok_of_op? ho
  obtain ⟨k, hset⟩ := exists_gives_setConstValue hg hc (.ofInts new)
  have hskel : k.skeleton = g.skeleton :=
    hset.keeps (keeps_setConstValue_of (Graph.unaffected_skeleton _) _ _) rfl
  obtain ⟨o', ho'⟩ := Graph.exists_op?_of_skeleton hskel ho
  obtain ⟨h, hmark, -⟩ := exists_gives_markNeighbourhood (hg.of_skeleton hskel) ho'
  have hwrite : Gives (writePattern s n.name new) g () k := by
    unfold writePattern
    refine gives_query_bind (Graph.consumers_eq hf) ?_
    rw [if_neg (Nat.not_lt_of_le hl)]
    exact hset
  refine ⟨k, h, hset, hmark, ?_⟩
  unfold pinReshape
  refine gives_query_bind hsite (gives_query_bind hnew (gives_query_bind hn ?_))
  exact gives_bind.2 ⟨(), g, gives_note.2 rfl, gives_bind.2 ⟨(), k, hwrite, hmark⟩⟩

end Edit

namespace Graph

variable {g h k : Graph} {s : ReshapeSite} {new : Shape} {pair : NodeId × Operand}
  {done rest : List (NodeId × Operand)} {matmul : NodeId} {operand : Operand}

/-- A pattern is written into the constant of a site, and all that is to be marked is marked. -/
lemma Retraced.alike_of_write (hk : h.Retraced done k) (hh : h.WellFormed) (hconst : h.Lone "Const")
    (hs : h.Owned s) {m k' : Graph} (hset : Gives (setConstValue s.constant (.ofInts new)) k () m)
    (hmark : Gives (markNeighbourhood s.reshape) m () k') :
    k'.Alike ((k.modifyOp s.constant (·.withAttribute "value" (.tensor (.ofInts new)))).modifyFact
      s.data fun _ => .ofValue (.ofInts new)) := by
  obtain ⟨e, he, hsrc, hdst⟩ := hs.written
  have hlone : ∀ e' ∈ k.edges, e'.src = e.src → e = e' := fun e' he' hsrc' =>
    hconst e he e' (hk.edges ▸ he') (hsrc ▸ hs.constant) hsrc'.symm
  have halike := gives_setConstValue (hk.edges ▸ he) hlone (hsrc ▸ hset)
  rw [hsrc, hdst] at halike
  have hskel : m.skeleton = h.skeleton :=
    (hset.keeps (keeps_setConstValue_of (unaffected_skeleton _) _ _) rfl).trans hk.skeleton
  obtain ⟨o, ho, -⟩ := kind?_eq_some.1 hs.reshape
  obtain ⟨o', ho'⟩ := exists_op?_of_skeleton hskel ho
  obtain ⟨h', hx, hmarks⟩ := exists_gives_markNeighbourhood (hh.of_skeleton hskel) ho'
  obtain ⟨-, rfl⟩ := hmark.unique hx
  refine (hmarks.trans (alike_flagOps fun i hi => ?_)).trans halike
  have hstored : (k.modifyOp s.constant (·.withAttribute "value" (.tensor (.ofInts new)))).flag? i =
      k.flag? i := flag?_modifyOp s.constant (by intro o; rfl)
  rw [halike.flag?, flag?_modifyFact, hstored, hk.flag?,
    hs.marked i (neighbourhood_of_skeleton hskel _ ▸ hi)]
  decide

/-- One operand asks again. -/
theorem Retraced.step (hk : h.Retraced done k) (hh : h.WellFormed) (hconst : h.Lone "Const")
    (hm : h.kind? pair.1 = some "MatMul")
    (hpair : ∀ s, h.IsSite s → h.Owned s ∨ h.revise s pair = s) :
    ∃ k', Gives (pinReshape pair.1 pair.2) k () k' ∧ h.Retraced (done ++ [pair]) k' := by
  have hw : k.WellFormed := hh.of_skeleton hk.skeleton
  have hmk : k.kind? pair.1 = some "MatMul" := (hk.retains.kind? (by decide)).2 hm
  have hrevise {s : ReshapeSite} (hs : k.IsSite s) : k.revise s pair = h.revise s pair :=
    hk.retains.revise hh hw hm (hk.retains.kind?_of_isSite hs)
  by_cases hwrite : ∃ s new, k.reshapeSite pair.1 pair.2 = .ok (some s) ∧
    k.replacement pair.1 pair.2 s = .ok (some new)
  swap
  · -- nothing is written
    have hnone : ∀ s new, k.reshapeSite pair.1 pair.2 = .ok (some s) →
        k.replacement pair.1 pair.2 s ≠ .ok (some new) :=
      fun s new hsite hnew => hwrite ⟨s, new, hsite, hnew⟩
    refine ⟨k, gives_pinReshape_of_skip hw hmk hnone, hk.skeleton, hk.retains, hk.op?, hk.fact?,
      fun s hs => ?_⟩
    have hstay : h.revise (done.foldl h.revise s) pair = done.foldl h.revise s :=
      (hrevise (hk.isSite hs)).symm.trans (revise_of_skip hw hmk hnone (hk.isSite hs))
    rw [List.foldl_append, List.foldl_cons, hstay]
    exact hk.holds s hs
  obtain ⟨s', new, hsite, hnew⟩ := hwrite
  obtain ⟨hfeeds, hs'⟩ := (reshapeSite_eq_some hw hmk).1 hsite
  have hrevised : h.revise s' pair = { s' with pattern := new } :=
    (hrevise hs').symm.trans (revise_of_replacement hfeeds hnew)
  rw [hk.retains.origin? hm (by decide) fun heq => absurd heq (by decide)] at hfeeds
  -- the site has a constant of its own
  obtain ⟨s, hs, rfl⟩ : ∃ s, h.Owned s ∧ s' = done.foldl h.revise s := by
    refine (hk.exists_owned hh hs').resolve_right fun ⟨hold, hnot⟩ => ?_
    have hstay := (hpair s' hold).resolve_left hnot
    exact (replacement_iff.1 hnew).2.1 (congrArg ReshapeSite.pattern (hstay.symm.trans hrevised))
  have hl : (k.outgoing (done.foldl h.revise s).data).length ≤ 1 := by
    rw [outgoing_of_skeleton hk.skeleton, settle_data]
    exact hs.unshared hh
  obtain ⟨m, k', hset, hmark, hx⟩ := exists_gives_pinReshape hw hmk hsite hnew hl
  have hretains : k.Retains k' :=
    ((repatterned_of_set hs'.toHasSite hl hset hw (hconst.of_skeleton hk.skeleton)).retains hw
      hs'.reshape).trans (hmark.keeps (keeps_agrees_markNeighbourhood m _) (.refl m)).retains
  rw [settle_constant] at hset
  rw [settle_reshape] at hmark hfeeds
  have halike := hk.alike_of_write hh hconst hs hset hmark
  have hskel : k'.skeleton = k.skeleton := halike.skeleton.trans
    ((skeleton_modifyFact ..).trans (skeleton_modifyOp _ (by intro o; rfl) (by intro o; rfl)))
  have hop (i : NodeId) (hi : s.constant ≠ i) : k'.op? i = k.op? i := by
    rw [halike.op?, op?_modifyFact, op?_modifyOp, if_neg hi.symm]
  have hfact (i : NodeId) (hi : s.data ≠ i) : k'.fact? i = k.fact? i := by
    rw [halike.fact?, fact?_modifyFact, if_neg hi.symm, fact?_modifyOp]
  refine ⟨k', hx, hskel.trans hk.skeleton, hk.retains.trans hretains, fun i hi => ?_,
    fun i hi => ?_,
    fun s₁ hs₁ => ?_⟩
  · exact (hop i (hi s hs)).trans (hk.op? i hi)
  · exact (hfact i (hi s hs)).trans (hk.fact? i hi)
  rw [List.foldl_append, List.foldl_cons, List.foldl_nil]
  by_cases heq : s₁.reshape = s.reshape
  · obtain rfl := hs.toHasSite.unique hh hs₁.toHasSite heq
    rw [hrevised]
    have hheld := hk.holds s₁ hs
    refine ⟨?_, ?_⟩
    · show k'.op? (done.foldl h.revise s₁).constant = _
      have hop := hheld.constant
      rw [settle_constant] at hop ⊢
      rw [halike.op?, op?_modifyFact, op?_modifyOp, if_pos rfl, hop, Option.map_map]
      exact congrArg (fun f => Option.map f _)
        (funext fun o => Operation.withAttribute_withAttribute)
    · show k'.fact? (done.foldl h.revise s₁).data = _
      have hfact := hheld.data
      rw [settle_data] at hfact ⊢
      rw [halike.fact?, fact?_modifyFact, if_pos rfl, fact?_modifyOp, hfact]
      rfl
  · rw [revise_of_ne hfeeds (by rwa [settle_reshape])]
    have hheld := hk.holds s₁ hs₁
    refine ⟨(hop _ fun hc => heq ?_).trans hheld.constant,
      (hfact _ fun hd => heq ?_).trans hheld.data⟩
    · rw [settle_constant] at hc
      rw [hs.eq_of_constant hh hconst hs₁.toHasSite hc.symm]
    · rw [settle_data] at hd
      rw [hs.eq_of_data hh hs₁.toHasSite hd.symm]

/-- All operands ask again, one after the other. -/
theorem Retraced.run (hk : h.Retraced done k) (hh : h.WellFormed) (hconst : h.Lone "Const")
    (hm : ∀ pair ∈ rest, h.kind? pair.1 = some "MatMul")
    (hrest : ∀ s, h.IsSite s → h.Owned s ∨ ∀ pair ∈ rest, h.revise s pair = s) :
    ∃ k', Gives (rest.forM fun pair => pinReshape pair.1 pair.2) k () k' ∧
      h.Retraced (done ++ rest) k' := by
  induction rest generalizing done k with
  | nil => exact ⟨k, ⟨rfl, rfl⟩, by rwa [List.append_nil]⟩
  | cons pair rest ih =>
    have hhead := List.mem_cons_self (a := pair) (l := rest)
    have htail {p : NodeId × Operand} (hp : p ∈ rest) : p ∈ pair :: rest :=
      List.mem_cons_of_mem pair hp
    obtain ⟨m, hfirst, hretraced⟩ := hk.step hh hconst (hm pair hhead) fun s hs =>
      (hrest s hs).imp_right fun hstay => hstay pair hhead
    obtain ⟨k', hx, hk'⟩ := ih hretraced (fun p hp => hm p (htail hp)) fun s hs =>
      (hrest s hs).imp_right fun hstay p hp => hstay p (htail hp)
    rw [List.append_assoc] at hk'
    exact ⟨k', gives_bind.2 ⟨(), m, hfirst, hx⟩, hk'⟩

/-- When all sites end with the patterns that they had, nothing has changed. -/
lemma Retraced.alike (hk : h.Retraced done k)
    (hsteady : ∀ s, h.Owned s → done.foldl h.revise s = s) : k.Alike h := by
  have hop (i : NodeId) : k.op? i = h.op? i := by
    by_cases hconst : ∃ s, h.Owned s ∧ s.constant = i
    · obtain ⟨s, hs, rfl⟩ := hconst
      have hheld := (hk.holds s hs).constant
      rw [hsteady s hs] at hheld
      rw [hheld, hs.op?_eq_self]
    · exact hk.op? i fun s hs heq => hconst ⟨s, hs, heq⟩
  have hfact (i : NodeId) : k.fact? i = h.fact? i := by
    by_cases hdata : ∃ s, h.Owned s ∧ s.data = i
    · obtain ⟨s, hs, rfl⟩ := hdata
      have hheld := (hk.holds s hs).data
      rw [hsteady s hs] at hheld
      rw [hheld, hs.known]
    · exact hk.fact? i fun s hs heq => hdata ⟨s, hs, heq⟩
  exact alike_of_contents hk.skeleton hop hfact

/-! ### The order of the products -/

lemma pairwise_opNodesOf (g : Graph) (kind : String) :
    (g.opNodesOf kind).Pairwise fun i j => i.index < j.index := by
  have hentries : g.nodes.entries.Pairwise fun a b => a.1 < b.1 := by
    refine List.pairwise_filterMap.2 (List.pairwise_lt_range.imp fun {i j} hlt a ha b hb => ?_)
    obtain ⟨_, -, rfl⟩ := Option.map_eq_some_iff.1 ha
    obtain ⟨_, -, rfl⟩ := Option.map_eq_some_iff.1 hb
    exact hlt
  rw [opNodesOf, entries_eq, List.pairwise_map]
  refine List.Pairwise.sublist List.filter_sublist ?_
  rw [List.pairwise_map]
  exact hentries

lemma opNodesOf_congr {kind : String}
    (hkind : ∀ i, h.kind? i = some kind ↔ g.kind? i = some kind) :
    h.opNodesOf kind = g.opNodesOf kind := by
  have : Std.Irrefl fun i j : NodeId => i.index < j.index := ⟨fun i => Nat.lt_irrefl i.index⟩
  have : Std.Antisymm fun i j : NodeId => i.index < j.index :=
    ⟨fun i j hij hji => absurd hji (Nat.lt_asymm hij)⟩
  refine (pairwise_opNodesOf h kind).eq_of_mem_iff (pairwise_opNodesOf g kind) fun i => ?_
  rw [mem_opNodesOf, mem_opNodesOf, hkind]

/-- The operands of products, in the order in which they are looked at. -/
def operandsOf (l : List NodeId) : List (NodeId × Operand) :=
  l.flatMap fun matmul => [(matmul, .left), (matmul, .right)]

lemma mem_operandsOf {l : List NodeId} : pair ∈ operandsOf l ↔ pair.1 ∈ l := by
  obtain ⟨matmul, operand⟩ := pair
  cases operand <;> simp [operandsOf]

end Graph

namespace Edit

lemma forM_pinReshapes (l : List NodeId) :
    l.forM pinReshapes = (Graph.operandsOf l).forM fun pair => pinReshape pair.1 pair.2 := by
  induction l with
  | nil => rfl
  | cons matmul l ih =>
    show (pinReshape matmul .left >>= fun _ => pinReshape matmul .right) >>=
      (fun _ => l.forM pinReshapes) =
      pinReshape matmul .left >>= fun _ => pinReshape matmul .right >>= fun _ =>
        (Graph.operandsOf l).forM fun pair => pinReshape pair.1 pair.2
    rw [bind_assoc, ih]

lemma gives_pinReshapes {g h : Graph} : Gives Transformation.pinReshapes.apply g () h ↔
    Gives ((Graph.operandsOf (g.opNodesOf "MatMul")).forM fun pair => pinReshape pair.1 pair.2)
      g () h := by
  rw [← forM_pinReshapes]
  constructor
  · intro hx
    obtain ⟨_, _, hcurrent, hx⟩ := gives_bind.1 hx
    obtain ⟨rfl, rfl⟩ := gives_current.1 hcurrent
    exact hx
  · exact fun hx => gives_bind.2 ⟨g, g, gives_current.2 ⟨rfl, rfl⟩, hx⟩

end Edit

/-- **Pinning is idempotent**: where the constants have one output at most, a second pass succeeds
and leaves the nodes and the links of the graph as they are. -/
theorem pinReshapes_idempotent {g h : Graph} (hg : g.WellFormed) (hconst : g.Lone "Const")
    (hx : Gives Transformation.pinReshapes.apply g () h) :
    ∃ k, Gives Transformation.pinReshapes.apply h () k ∧ k.Alike h := by
  have hmatmul : ∀ pair ∈ Graph.operandsOf (g.opNodesOf "MatMul"), g.kind? pair.1 = some "MatMul" :=
    fun pair hp => Graph.mem_opNodesOf.1 (Graph.mem_operandsOf.1 hp)
  have hpinned := (Graph.Pinned.start hg hconst).run hg hmatmul (gives_pinReshapes.1 hx)
  rw [List.nil_append] at hpinned
  have hh := hpinned.wellFormed
  have horder : h.opNodesOf "MatMul" = g.opNodesOf "MatMul" :=
    Graph.opNodesOf_congr fun i => hpinned.retains.kind? (by decide)
  -- operands ask for what they asked for in the first pass
  have hrevise {s : Graph.ReshapeSite} (hs : h.IsSite s) :
      ∀ pair ∈ Graph.operandsOf (g.opNodesOf "MatMul"), h.revise s pair = g.revise s pair :=
    fun pair hp => hpinned.retains.revise hg hh (hmatmul pair hp)
      (hpinned.retains.kind?_of_isSite hs)
  obtain ⟨k, hk, hretraced⟩ := (Graph.Retraced.start h).run hh hpinned.lone
    (fun pair hp => (hpinned.retains.kind? (by decide)).2 (hmatmul pair hp)) fun s hs =>
      (hpinned.owned s hs).imp_right fun hstay pair hp => (hrevise hs pair hp).trans (hstay pair hp)
  refine ⟨k, gives_pinReshapes.2 (horder ▸ hk), hretraced.alike fun s hs => ?_⟩
  rw [List.nil_append, hpinned.retains.settle hg hh hmatmul
    (hpinned.retains.kind?_of_isSite hs.toIsSite)]
  exact hpinned.steady s hs.toIsSite

/-- The reshape that two products contest ends as the second one asks, again. -/
theorem pinReshapes_idempotent_contestedProduct :
    let g := (contestedProduct.run ∅).graph
    let h := (Transformation.pinReshapes.apply.run g).graph
    g.WellFormed ∧ g.Lone "Const" ∧ Gives Transformation.pinReshapes.apply g () h ∧
      ∃ k, Gives Transformation.pinReshapes.apply h () k ∧ k.Alike h := by
  intro g h
  have hg : g.WellFormed := by decide +kernel
  have hconst : g.Lone "Const" := by decide +kernel
  have hx : Gives Transformation.pinReshapes.apply g () h :=
    ⟨toOption_eq_some.1 (by decide +kernel), rfl⟩
  exact ⟨hg, hconst, hx, pinReshapes_idempotent hg hconst hx⟩

end TensorGraph
