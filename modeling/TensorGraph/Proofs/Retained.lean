import TensorGraph.Proofs.Sites

/-!
What new patterns leave.

`g.Retains k` says that the operations of `g` find in `k` what they find in `g`, on all inputs but
the patterns of reshapes. A new pattern retains a graph (`Repatterned.retains`). In what retains a
graph the products ask for the same patterns (`Retains.revise`), so whether one is written does not
depend on what was written before at other sites.
-/

namespace TensorGraph

namespace Graph

variable {g h k : Graph} {op : NodeId} {p : Nat} {kind : String}

/-- Operations but the constants find the same on their inputs, but for the patterns of reshapes. -/
structure Retains (g k : Graph) : Prop where
  kind? : ∀ {op kind}, kind ≠ "Const" → (k.kind? op = some kind ↔ g.kind? op = some kind)
  attributes? : ∀ {op kind}, g.kind? op = some kind → kind ≠ "Const" →
    k.attributes? op = g.attributes? op
  inputShape? : ∀ {op kind p}, g.kind? op = some kind → kind ≠ "Const" →
    (kind = "Reshape" → p ≠ 1) → k.inputShape? op p = g.inputShape? op p
  origin? : ∀ {op kind p}, g.kind? op = some kind → kind ≠ "Const" →
    (kind = "Reshape" → p ≠ 1) → k.origin? op p = g.origin? op p

lemma Retains.refl (g : Graph) : g.Retains g :=
  ⟨fun _ => Iff.rfl, fun _ _ => rfl, fun _ _ _ => rfl, fun _ _ _ => rfl⟩

lemma Retains.trans (hg : g.Retains h) (hh : h.Retains k) : g.Retains k where
  kind? hne := (hh.kind? hne).trans (hg.kind? hne)
  attributes? ho hne := (hh.attributes? ((hg.kind? hne).2 ho) hne).trans (hg.attributes? ho hne)
  inputShape? ho hne hp :=
    (hh.inputShape? ((hg.kind? hne).2 ho) hne hp).trans (hg.inputShape? ho hne hp)
  origin? ho hne hp := (hh.origin? ((hg.kind? hne).2 ho) hne hp).trans (hg.origin? ho hne hp)

lemma origin?_of_skeleton (hs : h.skeleton = g.skeleton) (op : NodeId) (p : Nat) :
    h.origin? op p = g.origin? op p := by
  unfold origin?
  rw [inSource_of_skeleton hs]
  simp only [incoming_of_skeleton hs]

lemma Agrees.retains (ha : h.Agrees g) : g.Retains h where
  kind? _ := by rw [kind?_of_skeleton ha.skeleton]
  attributes? _ _ := ha.attributes _
  inputShape? _ _ _ := by
    unfold inputShape?
    rw [inputFact?_of_agrees ha]
  origin? _ _ _ := origin?_of_skeleton ha.skeleton _ _

/-! ### New patterns -/

namespace Repatterned

variable {r c d j : NodeId} {value : Tensor} {o : Operation} (hk : g.Repatterned k r c d value)

include hk

variable (hg : g.WellFormed) (hr : g.kind? r = some "Reshape")

include hg hr

/-- What other inputs are fed from. -/
lemma origin? (ho : g.kind? op = some kind) (hne : kind ≠ "Const") (hp : op = r → p ≠ 1) :
    k.origin? op p = g.origin? op p := by
  have hc := hk.ne_of_kind ho hne
  obtain ⟨o, ho', -⟩ := kind?_eq_some.1 ho
  have hok := hk.op?_of_ne ho' hc
  have hkind : k.kind? op = some kind := by
    rw [Graph.kind?, hok, ← ho, Graph.kind?, ho']
  refine Option.ext fun i => ?_
  rw [origin?_eq_some hk.wellFormed hkind, origin?_eq_some hg ho]
  refine exists_congr fun e => ?_
  by_cases hat : e.dst = op ∧ e.inp = p
  swap
  · exact iff_of_false (fun h => hat ⟨h.2.1, h.2.2.1⟩) fun h => hat ⟨h.2.1, h.2.2.1⟩
  obtain ⟨rfl, rfl⟩ := hat
  rw [hk.mem_edges_input hg ho' hok rfl hp]
  refine and_congr_right fun he => and_congr_right fun _ => and_congr_right fun _ =>
    exists_congr fun e' => ?_
  have hd : e.src ≠ d := fun hsrc => by
    obtain ⟨hdst, hinp⟩ := hk.only_read e (.inl he) hsrc
    exact hp hdst hinp
  by_cases hat : e'.dst = e.src
  swap
  · exact iff_of_false (fun h => hat h.2.2) fun h => hat h.2.2
  refine and_congr_left fun _ => ?_
  obtain ⟨f, hf⟩ := ends_of_op_dst hg he ho'
  have hek := (hk.mem_edges_input hg ho' hok rfl hp).2 he
  obtain ⟨f', hf'⟩ := ends_of_op_dst hk.wellFormed hek hok
  constructor
  · intro he'
    obtain ⟨o', ho''⟩ := ends_of_fact_dst hk.wellFormed he' (hat ▸ hf')
    refine (hk.output hg hr ho'' (fun hsrc => hd ?_) rfl).1.1 he'
    obtain ⟨e₁, he₁, hsrc₁, hdst₁⟩ := hk.written
    rw [← hat, hk.lone e' he' e₁ he₁ hsrc hsrc₁, hdst₁]
  · intro he'
    obtain ⟨o', ho''⟩ := ends_of_fact_dst hg he' (hat ▸ hf)
    have hsrc : e'.src ≠ c := fun hsrc => hd (hat ▸ hk.only_writes e' he' hsrc)
    exact (hk.output hg hr (hk.op?_of_ne ho'' hsrc) hsrc rfl).1.2 he'

/-- A new pattern retains a graph. -/
theorem retains : g.Retains k where
  kind? {op kind} hne := by
    constructor
    · intro ho
      exact hk.kind? ho (hk.ne_const ho hne)
    · intro ho
      obtain ⟨o, ho', rfl⟩ := kind?_eq_some.1 ho
      exact kind?_eq_some.2 ⟨o, hk.op?_of_ne ho' (hk.ne_of_kind ho hne), rfl⟩
  attributes? {op kind} ho hne := by
    obtain ⟨o, ho', rfl⟩ := kind?_eq_some.1 ho
    rw [attributes?_of_op? ho', attributes?_of_op? (hk.op?_of_ne ho' (hk.ne_of_kind ho hne))]
  inputShape? {op kind p} ho hne hp := by
    obtain ⟨o, ho', -⟩ := kind?_eq_some.1 ho
    have hc := hk.ne_of_kind ho hne
    unfold inputShape?
    rw [hk.inputFact? hg (hk.op?_of_ne ho' hc) hc fun heq => hp ?_]
    exact Option.some.inj ((heq ▸ ho).symm.trans hr)
  origin? {op kind p} ho hne hp := by
    refine hk.origin? hg hr ho hne fun heq => hp ?_
    exact Option.some.inj ((heq ▸ ho).symm.trans hr)

end Repatterned

/-! ### What products ask for -/

namespace Retains

variable {matmul : NodeId} {s : ReshapeSite} (hk : g.Retains k) (hg : g.WellFormed)
  (hw : k.WellFormed)

section

include hk

lemma flag (ho : g.kind? op = some kind) (hne : kind ≠ "Const") (name : String) (default : Bool) :
    k.flag op name default = g.flag op name default := by
  obtain ⟨attributes, ha⟩ := exists_attributes_of_kind ho
  rw [flag_eq ha, flag_eq ((hk.attributes? ho hne).trans ha)]

include hg hw

lemma knownShape (ho : g.kind? op = some kind) (hne : kind ≠ "Const")
    (hp : kind = "Reshape" → p ≠ 1) : k.knownShape op p = g.knownShape op p := by
  rw [knownShape_eq hg ho, knownShape_eq hw ((hk.kind? hne).2 ho), hk.inputShape? ho hne hp]

lemma comesFrom (ho : g.kind? op = some kind) (hne : kind ≠ "Const")
    (hp : kind = "Reshape" → p ≠ 1) {kinds : List String} (hkinds : "Const" ∉ kinds) :
    k.comesFrom op p kinds = g.comesFrom op p kinds := by
  have hany (r : NodeId) : (kinds.any fun kind' => k.kind? r = some kind') =
      kinds.any fun kind' => g.kind? r = some kind' := by
    rw [Bool.eq_iff_iff, List.any_eq_true, List.any_eq_true]
    refine exists_congr fun kind' => and_congr_right fun hmem => ?_
    rw [decide_eq_true_eq, decide_eq_true_eq]
    exact hk.kind? fun heq => hkinds (heq ▸ hmem)
  rw [comesFrom_eq hg ho, comesFrom_eq hw ((hk.kind? hne).2 ho), hk.origin? ho hne hp]
  simp only [hany]

lemma newPattern (ho : g.kind? matmul = some "MatMul") (operand : Operand) :
    k.newPattern matmul operand = g.newPattern matmul operand := by
  have hport (p : Nat) : "MatMul" = "Reshape" → p ≠ 1 := fun heq => absurd heq (by decide)
  have hfolded : k.comesFrom matmul operand.other.port ["Reshape", "Transpose"] =
      g.comesFrom matmul operand.other.port ["Reshape", "Transpose"] :=
    hk.comesFrom hg hw ho (by decide) (hport _) (by decide)
  unfold Graph.newPattern
  simp only [hk.flag ho (by decide), hk.knownShape hg hw ho (by decide) (hport _), hfolded]

lemma replacement (ho : g.kind? matmul = some "MatMul") (hr : g.kind? s.reshape = some "Reshape")
    (operand : Operand) : k.replacement matmul operand s = g.replacement matmul operand s := by
  unfold Graph.replacement
  simp only [hk.newPattern hg hw ho, hk.flag hr (by decide),
    hk.knownShape hg hw hr (by decide) (p := 0) fun _ => by decide]

/-- What is written at a site is what was to be written before. -/
theorem revise {pair : NodeId × Operand} (ho : g.kind? pair.1 = some "MatMul")
    (hr : g.kind? s.reshape = some "Reshape") : k.revise s pair = g.revise s pair := by
  unfold Graph.revise
  rw [hk.replacement hg hw ho hr, hk.origin? ho (by decide) fun h => absurd h (by decide)]

lemma settle {pairs : List (NodeId × Operand)} (hm : ∀ p ∈ pairs, g.kind? p.1 = some "MatMul")
    (hr : g.kind? s.reshape = some "Reshape") :
    pairs.foldl k.revise s = pairs.foldl g.revise s := by
  induction pairs generalizing s with
  | nil => rfl
  | cons p pairs ih =>
    rw [List.foldl_cons, List.foldl_cons, hk.revise hg hw (hm p (List.mem_cons_self ..)) hr]
    refine ih (fun q hq => hm q (List.mem_cons_of_mem p hq)) ?_
    rw [show (g.revise s p).reshape = s.reshape from settle_reshape g s [p]]
    exact hr

end

end Retains

end Graph

end TensorGraph
