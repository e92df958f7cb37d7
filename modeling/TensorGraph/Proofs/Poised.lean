import TensorGraph.Proofs.Calm
import TensorGraph.Proofs.Identities
import TensorGraph.Proofs.Passes

/-!
Graphs on which a normalization has no effect on the outputs of the model.

In a `Poised` graph all operations are calm, and the structure is such that the passes find what
they expect. Inference of what is marked leaves it poised, and what the outputs of the model read
(`Poised.inferMarked`), and so does every change of the structure that the remaining operations do
not notice (`Unnoticed.poised`), such as a clean-up (`Cleaned.unnoticed`).
-/

namespace TensorGraph

open Edit

namespace Graph

variable {g h k : Graph} {id op d : NodeId} {o : Operation} {ws : List Write} {kind : String}
  {P Q : NodeId → Prop}

/-! ### Values with their shapes -/

/-- All that is known is shaped. -/
def ShapedFacts (g : Graph) : Prop := ∀ d f, g.fact? d = some f → f.Shaped

lemma Shaped.facts (hs : g.Shaped) : g.ShapedFacts := fun _ _ hf _ ht => hs hf ht

lemma ShapedFacts.of_facts (hs : g.ShapedFacts)
    (hf : ∀ d f, h.fact? d = some f → g.fact? d = some f) : h.ShapedFacts :=
  fun d f hd => hs d f (hf d f hd)

lemma ShapedFacts.of_agrees (hs : g.ShapedFacts) (ha : h.Agrees g) : h.ShapedFacts :=
  hs.of_facts fun d _ hf => (ha.fact d).symm.trans hf

lemma ShapedFacts.absorb (hs : g.ShapedFacts) (w : Write) : (g.absorb op w).ShapedFacts := by
  have hnew : ∀ {d : NodeId} {new f : Fact}, new.Shaped →
      (g.fact? d).map (·.update new) = some f → f.Shaped := by
    intro d new f hnew hf
    obtain ⟨f₀, hf₀, rfl⟩ := Option.map_eq_some_iff.1 hf
    exact (hs d f₀ hf₀).update hnew
  have hout : ∀ {p : Nat} {new : Fact}, new.Shaped → (g.writeOut op p new).ShapedFacts := by
    intro p new hnew' d f hf
    rw [fact?_writeOut] at hf
    split at hf
    · exact hnew hnew' hf
    · exact hs d f hf
  cases w with
  | attr name value => exact hs.of_facts fun d f hf => (fact?_modifyOp ..).symm.trans hf
  | inputValue p value =>
    intro d f hf
    replace hf : (g.writeIn op p value).fact? d = some f := hf
    rw [fact?_writeIn] at hf
    split at hf
    · exact hnew (Fact.shaped_ofValue value) hf
    · exact hs d f hf
  | outputShape p shape => exact hout (Fact.shaped_ofShape shape)
  | outputValue p value => exact hout (Fact.shaped_ofValue value)
  | outputUnknown p => exact hout Fact.shaped_unknown

lemma ShapedFacts.settle (hs : g.ShapedFacts) (ws : List Write) :
    (g.settle op ws).ShapedFacts := by
  induction ws generalizing g with
  | nil => exact hs
  | cons w ws ih => exact ih (hs.absorb w)

lemma ShapedFacts.visit {r : Registry} (hs : g.ShapedFacts) (hk : r.visit g id = .ok k) :
    k.ShapedFacts := by
  rcases Registry.visit_eq_ok.1 hk with ⟨-, rfl⟩ | ⟨name, o, ws, -, -, rfl⟩
  · exact hs
  · exact (hs.settle ws).of_agrees (agrees_unmark _ id)

lemma ShapedFacts.run {r : Registry} {changed l : List NodeId} (hs : g.ShapedFacts)
    (hrun : r.Run changed l g h) : h.ShapedFacts := by
  induction hrun with
  | nil halike => exact hs.of_agrees halike.symm.agrees
  | data _ _ ih => exact ih hs
  | skip _ _ _ ih => exact ih hs
  | visit _ _ hk _ _ ih => exact ih (hs.visit hk)

/-! ### Poised graphs -/

/-- Identities have one input at most. -/
def SingleInput (g : Graph) : Prop := ∀ e ∈ g.edges, ∀ e' ∈ g.edges,
  g.kind? e.dst = some "Identity" → e.dst = e'.dst → e = e'

/-- All operations are calm, every value has its shape, output ports that may be renumbered have no
gaps, and constants and identities have the inputs and outputs that the passes expect. -/
structure Poised (g : Graph) : Prop where
  wellFormed : g.WellFormed
  quiescent : g.Quiescent
  shaped : g.ShapedFacts
  compact : ∀ op kind, g.kind? op = some kind → Registry.standard.isFixed kind = false →
    g.Compact op
  constants : g.Lone "Const"
  identities : g.Lone "Identity"
  single : g.SingleInput

/-- Inference leaves the structure. -/
lemma Poised.of_skeleton (hp : g.Poised) (hs : h.skeleton = g.skeleton) (hq : h.Quiescent)
    (hshaped : h.ShapedFacts) : h.Poised where
  wellFormed := hp.wellFormed.of_skeleton hs
  quiescent := hq
  shaped := hshaped
  compact op kind hkind hfixed := by
    unfold Compact
    rw [edges_of_skeleton hs]
    exact hp.compact op kind (kind?_of_skeleton hs op ▸ hkind) hfixed
  constants := hp.constants.of_skeleton hs
  identities := hp.identities.of_skeleton hs
  single := by
    unfold SingleInput
    simp only [edges_of_skeleton hs, kind?_of_skeleton hs]
    exact hp.single

lemma Poised.of_agrees (hp : g.Poised) (ha : h.Agrees g) : h.Poised :=
  hp.of_skeleton ha.skeleton (hp.quiescent.of_agrees hp.wellFormed ha) (hp.shaped.of_agrees ha)

/-- Inference of what is marked leaves a poised graph poised, and what its outputs read. -/
theorem Poised.inferMarked (hp : g.Poised) {n : Nat}
    (hx : Gives Registry.standard.inferMarked g n h) : h.Poised ∧ g.SameResults h := by
  obtain ⟨l, hl, hrun⟩ := Registry.run_of_inferMarked Registry.local_standard hp.wellFormed hx
  have hg := Registry.runnable_of_evalOrder hp.wellFormed hl
  obtain ⟨hq, hsame⟩ := hp.quiescent.run hg hp.constants hrun
  exact ⟨hp.of_skeleton hrun.skeleton hq (hp.shaped.run hrun), hsame⟩

/-! ### Changes that are not noticed -/

/-- A calm operation stays calm when it stands at the same outputs and finds the same inputs. -/
lemma Calm.carry (hc : g.Calm P id) (hg : g.WellFormed) (hh : h.WellFormed)
    (ho : h.op? id = some o) (hnode : h.node? id = g.node? id)
    (hin : ∀ p, g.FindsAlike h o.kind id p) (hedges : ∀ e, e.src = id → (e ∈ h.edges ↔ e ∈ g.edges))
    (hout : ∀ e ∈ g.edges, e.src = id → h.fact? e.dst = g.fact? e.dst ∧
      ∀ f f', g.Recounts P e.dst f f' → h.Recounts Q e.dst f f') : h.Calm Q id := by
  obtain ⟨name, o₁, ws, hn, hi, hv, hports⟩ := hc
  have hn' := hnode.trans hn
  obtain rfl := Option.some.inj (ho.symm.trans (op?_eq_some.2 ⟨name, hn'⟩))
  refine Calm.transfer ⟨name, o, ws, hn, hi, hv, hports⟩ hn hn' rfl hi ?_ fun e he hsrc => ?_
  · refine (scene_resembles hg hh (op?_eq_some.2 ⟨name, hn⟩) ho hin (fun p => ?_) name _).akin hi
    refine exists_congr fun e => ?_
    by_cases hsrc : e.src = id
    · rw [hedges e hsrc]
    · simp [hsrc]
  · have he' := (hedges e hsrc).1 he
    exact ⟨he', hout e he' hsrc⟩

/-- `h` has some of the operations of `g`. They stand at the same outputs and find the same inputs,
and so do those that read what is recounted. -/
structure Unnoticed (g h : Graph) : Prop where
  wellFormed : h.WellFormed
  node? : ∀ {id o}, h.op? id = some o → h.node? id = g.node? id
  fact : ∀ d f, h.fact? d = some f → g.fact? d = some f
  output : ∀ {e o}, h.op? e.src = some o → (e ∈ h.edges ↔ e ∈ g.edges)
  input : ∀ {id kind}, h.kind? id = some kind → ∀ p, g.FindsAlike h kind id p
  recounts : ∀ {d f f'}, (h.fact? d).isSome → g.Recounts (fun _ => True) d f f' →
    h.Recounts (fun _ => True) d f f'

namespace Unnoticed

variable (hu : g.Unnoticed h)

include hu

lemma op? (ho : h.op? id = some o) : g.op? id = some o := by
  obtain ⟨name, hn⟩ := op?_eq_some.1 ho
  exact op?_eq_some.2 ⟨name, (hu.node? ho).symm.trans hn⟩

lemma kind? (hk : h.kind? id = some kind) : g.kind? id = some kind := by
  obtain ⟨o, ho, rfl⟩ := kind?_eq_some.1 hk
  exact kind?_eq_some.2 ⟨o, hu.op? ho, rfl⟩

lemma lone (hl : g.Lone kind) : h.Lone kind := by
  intro e he e' he' hkind hsrc
  obtain ⟨o, ho, -⟩ := kind?_eq_some.1 hkind
  exact hl e ((hu.output ho).1 he) e' ((hu.output (hsrc ▸ ho)).1 he') (hu.kind? hkind) hsrc

/-- An input that is there was there before. -/
lemma exists_input (hg : g.WellFormed) {e : Edge} (he : e ∈ h.edges)
    (hkind : h.kind? e.dst = some kind) : ∃ e' ∈ g.edges, e'.dst = e.dst ∧ e'.inp = e.inp := by
  obtain ⟨o, ho, -⟩ := kind?_eq_some.1 hkind
  obtain ⟨f, hf⟩ := ends_of_op_dst hu.wellFormed he ho
  have hfound : ∃ f', g.inputFact? e.dst e.inp = some f' := by
    rcases hu.input hkind e.inp with hsame | ⟨-, hinp, a, f₁, f', -, hf₁, -⟩
    · rw [← hsame, inputFact?_of_edge hu.wellFormed he]
      exact ⟨f, hf⟩
    · exact ⟨f₁, hinp ▸ hf₁⟩
  obtain ⟨f', hf'⟩ := hfound
  obtain ⟨e', he', hdst, hinp, -⟩ := (inputFact?_eq_some hg).1 hf'
  exact ⟨e', he', hdst, hinp⟩

/-- A change that is not noticed leaves a poised graph poised. -/
theorem poised (hp : g.Poised) : h.Poised where
  wellFormed := hu.wellFormed
  quiescent id hop := by
    obtain ⟨o, ho⟩ := Option.isSome_iff_exists.1 hop
    refine (hp.quiescent id (hu.op? ho ▸ rfl)).carry hp.wellFormed hu.wellFormed ho (hu.node? ho)
      (hu.input (kind?_eq_some.2 ⟨o, ho, rfl⟩)) (fun e hsrc => hu.output (hsrc ▸ ho))
      fun e he hsrc => ?_
    obtain ⟨f, hf⟩ := ends_of_op_src hu.wellFormed ((hu.output (hsrc ▸ ho)).2 he) (hsrc ▸ ho)
    exact ⟨hf.trans (hu.fact _ _ hf).symm, fun _ _ => hu.recounts (hf ▸ rfl)⟩
  shaped := hp.shaped.of_facts hu.fact
  compact op kind hkind hfixed := by
    obtain ⟨o, ho, -⟩ := kind?_eq_some.1 hkind
    intro e he hsrc n hn
    obtain ⟨f, hf, hfsrc, hout⟩ :=
      hp.compact op kind (hu.kind? hkind) hfixed e ((hu.output (hsrc ▸ ho)).1 he) hsrc n hn
    exact ⟨f, (hu.output (hfsrc ▸ ho)).2 hf, hfsrc, hout⟩
  constants := hu.lone hp.constants
  identities := hu.lone hp.identities
  single e he e' he' hkind hdst := by
    obtain ⟨e₀, he₀, hdst₀, hinp₀⟩ := hu.exists_input hp.wellFormed he hkind
    obtain ⟨e₁, he₁, hdst₁, hinp₁⟩ := hu.exists_input hp.wellFormed he' (hdst ▸ hkind)
    obtain rfl := hp.single e₀ he₀ e₁ he₁ (hdst₀ ▸ hu.kind? hkind)
      (hdst₀.trans (hdst.trans hdst₁.symm))
    exact hu.wellFormed.inp_unique he he' hdst (hinp₀.symm.trans hinp₁)

lemma sameResults (hkept : ∀ id, g.kind? id = some "Result" → h.kind? id = some "Result") :
    g.SameResults h := fun id hid =>
  ⟨hkept id hid, (hu.input (hkept id hid) 0).inputFact? (.inl (by decide))⟩

end Unnoticed

/-! ### Clean-ups -/

/-- A clean-up keeps the edges between live nodes on their ports. -/
lemma Poised.mem_edges_cleaned {port : Edge → Nat} (hp : g.Poised)
    (hc : g.Cleaned Registry.standard.isFixed h port) {e : Edge} :
    e ∈ h.edges ↔ e ∈ g.edges ∧ e.src ∈ g.live ∧ e.dst ∈ g.live := by
  have hport {e : Edge} (he : e ∈ g.edges) (hsrc : e.src ∈ g.live) (hdst : e.dst ∈ g.live) :
      port e = e.out := hc.stays e he hsrc hdst (hp.compact e.src)
  rw [hc.edges]
  constructor
  · rintro ⟨e', he', hsrc, hdst, rfl⟩
    rw [hport he' hsrc hdst]
    exact ⟨he', hsrc, hdst⟩
  · rintro ⟨he, hsrc, hdst⟩
    exact ⟨e, he, hsrc, hdst, by rw [hport he hsrc hdst]⟩

/-- A clean-up of a poised graph is not noticed. -/
lemma Cleaned.unnoticed {port : Edge → Nat} (hc : g.Cleaned Registry.standard.isFixed h port)
    (hp : g.Poised) : g.Unnoticed h := by
  have hg := hp.wellFormed
  have hnode : ∀ {id n}, h.node? id = some n → g.node? id = some n ∧ id ∈ g.live := fun hn =>
    ⟨((hc.node? _ _).1 hn).1, ((hc.node? _ _).1 hn).2.1⟩
  have hop : ∀ {id o}, h.op? id = some o → g.op? id = some o ∧ id ∈ g.live := by
    intro id o ho
    obtain ⟨name, hn⟩ := op?_eq_some.1 ho
    exact ⟨op?_eq_some.2 ⟨name, (hnode hn).1⟩, (hnode hn).2⟩
  have hfact : ∀ d f, h.fact? d = some f → g.fact? d = some f := by
    intro d f hf
    obtain ⟨name, hn⟩ := fact?_eq_some.1 hf
    exact fact?_eq_some.2 ⟨name, (hnode hn).1⟩
  have hinput : ∀ {id kind}, h.kind? id = some kind → ∀ p,
      h.inputFact? id p = g.inputFact? id p := by
    intro id kind hkind p
    obtain ⟨o, ho, -⟩ := kind?_eq_some.1 hkind
    obtain ⟨ho', hlive⟩ := hop ho
    refine Option.ext fun f => ?_
    rw [inputFact?_eq_some hc.wellFormed, inputFact?_eq_some hg]
    refine exists_congr fun e => ?_
    constructor
    · rintro ⟨he, hdst, hinp, hf⟩
      exact ⟨(hp.mem_edges_cleaned hc).1 he |>.1, hdst, hinp, hfact _ _ hf⟩
    · rintro ⟨he, rfl, hinp, hf⟩
      have he' : e ∈ h.edges := (hp.mem_edges_cleaned hc).2
        ⟨he, live_of_target hg he hlive (ho' ▸ rfl), hlive⟩
      obtain ⟨f', hf'⟩ := ends_of_op_dst hc.wellFormed he' ho
      obtain rfl := Option.some.inj (hf.symm.trans (hfact _ _ hf'))
      exact ⟨he', rfl, hinp, hf'⟩
  refine ⟨hc.wellFormed, fun ho => ?_, hfact, fun {e o} ho => ?_, fun hkind p =>
    .inl (hinput hkind p), fun {d f f'} hlive hrecounts e he hsrc => ?_⟩
  · obtain ⟨name, hn⟩ := op?_eq_some.1 ho
    rw [hn, (hnode hn).1]
  · obtain ⟨ho', hlive⟩ := hop ho
    refine (hp.mem_edges_cleaned hc).trans (and_iff_left_of_imp fun he => ⟨hlive, ?_⟩)
    exact live_of_source hg he hlive (ho' ▸ rfl)
  · obtain ⟨he', -, hdst⟩ := (hp.mem_edges_cleaned hc).1 he
    obtain ⟨-, hkind, hinp, a, hshape, hsame⟩ := hrecounts e he' hsrc
    have hkind' := hc.kind?.2 ⟨hkind, hdst⟩
    refine ⟨trivial, hkind', hinp, a, ?_, hsame⟩
    unfold inputShape?
    rw [hinput hkind']
    exact hshape

/-- A clean-up keeps the outputs of the model. -/
lemma Cleaned.kind?_result {fixed : String → Bool} {port : Edge → Nat}
    (hc : g.Cleaned fixed h port) (hid : g.kind? id = some "Result") :
    h.kind? id = some "Result" := by
  obtain ⟨o, ho, -⟩ := kind?_eq_some.1 hid
  obtain ⟨name, hn⟩ := op?_eq_some.1 ho
  exact hc.kind?.2 ⟨hid, Needed.live (.start (Graph.mem_roots.2 (.inl hid)) (hn ▸ rfl))⟩

/-- A clean-up leaves a poised graph poised, and what its outputs read. -/
theorem Poised.cleanUp (hp : g.Poised) {r : CleanupReport}
    (hx : Gives (cleanUp Registry.standard.isFixed) g r h) : h.Poised ∧ g.SameResults h := by
  obtain ⟨port, hc⟩ := cleaned_of_gives hp.wellFormed hx
  have hu := hc.unnoticed hp
  exact ⟨hu.poised hp, hu.sameResults fun _ => hc.kind?_result⟩

/-- A normalization leaves a poised graph poised, and what its outputs read. -/
theorem Poised.normalize (hp : g.Poised) (hx : Gives Pipeline.standard.normalize g () h) :
    h.Poised ∧ g.SameResults h := by
  obtain ⟨report, k, n, hclean, hinfer⟩ := Pipeline.gives_normalize hx
  obtain ⟨hk, hsame⟩ := hp.cleanUp hclean
  obtain ⟨hh, hsame'⟩ := hk.inferMarked hinfer
  exact ⟨hh, hsame.trans hsame'⟩

end Graph

end TensorGraph
