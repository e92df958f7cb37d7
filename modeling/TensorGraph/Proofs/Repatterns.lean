import TensorGraph.Proofs.Poised
import TensorGraph.Proofs.Reshapes

/-!
Pinning reshapes in poised graphs.

A reshape is given a pattern that reshapes its input to the same, by a constant that nothing else
reads (`Graph.Repatterned`). It writes what it wrote before, and no other operation notices
(`Graph.Repatterned.poised`).
-/

namespace TensorGraph

open Edit

namespace Graph

variable {g h k : Graph} {id j r c d : NodeId} {o : Operation} {value : Tensor}

/-- `k` is `g` with the reshape `r` fed from the constant `c`, of another value, through `d`. Only
`r` reads it. -/
structure Repatterned (g k : Graph) (r c d : NodeId) (value : Tensor) : Prop where
  wellFormed : k.WellFormed
  node? : ∀ j, j ≠ c → j ≠ d → k.node? j = g.node? j
  const_before : g.node? c = none ∨ g.kind? c = some "Const"
  data_before : g.kind? d = none
  const : k.kind? c = some "Const"
  stored : (k.attributes? c).bind (·.find? "value") = some (.tensor value)
  marked : g.flag? c = some true → k.flag? c = some true
  lone : ∀ e ∈ k.edges, ∀ e' ∈ k.edges, e.src = c → e'.src = c → e = e'
  fact : k.fact? d = some (.ofValue value)
  read : ∃ e ∈ k.edges, e.src = d ∧ e.dst = r ∧ e.inp = 1
  written : ∃ e ∈ k.edges, e.src = c ∧ e.dst = d
  only_read : ∀ e, e ∈ g.edges ∨ e ∈ k.edges → e.src = d → e.dst = r ∧ e.inp = 1
  only_written : ∀ e, e ∈ g.edges ∨ e ∈ k.edges → e.dst = d → e.src = c
  only_writes : ∀ e ∈ g.edges, e.src = c → e.dst = d
  edges : ∀ e, e.src ≠ c → e.src ≠ d → (e.dst = r → e.inp ≠ 1) → (e ∈ k.edges ↔ e ∈ g.edges)

namespace Repatterned

variable (hk : g.Repatterned k r c d value) (hg : g.WellFormed) (hr : g.kind? r = some "Reshape")

include hk

lemma ne_data (ho : k.op? j = some o) : j ≠ d := by
  rintro rfl
  cases (fact?_eq_none_of_op ho).symm.trans hk.fact

lemma op? (ho : k.op? j = some o) (hj : j ≠ c) : g.op? j = some o := by
  rw [← ho, Graph.op?, Graph.op?, hk.node? j hj (hk.ne_data ho)]

lemma kind? {kind : String} (hkind : k.kind? j = some kind) (hj : j ≠ c) :
    g.kind? j = some kind := by
  obtain ⟨o, ho, rfl⟩ := kind?_eq_some.1 hkind
  exact kind?_eq_some.2 ⟨o, hk.op? ho hj, rfl⟩

lemma ne_of_op (ho : g.op? j = some o) : j ≠ d := by
  rintro rfl
  have hnone := hk.data_before
  rw [Graph.kind?, ho] at hnone
  cases hnone

lemma ne_of_kind {kind : String} (ho : g.kind? j = some kind)
    (hne : kind ≠ "Const") : j ≠ c := by
  rintro rfl
  rcases hk.const_before with hnone | hconst
  · rw [Graph.kind?, Graph.op?, hnone] at ho
    cases ho
  · exact hne (Option.some.inj (ho.symm.trans hconst))

lemma op?_of_ne (ho : g.op? j = some o) (hj : j ≠ c) : k.op? j = some o := by
  rw [Graph.op?, hk.node? j hj (hk.ne_of_op ho)]
  exact ho

lemma fact?_const (d' : NodeId) (hd' : (g.fact? d').isSome ∨ (k.fact? d').isSome) : d' ≠ c := by
  rintro rfl
  obtain ⟨o, ho, -⟩ := kind?_eq_some.1 hk.const
  rw [fact?_eq_none_of_op ho] at hd'
  rcases hk.const_before with hnone | hconst
  · simp [Graph.fact?, hnone] at hd'
  · obtain ⟨o', ho', -⟩ := kind?_eq_some.1 hconst
    rw [fact?_eq_none_of_op ho'] at hd'
    simp at hd'

lemma fact?_of_ne (hj : j ≠ c) (hd : j ≠ d) : k.fact? j = g.fact? j := by
  rw [Graph.fact?, Graph.fact?, hk.node? j hj hd]

include hg

/-- The inputs of operations, but for the pattern, are on the edges that were there before. -/
lemma mem_edges_input (ho : g.op? j = some o) (ho' : k.op? j = some o) {e : Edge} (hdst : e.dst = j)
    (hport : e.dst = r → e.inp ≠ 1) : e ∈ k.edges ↔ e ∈ g.edges := by
  constructor
  · intro he
    obtain ⟨f, hf⟩ := ends_of_op_dst hk.wellFormed he (hdst ▸ ho')
    refine (hk.edges e (hk.fact?_const _ (.inr (hf ▸ rfl))) (fun hsrc => ?_) hport).1 he
    obtain ⟨hdst', hinp⟩ := hk.only_read e (.inr he) hsrc
    exact hport hdst' hinp
  · intro he
    obtain ⟨f, hf⟩ := ends_of_op_dst hg he (hdst ▸ ho)
    refine (hk.edges e (hk.fact?_const _ (.inl (hf ▸ rfl))) (fun hsrc => ?_) hport).2 he
    obtain ⟨hdst', hinp⟩ := hk.only_read e (.inl he) hsrc
    exact hport hdst' hinp

/-- What operations find on their inputs, but for the pattern. -/
lemma inputFact? (ho' : k.op? j = some o) (hj : j ≠ c) {p : Nat} (hport : j = r → p ≠ 1) :
    k.inputFact? j p = g.inputFact? j p := by
  have ho := hk.op? ho' hj
  refine Option.ext fun f => ?_
  rw [inputFact?_eq_some hk.wellFormed, inputFact?_eq_some hg]
  refine exists_congr fun e => ?_
  by_cases hat : e.dst = j ∧ e.inp = p
  · obtain ⟨rfl, rfl⟩ := hat
    rw [hk.mem_edges_input hg ho ho' rfl hport]
    refine and_congr_right fun he => ?_
    obtain ⟨f', hf'⟩ := ends_of_op_dst hg he ho
    rw [hk.fact?_of_ne (hk.fact?_const _ (.inl (hf' ▸ rfl))) fun hsrc => ?_]
    obtain ⟨hdst, hinp⟩ := hk.only_read e (.inl he) hsrc
    exact hport hdst hinp
  · exact iff_of_false (fun ⟨_, hdst, hinp, _⟩ => hat ⟨hdst, hinp⟩)
      fun ⟨_, hdst, hinp, _⟩ => hat ⟨hdst, hinp⟩

omit hg in
include hr in
lemma kind?_reshape : k.kind? r = some "Reshape" ∧ r ≠ c := by
  obtain ⟨o, ho, hkind⟩ := kind?_eq_some.1 hr
  have hc := hk.ne_of_kind hr (by decide)
  exact ⟨kind?_eq_some.2 ⟨o, hk.op?_of_ne ho hc, hkind⟩, hc⟩

omit hg in
/-- What is of another kind is not the constant. -/
lemma ne_const {kind : String} (hkind : k.kind? j = some kind) (hconst : kind ≠ "Const") :
    j ≠ c := by
  rintro rfl
  exact hconst (Option.some.inj (hkind.symm.trans hk.const))

omit hg in
include hr in
lemma ne_reshape {kind : String} (hkind : k.kind? j = some kind) (hreshape : kind ≠ "Reshape") :
    j ≠ r := by
  rintro rfl
  exact hreshape (Option.some.inj (hkind.symm.trans (hk.kind?_reshape hr).1))

include hr in
/-- The outputs of other operations than the constant. -/
lemma output (ho' : k.op? j = some o) (hj : j ≠ c) {e : Edge} (hsrc : e.src = j) :
    (e ∈ k.edges ↔ e ∈ g.edges) ∧ (e ∈ g.edges → k.fact? e.dst = g.fact? e.dst) := by
  have ho := hk.op? ho' hj
  have hedges (hdst : e.dst ≠ r) : e ∈ k.edges ↔ e ∈ g.edges :=
    hk.edges e (hsrc ▸ hj) (hsrc ▸ hk.ne_data ho') fun h => absurd h hdst
  -- operations feed data
  have hdata {h : Graph} (hh : h.WellFormed) (ho : h.op? j = some o)
      (hr : h.kind? r = some "Reshape") (he : e ∈ h.edges) : e.dst ≠ r ∧
        (h.fact? e.dst).isSome := by
    obtain ⟨f, hf⟩ := ends_of_op_src hh he (hsrc ▸ ho)
    refine ⟨fun hdst => ?_, hf ▸ rfl⟩
    obtain ⟨o', ho', -⟩ := kind?_eq_some.1 hr
    cases (fact?_eq_none_of_op ho').symm.trans (hdst ▸ hf)
  refine ⟨⟨fun he => ?_, fun he => ?_⟩, fun he => hk.fact?_of_ne ?_ fun hdst => ?_⟩
  · exact (hedges (hdata hk.wellFormed ho' (hk.kind?_reshape hr).1 he).1).1 he
  · exact (hedges (hdata hg ho hr he).1).2 he
  · exact hk.fact?_const _ (.inl (hdata hg ho hr he).2)
  · exact hj (hsrc.symm.trans (hk.only_written e (.inl he) hdst))

/-- What is recounted still is. -/
lemma recounts {d' : NodeId} {f f' : Fact} (hlive : (g.fact? d').isSome) (hd' : d' ≠ d)
    (hrecounts : g.Recounts (fun _ => True) d' f f') : k.Recounts (fun _ => True) d' f f' := by
  intro e he hsrc
  have hc := hk.fact?_const d' (.inl hlive)
  have he' : e ∈ g.edges := by
    refine (hk.edges e (hsrc ▸ hc) (hsrc ▸ hd') fun hdst hinp => hd' ?_).1 he
    obtain ⟨e₁, he₁, hsrc₁, hdst₁, hinp₁⟩ := hk.read
    rw [← hsrc, hk.wellFormed.inp_unique he he₁ (hdst.trans hdst₁.symm)
      (hinp.trans hinp₁.symm), hsrc₁]
  obtain ⟨-, hkind, hinp, a, hshape, hsame⟩ := hrecounts e he' hsrc
  have hdst : e.dst ≠ c := by
    intro heq
    rw [heq] at hkind
    rcases hk.const_before with hnone | hconst
    · simp [Graph.kind?, Graph.op?, hnone] at hkind
    · exact absurd (hkind.symm.trans hconst) (by decide)
  have hkind' : k.kind? e.dst = some "Unsqueeze" := by
    rw [← hkind, Graph.kind?, Graph.op?, hk.node? _ hdst fun heq => ?_]
    · rfl
    · exact hc (hsrc.symm.trans (hk.only_written e (.inl he') heq))
  obtain ⟨o, ho, -⟩ := kind?_eq_some.1 hkind'
  refine ⟨trivial, hkind', hinp, a, ?_, hsame⟩
  unfold inputShape?
  rw [hk.inputFact? hg ho hdst fun _ => by decide]
  exact hshape

include hr in
/-- A calm reshape stays calm when the pattern reshapes its input to the same. -/
lemma calm_reshape (hc : g.Calm (fun _ => True) r) (ho : g.op? r = some o) {f : Fact} {t : Tensor}
    (hf : g.inputFact? r 1 = some f) (ht : f.value = some t) (hknown : f.shape.isSome)
    (hsame : ∀ name a, g.inputShape? r 0 = some a →
      Shape.reshape a value.toInts (g.scene r name o.attributes).copiesZero =
        Shape.reshape a t.toInts (g.scene r name o.attributes).copiesZero) :
    k.Calm (fun _ => True) r := by
  obtain ⟨name, o₁, ws, hn, hi, hv, hports⟩ := hc
  obtain rfl := Option.some.inj (ho.symm.trans (op?_eq_some.2 ⟨name, hn⟩))
  obtain ⟨hr', hrc⟩ := hk.kind?_reshape hr
  obtain ⟨o', ho', -⟩ := kind?_eq_some.1 hr'
  obtain rfl := Option.some.inj (ho.symm.trans (hk.op? ho' hrc))
  have hn' : k.node? r = some ⟨name, .op o⟩ := (hk.node? r hrc (hk.ne_data ho')).trans hn
  have hkind : o.kind = "Reshape" := by simpa [Graph.kind?, ho] using hr
  have hf' : k.inputFact? r 1 = some (.ofValue value) := by
    obtain ⟨e, he, hsrc, rfl, hinp⟩ := hk.read
    rw [← hinp, inputFact?_of_edge hk.wellFormed he, hsrc, hk.fact]
  have hin {p : Nat} (hp : p ≠ 1) : k.inputFact? r p = g.inputFact? r p :=
    hk.inputFact? hg ho' hrc fun _ => hp
  have hinputs : (k.incoming r).map (·.inp) = (g.incoming r).map (·.inp) :=
    inputPorts_congr hg hk.wellFormed ho ho' fun p => by
      by_cases hp : p = 1
      · rw [hp, hf, hf']
        rfl
      · rw [hin hp]
  have houtputs : (k.outgoing r).map (·.out) = (g.outgoing r).map (·.out) := by
    refine outputPorts_congr hg hk.wellFormed ho ho' fun p => exists_congr fun e => ?_
    by_cases hsrc : e.src = r
    · rw [(hk.output hg hr ho' hrc hsrc).1]
    · simp [hsrc]
  have hpattern : Akin "Reshape" (g.scene r name o.attributes)
      { g.scene r name o.attributes with inputFact :=
        (k.scene r name o.attributes).inputFact } := by
    have hin₁ : (g.scene r name o.attributes).inputFact 1 = .ok f := by
      rw [scene_inputFact_eq hg ho, hf]
    have hin₁' : (k.scene r name o.attributes).inputFact 1 = .ok (.ofValue value) := by
      rw [scene_inputFact_eq hk.wellFormed ho', hf']
    refine akin_pattern hi (fun p hp => ?_) hin₁ hin₁' ht rfl hknown rfl fun a ha =>
      hsame name a ((scene_inputShape_eq_ok hg ho).1 ha)
    rw [scene_inputFact_eq hk.wellFormed ho', scene_inputFact_eq hg ho, hin hp]
  have hports' : k.scene r name o.attributes = { g.scene r name o.attributes with
      inputFact := (k.scene r name o.attributes).inputFact
      inputIsShared := (k.scene r name o.attributes).inputIsShared } :=
    Scene.eq_of_ports rfl rfl hinputs houtputs
  have hscene : Akin "Reshape" (g.scene r name o.attributes) (k.scene r name o.attributes) := by
    rw [hports']
    exact hpattern.trans (akin_sharing hi (by decide) _)
  refine Calm.transfer ⟨name, o, ws, hn, hi, hv, hports⟩ hn hn' rfl hi ?_ fun e he hsrc => ?_
  · rw [hkind]
    exact hscene
  · obtain ⟨hedges, hfact⟩ := hk.output hg hr ho' hrc hsrc
    have he' := hedges.1 he
    obtain ⟨f₁, hf₁⟩ := ends_of_op_src hg he' (hsrc ▸ ho)
    refine ⟨he', hfact he', fun _ _ => hk.recounts hg (hf₁ ▸ rfl) fun hdst => hrc ?_⟩
    exact hsrc.symm.trans (hk.only_written e (.inl he') hdst)

omit hg in
include hr in
/-- All operations are calm when the pattern reshapes to the same. -/
lemma quiescent (hp : g.Poised) (hcalm : k.Calm (fun _ => True) c) {f : Fact} {t : Tensor}
    (hf : g.inputFact? r 1 = some f)
    (ht : f.value = some t)
    (hsame : ∀ name o a, g.op? r = some o → g.inputShape? r 0 = some a →
      Shape.reshape a value.toInts (g.scene r name o.attributes).copiesZero =
        Shape.reshape a t.toInts (g.scene r name o.attributes).copiesZero) : k.Quiescent := by
  have hg := hp.wellFormed
  intro j hop
  obtain ⟨o, ho⟩ := Option.isSome_iff_exists.1 hop
  by_cases hjc : j = c
  · exact hjc ▸ hcalm
  have ho' := hk.op? ho hjc
  have hcalm := hp.quiescent j (ho' ▸ rfl)
  by_cases hjr : j = r
  · subst hjr
    have hknown : f.shape.isSome := by
      obtain ⟨e, -, -, -, hfact⟩ := (inputFact?_eq_some hg).1 hf
      rw [hp.shaped _ _ hfact t ht]
      rfl
    exact hk.calm_reshape hg hr hcalm ho' hf ht hknown fun name a ha => hsame name o a ho' ha
  · refine hcalm.carry hg hk.wellFormed ho (hk.node? j hjc (hk.ne_data ho))
      (fun p => .inl (hk.inputFact? hg ho hjc fun heq => absurd heq hjr))
      (fun e hsrc => (hk.output hg hr ho hjc hsrc).1) fun e he hsrc => ?_
    obtain ⟨f₁, hf₁⟩ := ends_of_op_src hg he (hsrc ▸ ho')
    refine ⟨(hk.output hg hr ho hjc hsrc).2 he, fun _ _ => hk.recounts hg (hf₁ ▸ rfl) ?_⟩
    exact fun hdst => hjc (hsrc.symm.trans (hk.only_written e (.inl he) hdst))

include hr in
lemma lone_const (hl : g.Lone "Const") : k.Lone "Const" := by
  intro e he e' he' hkind hsrc
  by_cases hop : e.src = c
  · exact hk.lone e he e' he' hop (hsrc ▸ hop)
  · obtain ⟨o, ho, -⟩ := kind?_eq_some.1 hkind
    exact hl e ((hk.output hg hr ho hop rfl).1.1 he) e'
      ((hk.output hg hr (hsrc ▸ ho) (hsrc ▸ hop) rfl).1.1 he') (hk.kind? hkind hop) hsrc

omit hg in
include hr in
/-- A pattern that reshapes to the same leaves a poised graph poised. -/
theorem poised (hp : g.Poised) (hq : k.Quiescent) (hcompact : k.Compact c) : k.Poised := by
  have hg := hp.wellFormed
  have hout {e : Edge} {o : Operation} (ho : k.op? e.src = some o) (hop : e.src ≠ c)
      (he : e ∈ k.edges) : e ∈ g.edges := (hk.output hg hr ho hop rfl).1.1 he
  refine ⟨hk.wellFormed, hq, fun d' f' hf' => ?_, fun op kind hkind hfixed => ?_,
    fun e he e' he' hkind hsrc => ?_, fun e he e' he' hkind hsrc => ?_,
    fun e he e' he' hkind hdst => ?_⟩
  · by_cases hd' : d' = d
    · rw [hd', hk.fact] at hf'
      cases hf'
      exact Fact.shaped_ofValue value
    · rw [hk.fact?_of_ne (hk.fact?_const d' (.inr (hf' ▸ rfl))) hd'] at hf'
      exact hp.shaped d' f' hf'
  · by_cases hop : op = c
    · exact hop ▸ hcompact
    · obtain ⟨o, ho, -⟩ := kind?_eq_some.1 hkind
      intro e he hsrc n hn
      obtain ⟨e', he', hsrc', hn'⟩ := hp.compact op kind (hk.kind? hkind hop) hfixed e
        ((hk.output hg hr ho hop hsrc).1.1 he) hsrc n hn
      exact ⟨e', (hk.output hg hr ho hop hsrc').1.2 he', hsrc', hn'⟩
  · exact hk.lone_const hg hr hp.constants e he e' he' hkind hsrc
  · have hop := hk.ne_const hkind (by decide)
    obtain ⟨o, ho, -⟩ := kind?_eq_some.1 hkind
    exact hp.identities e (hout ho hop he) e' (hout (hsrc ▸ ho) (hsrc ▸ hop) he')
      (hk.kind? hkind hop) hsrc
  · have hop := hk.ne_const hkind (by decide)
    have hne := hk.ne_reshape hr hkind (by decide)
    obtain ⟨o, ho, -⟩ := kind?_eq_some.1 hkind
    have ho' := hk.op? ho hop
    exact hp.single e ((hk.mem_edges_input hg ho' ho rfl fun heq => absurd heq hne).1 he) e'
      ((hk.mem_edges_input hg ho' ho hdst.symm fun heq => absurd (hdst.trans heq) hne).1 he')
      (hk.kind? hkind hop) hdst

include hr in
lemma sameResults : g.SameResults k := by
  intro id hid
  obtain ⟨o, ho, hkind⟩ := kind?_eq_some.1 hid
  have hc := hk.ne_of_kind hid (by decide)
  have ho' := hk.op?_of_ne ho hc
  refine ⟨kind?_eq_some.2 ⟨o, ho', hkind⟩, hk.inputFact? hg ho' hc fun heq => ?_⟩
  exact absurd ((heq ▸ hid).symm.trans hr) (by decide)

end Repatterned

end Graph

end TensorGraph
