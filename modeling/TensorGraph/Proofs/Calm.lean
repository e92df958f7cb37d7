import Mathlib.Data.List.Sort
import TensorGraph.Proofs.Akin
import TensorGraph.Proofs.Settled

/-!
Graphs in which inference has nothing to add.

An operation is `Calm` when what it would write to its outputs is known of them already, or comes to
the same for all that read them: axes that an unsqueeze has written over are such an output
(`Graph.Recounts`). Inferring an operation leaves the others calm (`calm_visit`), so that a first
inference of all operations makes them calm (`calm_of_sweep`) and a later one leaves them so and
changes nothing that an output of the model reads (`calm_of_run`).
-/

namespace TensorGraph

namespace Graph

variable {g h k : Graph} {id j op d : NodeId} {p : Nat} {o : Operation} {kind : String}
  {ws : List Write}

/-! ### Inputs -/

/-- What is known of the data on an input port. -/
def inputFact? (g : Graph) (op : NodeId) (p : Nat) : Option Fact := (g.inSource op p).bind g.fact?

/-- The shape of the data on an input port, as far as it is known. -/
def inputShape? (g : Graph) (op : NodeId) (p : Nat) : Option Shape :=
  (g.inputFact? op p).bind (·.shape)

lemma inputFact?_of_edge (hg : g.WellFormed) {e : Edge} (he : e ∈ g.edges) :
    g.inputFact? e.dst e.inp = g.fact? e.src := by
  unfold inputFact?
  rw [(inSource_eq_some hg).2 ⟨e, he, rfl, rfl, rfl⟩, Option.bind_some]

lemma inputFact?_eq_some (hg : g.WellFormed) {f : Fact} : g.inputFact? op p = some f ↔
    ∃ e ∈ g.edges, e.dst = op ∧ e.inp = p ∧ g.fact? e.src = some f := by
  unfold inputFact?
  rw [Option.bind_eq_some_iff]
  constructor
  · rintro ⟨d, hd, hf⟩
    obtain ⟨e, he, hdst, hinp, rfl⟩ := (inSource_eq_some hg).1 hd
    exact ⟨e, he, hdst, hinp, hf⟩
  · rintro ⟨e, he, hdst, hinp, hf⟩
    exact ⟨e.src, (inSource_eq_some hg).2 ⟨e, he, hdst, hinp, rfl⟩, hf⟩

lemma inputFact?_eq_none (hg : g.WellFormed) (ho : g.op? op = some o) :
    g.inputFact? op p = none ↔ ∀ e ∈ g.edges, e.dst = op → e.inp ≠ p := by
  constructor
  · intro hnone e he hdst hinp
    obtain ⟨f, hf⟩ := ends_of_op_dst hg he (hdst ▸ ho)
    rw [← hinp, ← hdst, inputFact?_of_edge hg he, hf] at hnone
    cases hnone
  · intro hno
    unfold inputFact?
    rw [inSource_eq_none.2 hno]
    rfl

lemma scene_inputFact_eq (hg : g.WellFormed) (ho : g.op? op = some o) (name : String)
    (attributes : Attributes) (p : Nat) : (g.scene op name attributes).inputFact p =
      match g.inputFact? op p with
      | some f => .ok f
      | none => .error (RuleFault.notConnected p) := by
  rw [scene_inputFact ho]
  unfold inputFact?
  rcases hd : g.inSource op p with _ | d
  · rfl
  · obtain ⟨f, hf⟩ := exists_fact_of_inSource hg ho hd
    simp only [Option.bind_some, hf]
    exact fact_eq_ok.2 hf

lemma scene_inputShape_eq_ok (hg : g.WellFormed) (ho : g.op? op = some o) {name : String}
    {attributes : Attributes} {a : Shape} :
    (g.scene op name attributes).inputShape p = .ok a ↔ g.inputShape? op p = some a := by
  rw [Scene.inputShape_eq_ok, scene_inputFact_eq hg ho]
  unfold inputShape?
  rcases g.inputFact? op p with _ | f <;> simp

/-- The input ports of an operation are those on which something is known. -/
lemma mem_inputPorts (hg : g.WellFormed) (ho : g.op? op = some o) :
    p ∈ (g.incoming op).map (·.inp) ↔ (g.inputFact? op p).isSome := by
  rw [← not_iff_not, Bool.not_eq_true, Option.isSome_eq_false_iff, Option.isNone_iff_eq_none,
    inputFact?_eq_none hg ho]
  simp only [List.mem_map, mem_incoming, not_exists, not_and, and_imp]

/-- An operation of a kind finds the same on an input port of both graphs, or it unsqueezes and
finds axes that mean the same. -/
def FindsAlike (g h : Graph) (kind : String) (id : NodeId) (p : Nat) : Prop :=
  h.inputFact? id p = g.inputFact? id p ∨ kind = "Unsqueeze" ∧ p = 1 ∧ ∃ a f f',
    g.inputShape? id 0 = some a ∧ g.inputFact? id 1 = some f ∧ h.inputFact? id 1 = some f' ∧
      f.SameAxes a f'

/-- Only axes may be written in another way. -/
lemma FindsAlike.inputFact? (hf : g.FindsAlike h kind id p)
    (hp : p ≠ 1 ∨ kind ≠ "Unsqueeze") : h.inputFact? id p = g.inputFact? id p :=
  hf.resolve_right fun ⟨hkind, hp', _⟩ => hp.elim (· hp') (· hkind)

lemma FindsAlike.inputShape? (hf : g.FindsAlike h kind id 0) :
    h.inputShape? id 0 = g.inputShape? id 0 := by
  unfold Graph.inputShape?
  rw [hf.inputFact? (.inl (by decide))]

/-- The shapes of all inputs are known. -/
def Known (g : Graph) (op : NodeId) : Prop :=
  ∀ d ∈ g.sources op, ∀ f, g.fact? d = some f → f.shape.isSome

lemma hasUnknownInput_eq_false (hg : g.WellFormed) (ho : g.op? op = some o) (name : String)
    (attributes : Attributes) :
    (g.scene op name attributes).hasUnknownInput = false ↔ g.Known op := by
  rw [scene_hasUnknownInput hg ho, List.any_eq_false]
  refine forall₂_congr fun d _ => ?_
  rcases g.fact? d with _ | f <;> simp [Option.isSome_iff_ne_none]

/-- Whether an input that is connected is shared can be told. -/
lemma inputIsShared_ok (hg : g.WellFormed) (ho : g.op? op = some o) {name : String}
    {attributes : Attributes} {f : Fact}
    (hf : (g.scene op name attributes).inputFact p = .ok f) :
    ∃ b, g.inputIsShared op p = .ok b := by
  rw [scene_inputFact ho] at hf
  rw [inputIsShared_eq hg ho]
  rcases hd : g.inSource op p with _ | d
  · rw [hd] at hf
    cases hf
  · exact ⟨_, rfl⟩

section

variable (hg : g.WellFormed) (hh : h.WellFormed) (ho : g.op? op = some o) {o' : Operation}
  (ho' : h.op? op = some o')

include hg hh ho ho'

/-- The input ports of an operation are the same when the same are connected. -/
lemma inputPorts_congr (hin : ∀ p, (h.inputFact? op p).isSome = (g.inputFact? op p).isSome) :
    (h.incoming op).map (·.inp) = (g.incoming op).map (·.inp) := by
  refine List.Pairwise.eq_of_mem_iff (r := (· < ·)) ?_ ?_ fun p => ?_
  · exact List.pairwise_map.2 (hh.pairwise_inp_lt op)
  · exact List.pairwise_map.2 (hg.pairwise_inp_lt op)
  · rw [mem_inputPorts hg ho, mem_inputPorts hh ho', hin]

lemma outputPorts_congr
    (hout : ∀ p, (∃ e ∈ h.edges, e.src = op ∧ e.out = p) ↔ ∃ e ∈ g.edges, e.src = op ∧ e.out = p) :
    (h.outgoing op).map (·.out) = (g.outgoing op).map (·.out) := by
  obtain ⟨n, hn⟩ := op?_eq_some.1 ho
  obtain ⟨n', hn'⟩ := op?_eq_some.1 ho'
  refine List.Pairwise.eq_of_mem_iff (r := (· < ·)) ?_ ?_ fun p => ?_
  · exact List.pairwise_map.2 (Edit.rising_outgoing hh hn' rfl)
  · exact List.pairwise_map.2 (Edit.rising_outgoing hg hn rfl)
  · simp only [List.mem_map, mem_outgoing, and_assoc]
    exact hout p

/-- The scene of an operation resembles the one in another graph when its ports are the same, and
what it finds on them. -/
lemma scene_resembles (hin : ∀ p, g.FindsAlike h kind op p)
    (hout : ∀ p, (∃ e ∈ h.edges, e.src = op ∧ e.out = p) ↔ ∃ e ∈ g.edges, e.src = op ∧ e.out = p)
    (name : String) (attributes : Attributes) :
    (g.scene op name attributes).Resembles kind (h.scene op name attributes) where
  name := rfl
  attributes := rfl
  inputPorts := inputPorts_congr hg hh ho ho' fun p => by
    rcases hin p with heq | ⟨-, rfl, a, f, f', -, hf, hf', -⟩
    · rw [heq]
    · rw [hf, hf']
      rfl
  outputPorts := outputPorts_congr hg hh ho ho' hout
  inputFact p := by
    rw [scene_inputFact_eq hg ho, scene_inputFact_eq hh ho']
    rcases hin p with heq | ⟨hkind, rfl, a, f, f', ha, hf, hf', hsame⟩
    · rw [heq]
      exact Or.inl rfl
    · refine Or.inr ⟨hkind, rfl, a, f, f', (scene_inputShape_eq_ok hg ho).2 ha, ?_, ?_, hsame⟩
      · rw [scene_inputFact_eq hg ho, hf]
      · rw [scene_inputFact_eq hh ho', hf']
  inputIsShared p f hf := inputIsShared_ok hh ho' hf

end

/-! ### Axes -/

/-- The operation is an unsqueeze of known inputs and the only one that reads the data, as its
axes. -/
structure ReadsAxes (g : Graph) (id d : NodeId) : Prop where
  kind : g.kind? id = some "Unsqueeze"
  edge : ∃ e ∈ g.edges, e.src = d ∧ e.dst = id ∧ e.inp = 1
  lone : (g.outgoing d).length ≤ 1
  known : g.Known id

lemma ReadsAxes.of_skeleton (h : g.ReadsAxes id d) (hs : k.skeleton = g.skeleton)
    (hknown : k.Known id) : k.ReadsAxes id d where
  kind := (kind?_of_skeleton hs id).trans h.kind
  edge := edges_of_skeleton hs ▸ h.edge
  lone := outgoing_of_skeleton hs d ▸ h.lone
  known := hknown

section

variable (hg : g.WellFormed) (hs : k.skeleton = g.skeleton) (ho : g.op? op = some o)
  (hin : ∀ p, g.FindsAlike k o.kind op p)

include hg hs ho hin

lemma resembles_of_skeleton (name : String) (attributes : Attributes) :
    (g.scene op name attributes).Resembles o.kind (k.scene op name attributes) := by
  obtain ⟨o', ho'⟩ := exists_op?_of_skeleton hs ho
  exact scene_resembles hg (hg.of_skeleton hs) ho ho' hin
    (fun p => by rw [edges_of_skeleton hs]) name attributes

lemma readsAxes_iff_of_skeleton : k.ReadsAxes op d ↔ g.ReadsAxes op d := by
  obtain ⟨o', ho'⟩ := exists_op?_of_skeleton hs ho
  have hknown : k.Known op ↔ g.Known op := by
    rw [← hasUnknownInput_eq_false (hg.of_skeleton hs) ho' "" o.attributes,
      ← hasUnknownInput_eq_false hg ho "" o.attributes,
      (resembles_of_skeleton hg hs ho hin "" o.attributes).hasUnknownInput]
  exact ⟨fun h => h.of_skeleton hs.symm (hknown.1 h.known),
    fun h => h.of_skeleton hs (hknown.2 h.known)⟩

end

/-! ### Calm operations -/

/-- Operations of the kind have one output at most. -/
def Lone (g : Graph) (kind : String) : Prop := ∀ e ∈ g.edges, ∀ e' ∈ g.edges,
  g.kind? e.src = some kind → e.src = e'.src → e = e'

instance : Decidable (g.Lone kind) :=
  inferInstanceAs (Decidable (∀ e ∈ g.edges, ∀ e' ∈ g.edges,
    g.kind? e.src = some kind → e.src = e'.src → e = e'))

lemma Lone.of_skeleton (hs : h.skeleton = g.skeleton) (hl : g.Lone kind) : h.Lone kind := by
  unfold Lone
  simp only [edges_of_skeleton hs, kind?_of_skeleton hs]
  exact hl

/-- All that read the data are unsqueezes of `P`, to which the first fact is the same axes as the
second one. -/
def Recounts (g : Graph) (P : NodeId → Prop) (d : NodeId) (f f' : Fact) : Prop :=
  ∀ e ∈ g.edges, e.src = d → P e.dst ∧ g.kind? e.dst = some "Unsqueeze" ∧ e.inp = 1 ∧
    ∃ a, g.inputShape? e.dst 0 = some a ∧ f.SameAxes a f'

/-- What the operation would write to its outputs is known of them, or comes to the same for those
of `P` that read them. -/
def Calm (g : Graph) (P : NodeId → Prop) (id : NodeId) : Prop :=
  ∃ name o ws, g.node? id = some ⟨name, .op o⟩ ∧ o.attributes.find? "infer" = none ∧
    Registry.standard.verdict o.kind (g.scene id name o.attributes) = .ok ws ∧
    ∀ e ∈ g.edges, e.src = id → ∀ f, g.fact? e.dst = some f →
      portFact e.out f ws = f ∨ g.Recounts P e.dst (portFact e.out f ws) f

variable {P Q : NodeId → Prop} {name : String}

/-- A calm operation is calm in another graph when it writes the same there and its outputs are as
they were. -/
lemma Calm.transfer (hc : g.Calm P id) (hn : g.node? id = some ⟨name, .op o⟩) {o' : Operation}
    (hn' : h.node? id = some ⟨name, .op o'⟩) (hkind : o'.kind = o.kind)
    (hi : o'.attributes.find? "infer" = none)
    (hakin : Akin o.kind (g.scene id name o.attributes) (h.scene id name o'.attributes))
    (hout : ∀ e ∈ h.edges, e.src = id → e ∈ g.edges ∧ h.fact? e.dst = g.fact? e.dst ∧
      ∀ f f', g.Recounts P e.dst f f' → h.Recounts Q e.dst f f') : h.Calm Q id := by
  obtain ⟨name', o₁, ws, hn₁, -, hv, hports⟩ := hc
  cases hn.symm.trans hn₁
  obtain ⟨ws', hv', hsame⟩ := hakin ws hv
  refine ⟨name, o', ws', hn', hi, hkind ▸ hv', fun e he hsrc f hf => ?_⟩
  obtain ⟨he', hfact, hrecounts⟩ := hout e he hsrc
  rw [hsame]
  exact (hports e he' hsrc f (hfact ▸ hf)).imp_right (hrecounts _ _)

/-- Nothing is unknown around a calm constant when a value is known of its data, which are read. -/
lemma Calm.hasUnknownInput_const (hc : g.Calm P id) (hn : g.node? id = some ⟨name, .op o⟩)
    (hkind : o.kind = "Const") {e r : Edge} (he : e ∈ g.edges) (hsrc : e.src = id)
    (hr : r ∈ g.edges)
    (hread : r.src = e.dst) {f : Fact} {t : Tensor} (hf : g.fact? e.dst = some f)
    (ht : f.value = some t) : (g.scene id name o.attributes).hasUnknownInput = false := by
  obtain ⟨name', o₁, ws, hn₁, hi, hv, hports⟩ := hc
  cases hn.symm.trans hn₁
  rw [hkind] at hv
  rcases Registry.verdict_const_cases hi hv with rfl | ⟨t', ht', rfl⟩
  · have hport : e.out ∈ (g.scene id name o.attributes).outputPorts :=
      List.mem_map.2 ⟨e, mem_outgoing.2 ⟨he, hsrc⟩, rfl⟩
    rcases hports e he hsrc f hf with hsame | hrecounts
    · rw [portFact_unknowns, if_pos hport] at hsame
      rw [← hsame] at ht
      cases ht
    · obtain ⟨-, -, -, a, -, -, -, t₁, -, -, ht₁, -⟩ := hrecounts r hr hread
      rw [portFact_unknowns, if_pos hport] at ht₁
      cases ht₁
  · exact Registry.hasUnknownInput_of_value hi hv

/-- A constant is calm when its data hold the value that it holds. -/
lemma calm_of_value {t : Tensor} (hn : g.node? id = some ⟨name, .op o⟩) (hkind : o.kind = "Const")
    (hi : o.attributes.find? "infer" = none)
    (hvalue : o.attributes.find? "value" = some (.tensor t))
    (hknown : (g.scene id name o.attributes).hasUnknownInput = false)
    (hdata : ∀ e ∈ g.edges, e.src = id →
      ∃ f, g.fact? e.dst = some f ∧ f.update (.ofValue t) = f) : g.Calm P id := by
  refine ⟨name, o, [.outputValue 0 t], hn, hi, ?_, fun e he hsrc f hf => .inl ?_⟩
  · rw [hkind, Registry.verdict_of_value hvalue hi, hknown]
    rfl
  · obtain ⟨f', hf', hupdate⟩ := hdata e he hsrc
    obtain rfl := Option.some.inj (hf'.symm.trans hf)
    rw [portFact_cons, portFact_nil, Write.tells]
    split
    · exact hupdate
    · rfl

/-! ### What inferring an operation changes -/

/-- The data are axes of an unsqueeze that nothing else reads, and have been counted from the left,
together with the constant that they come from. -/
def Rephrased (g k : Graph) (id d : NodeId) : Prop :=
  g.ReadsAxes id d ∧ ∃ a f cells, g.inputShape? id 0 = some a ∧ g.fact? d = some f ∧
    k.fact? d = some (.ofValue (.i64 cells)) ∧ f.Counted a (.ofValue (.i64 cells)) ∧
    ∀ e ∈ g.edges, e.dst = d → g.kind? e.src = some "Const" → k.attributes? e.src =
      (g.attributes? e.src).map (Attributes.store · "value" (.tensor (.i64 cells)))

/-- The graph has the inputs and the other operations that it had, but for axes that have been
written in another way. -/
structure Spares (g k : Graph) (id : NodeId) : Prop where
  fact : ∀ d, (∀ e ∈ g.edges, e.src = id → e.dst ≠ d) →
    k.fact? d = g.fact? d ∨ g.Rephrased k id d
  attributes : ∀ j ≠ id, k.attributes? j = g.attributes? j ∨
    g.kind? j = some "Const" ∧ ∃ e ∈ g.edges, e.src = j ∧ g.Rephrased k id e.dst

/-- The axes mean the same before and after. -/
lemma Rephrased.exists_sameAxes (hr : g.Rephrased k id d) : ∃ e ∈ g.edges, e.src = d ∧ e.dst = id ∧
    e.inp = 1 ∧ g.kind? id = some "Unsqueeze" ∧ ∃ a f f', g.inputShape? id 0 = some a ∧
      g.fact? d = some f ∧ k.fact? d = some f' ∧ f.SameAxes a f' := by
  obtain ⟨⟨hkind, ⟨e, he, rfl, rfl, hinp⟩, -, hknown⟩, a, f, cells, hshape, hf, hf',
    hcounted, -⟩ := hr
  refine ⟨e, he, rfl, rfl, hinp, hkind, a, f, _, hshape, hf, hf', hcounted.sameAxes ?_⟩
  exact hknown _ (mem_sources.2 ⟨e, he, rfl, rfl⟩) f hf

section

variable (hg : g.WellFormed) (ha : g.Apart id) (ho : g.op? id = some o) (hquiet : Quiet ws)

include hg ha ho hquiet in
lemma fact?_settle_writeIn {p : Nat} {t : Tensor} (hd : ∀ e ∈ g.edges, e.src = id → e.dst ≠ d) :
    ((g.writeIn id p t).settle id ws).fact? d = (g.writeIn id p t).fact? d := by
  have hs : (g.writeIn id p t).skeleton = g.skeleton := skeleton_absorb (.inputValue p t)
  obtain ⟨o', ho'⟩ := exists_op?_of_skeleton hs ho
  exact fact?_settle_of_quiet (hg.of_skeleton hs) ho' (ha.of_skeleton hs)
    (edges_of_skeleton hs ▸ hd) hquiet

include hg ho in
/-- What feeds an input is a constant with an edge to the data that is read. -/
lemma edge_of_feeder? {e : Edge} {j : NodeId} (he : e ∈ g.edges) (hdst : e.dst = id)
    (hj : g.feeder? id e.inp = some j) :
    g.kind? j = some "Const" ∧ ∃ e' ∈ g.edges, e'.src = j ∧ e'.dst = e.src := by
  obtain ⟨e₁, he₁, hdst₁, hinp₁, -, hconst, e', he', hdst', hsrc'⟩ := (feeder?_eq_some hg ho).1 hj
  obtain rfl := hg.inp_unique he he₁ (hdst.trans hdst₁.symm) hinp₁.symm
  exact ⟨hconst, e', he', hsrc', hdst'⟩

include hg ha ho hquiet in
/-- An unsqueeze that counts its axes from the left rephrases them, whatever it writes to its
outputs. -/
lemma rephrased_settle (hreads : g.ReadsAxes id d) {a : Shape} {f : Fact} {cells : Grid Int64}
    (hshape : g.inputShape? id 0 = some a) (hf : g.fact? d = some f)
    (hcounted : f.Counted a (.ofValue (.i64 cells))) :
    g.Rephrased ((g.writeIn id 1 (.i64 cells)).settle id ws) id d := by
  obtain ⟨e, he, rfl, hdst, hinp⟩ := hreads.edge
  refine ⟨hreads, a, f, cells, hshape, hf, ?_, hcounted, fun e' he' hdst' hc => ?_⟩
  · rw [fact?_settle_writeIn hg ha ho hquiet fun e' he' hsrc' => ha e' he' e he hsrc' hdst]
    refine (fact?_writeIn _).trans ?_
    rw [if_pos ⟨(inSource_eq_some hg).2 ⟨e, he, hdst, hinp, rfl⟩, hreads.lone⟩, hf, Option.map_some,
      hcounted.update]
  · have hne : e'.src ≠ id := by
      rintro hid
      rw [hid, hreads.kind] at hc
      exact absurd hc (by decide)
    rw [attributes?_settle_of_quiet hquiet, if_neg hne]
    refine (attributes?_writeIn _).trans (if_pos ?_)
    exact (feeder?_eq_some hg ho).2 ⟨e, he, hdst, hinp, hreads.lone, hc, e', he', hdst', rfl⟩

end

/-- Inferring an operation spares the inputs and the other operations, but for axes that it counts
from the left. -/
lemma spares_settle (hg : g.WellFormed) (ha : g.Apart id) (hn : g.node? id = some ⟨name, .op o⟩)
    (hi : o.attributes.find? "infer" = none)
    (hv : Registry.standard.verdict o.kind (g.scene id name o.attributes) = .ok ws) :
    g.Spares (g.settle id ws) id ∧
      (g.settle id ws).attributes? id = some (Attributes.taken o.attributes ws) ∧
      (Quiet ws ∨ ∃ d, g.Rephrased (g.settle id ws) id d) := by
  have ho : g.op? id = some o := op?_eq_some.2 ⟨name, hn⟩
  cases Registry.rephrases_verdict hi hv with
  | quiet hquiet =>
    refine ⟨⟨fun d hd => .inl (fact?_settle_of_quiet hg ho ha hd hquiet), fun j hj => .inl ?_⟩, ?_,
      .inl hquiet⟩
    · rw [attributes?_settle_of_quiet hquiet, if_neg hj]
    · rw [attributes?_settle_of_quiet hquiet, if_pos rfl, attributes?_of_op? ho]
      rfl
  | @axes a f cells ws hkind hknown hshape haxes hcounted hshared hquiet =>
    -- the axes are on an edge of their own
    rw [scene_inputFact ho] at haxes
    replace hshared : g.inputIsShared id 1 = .ok false := hshared
    rw [inputIsShared_eq hg ho] at hshared
    rcases hd : g.inSource id 1 with _ | d
    · rw [hd] at haxes
      cases haxes
    rw [hd] at haxes hshared
    obtain ⟨e, he, hdst, hinp, rfl⟩ := (inSource_eq_some hg).1 hd
    have hunsqueeze : g.kind? id = some "Unsqueeze" := by rw [kind?, ho, Option.map_some, hkind]
    have hreads : g.ReadsAxes id e.src :=
      ⟨hunsqueeze, ⟨e, he, rfl, hdst, hinp⟩, by simpa using hshared,
      (hasUnknownInput_eq_false hg ho ..).1 hknown⟩
    have hrephrased := rephrased_settle hg ha ho hquiet hreads
      ((scene_inputShape_eq_ok hg ho).1 hshape)
      (fact_eq_ok.1 haxes) hcounted
    have hfeeder (j : NodeId) (hj : g.feeder? id 1 = some j) :=
      edge_of_feeder? hg ho he hdst (hinp ▸ hj)
    have hself : g.feeder? id 1 ≠ some id := fun hid => by
      rw [(hfeeder id hid).1] at hunsqueeze
      exact absurd hunsqueeze (by decide)
    refine ⟨⟨fun d' hd' => ?_, fun j hj => ?_⟩, ?_, .inr ⟨e.src, hrephrased⟩⟩
    · by_cases heq : e.src = d'
      · exact .inr (heq ▸ hrephrased)
      · refine .inl ((fact?_settle_writeIn hg ha ho hquiet hd').trans
          ((fact?_writeIn _).trans (if_neg fun hin => heq ?_)))
        exact Option.some.inj (hd.symm.trans hin.1)
    · by_cases hf : g.feeder? id 1 = some j
      · obtain ⟨hconst, e', he', hsrc', hdst'⟩ := hfeeder j hf
        exact .inr ⟨hconst, e', he', hsrc', hdst' ▸ hrephrased⟩
      · refine .inl ?_
        show ((g.writeIn id 1 (.i64 cells)).settle id ws).attributes? j = _
        rw [attributes?_settle_of_quiet hquiet, if_neg hj, attributes?_writeIn, if_neg hf]
    · show ((g.writeIn id 1 (.i64 cells)).settle id ws).attributes? id = _
      rw [attributes?_settle_of_quiet hquiet, if_pos rfl, attributes?_writeIn, if_neg hself,
        attributes?_of_op? ho]
      rfl

/-- `k` is `g` after an operation was inferred. The operations of `P` do not read its outputs, or
find there what they found before. -/
structure Inferred (g k : Graph) (P : NodeId → Prop) (id : NodeId) : Prop
    extends Spares g k id where
  skeleton : k.skeleton = g.skeleton
  out : ∀ e ∈ g.edges, e.src = id → k.fact? e.dst = g.fact? e.dst ∨
    (∃ f f', g.fact? e.dst = some f ∧ k.fact? e.dst = some f' ∧ g.Recounts P e.dst f' f) ∨
    ∀ e' ∈ g.edges, e'.src = e.dst → ¬P e'.dst

namespace Inferred

variable (hk : g.Inferred k P id) (hg : g.WellFormed) (ha : g.Apart id)

include hk hg ha

/-- What operations of `P` and the one that was inferred find on their inputs. -/
lemma findsAlike (hj : P j ∨ j = id) (hkind : g.kind? j = some kind) (p : Nat) :
    g.FindsAlike k kind j p := by
  rcases hd : g.inSource j p with _ | d
  · refine .inl ?_
    unfold Graph.inputFact?
    rw [inSource_of_skeleton hk.skeleton, hd]
    rfl
  obtain ⟨e, he, rfl, rfl, rfl⟩ := (inSource_eq_some hg).1 hd
  have hwf := hg.of_skeleton hk.skeleton
  have hin : k.inputFact? e.dst e.inp = k.fact? e.src :=
    inputFact?_of_edge hwf (edges_of_skeleton hk.skeleton ▸ he)
  unfold FindsAlike
  rw [hin, inputFact?_of_edge hg he]
  have haxes {a : Shape} {f f' : Fact} (hunsqueeze : g.kind? e.dst = some "Unsqueeze")
      (hinp : e.inp = 1) (hshape : g.inputShape? e.dst 0 = some a) (hf : g.fact? e.src = some f)
      (hf' : k.fact? e.src = some f') (hsame : f.SameAxes a f') :
      kind = "Unsqueeze" ∧ e.inp = 1 ∧ ∃ a f f', g.inputShape? e.dst 0 = some a ∧
        g.inputFact? e.dst 1 = some f ∧ k.inputFact? e.dst 1 = some f' ∧ f.SameAxes a f' := by
    refine ⟨Option.some.inj (hkind.symm.trans hunsqueeze), hinp, a, f, f', hshape, ?_, ?_, hsame⟩
    · rw [← hinp, inputFact?_of_edge hg he, hf]
    · rw [← hinp, hin, hf']
  by_cases hout : ∃ e₀ ∈ g.edges, e₀.src = id ∧ e₀.dst = e.src
  · obtain ⟨e₀, he₀, hsrc, hdst⟩ := hout
    rcases hk.out e₀ he₀ hsrc with hsame | ⟨f, f', hf, hf', hrecounts⟩ | hnot
    · exact .inl (hdst ▸ hsame)
    · obtain ⟨-, hunsqueeze, hinp, a, hshape, hsame⟩ := hrecounts e he hdst.symm
      exact .inr (haxes hunsqueeze hinp hshape (hdst ▸ hf) (hdst ▸ hf') hsame.symm)
    · rcases hj with hj | hj
      · exact absurd hj (hnot e he hdst.symm)
      · exact absurd hdst (ha e₀ he₀ e he hsrc hj)
  · rcases hk.fact e.src fun e₀ he₀ hsrc hdst => hout ⟨e₀, he₀, hsrc, hdst⟩ with hsame | hrephrased
    · exact .inl hsame
    · have hl := hrephrased.1.lone
      obtain ⟨e₁, he₁, hsrc₁, rfl, hinp, hunsqueeze, a, f, f', hshape, hf, hf', hsame⟩ :=
        hrephrased.exists_sameAxes
      obtain rfl := eq_of_unshared hl he₁ he hsrc₁ rfl
      exact .inr (haxes hunsqueeze hinp hshape hf hf' hsame)

lemma recounts {f f' : Fact} (h : g.Recounts P d f f') :
    k.Recounts (fun j => P j ∨ j = id) d f f' := by
  intro e he hsrc
  rw [edges_of_skeleton hk.skeleton] at he
  obtain ⟨hP, hkind, hinp, a, hshape, haxes⟩ := h e he hsrc
  refine ⟨.inl hP, (kind?_of_skeleton hk.skeleton _).trans hkind, hinp, a, ?_, haxes⟩
  rw [(hk.findsAlike hg ha (.inl hP) hkind 0).inputShape?, hshape]

lemma resembles (hj : P j ∨ j = id) (ho : g.op? j = some o) (name : String)
    (attributes : Attributes) :
    (g.scene j name attributes).Resembles o.kind (k.scene j name attributes) :=
  resembles_of_skeleton hg hk.skeleton ho (hk.findsAlike hg ha hj (kind?_eq_some.2 ⟨o, ho, rfl⟩))
    name attributes

lemma inputShape? (ho : g.op? id = some o) : k.inputShape? id 0 = g.inputShape? id 0 :=
  (hk.findsAlike hg ha (.inr rfl) (kind?_eq_some.2 ⟨o, ho, rfl⟩) 0).inputShape?

lemma readsAxes_iff (ho : g.op? id = some o) : k.ReadsAxes id d ↔ g.ReadsAxes id d :=
  readsAxes_iff_of_skeleton hg hk.skeleton ho
    (hk.findsAlike hg ha (.inr rfl) (kind?_eq_some.2 ⟨o, ho, rfl⟩))

/-- A constant of which the axes were written in another way holds them so. -/
lemma calm_const (hj : P j) (hc : g.Calm P j) (hkind : g.kind? j = some "Const")
    (hlone : g.Lone "Const") {e : Edge}
    (he : e ∈ g.edges) (hsrc : e.src = j) (hrephrased : g.Rephrased k id e.dst) :
    k.Calm Q j := by
  obtain ⟨name, o, ws, hn, hi, hv, hports⟩ := hc
  have ho : g.op? j = some o := op?_eq_some.2 ⟨name, hn⟩
  obtain ⟨o', hn', hkind'⟩ := exists_op_of_label hk.skeleton hn
  obtain ⟨⟨-, ⟨e₁, he₁, hsrc₁, -⟩, -, -⟩, a, f, cells, -, hf, hf', hcounted, hstored⟩ := hrephrased
  have hattr := hstored e he rfl (hsrc ▸ hkind)
  rw [hsrc, attributes?_of_op? ho, attributes?_of_op? (op?_eq_some.2 ⟨name, hn'⟩), Option.map_some,
    Option.some.injEq] at hattr
  obtain ⟨o₁, ho₁, hconst⟩ := kind?_eq_some.1 hkind
  obtain rfl := Option.some.inj (ho.symm.trans ho₁)
  obtain ⟨t, -, -, -, ht, -⟩ := hcounted
  have hknown := Calm.hasUnknownInput_const ⟨name, o, ws, hn, hi, hv, hports⟩ hn hconst he hsrc he₁
    hsrc₁ hf ht
  obtain ⟨g', hvalue, hequal⟩ := Attributes.find?_store_i64 o.attributes "value" cells
  refine calm_of_value hn' (hkind'.trans hconst) (t := .i64 g') ?_ ?_ ?_ fun e' he' hsrc' => ?_
  · rw [hattr, Attributes.find?_store_of_ne _ (by decide), hi]
  · rw [hattr]
    exact hvalue
  · exact (hk.resembles hg ha (.inl hj) ho name o'.attributes).hasUnknownInput.trans hknown
  · rw [edges_of_skeleton hk.skeleton] at he'
    obtain rfl := hlone e he e' he' (hsrc ▸ hkind) (hsrc.trans hsrc'.symm)
    exact ⟨_, hf', Fact.update_of_beq hequal⟩

/-- The other operations stay calm. -/
lemma calm_of_ne (hj : P j) (hne : j ≠ id) (hc : g.Calm P j)
    (hlone : g.Lone "Const") :
    k.Calm (fun i => P i ∨ i = id) j := by
  by_cases hstored : g.kind? j = some "Const" ∧ ∃ e ∈ g.edges, e.src = j ∧ g.Rephrased k id e.dst
  · obtain ⟨hconst, e, he, hsrc, hrephrased⟩ := hstored
    exact hk.calm_const hg ha hj hc hconst hlone he hsrc hrephrased
  have hattr : k.attributes? j = g.attributes? j := (hk.attributes j hne).resolve_right hstored
  obtain ⟨name, o, ws, hn, hi, hv, hports⟩ := hc
  have ho : g.op? j = some o := op?_eq_some.2 ⟨name, hn⟩
  obtain ⟨o', hn', hkind', hattr'⟩ := exists_op_of_skeleton hk.skeleton hattr hn
  have hakin := (hk.resembles hg ha (.inl hj) ho name o.attributes).akin hi
  obtain ⟨ws', hv', hsame⟩ := hakin ws hv
  refine ⟨name, o', ws', hn', hattr' ▸ hi, by rw [hkind', hattr', hv'], fun e he hsrc f hf => ?_⟩
  rw [edges_of_skeleton hk.skeleton] at he
  rw [hsame]
  obtain ⟨f₀, hf₀⟩ := ends_of_op_src hg he (hsrc ▸ ho)
  have hnot : ∀ e' ∈ g.edges, e'.src = id → e'.dst ≠ e.dst := fun e' he' hsrc' hdst => by
    rw [eq_of_dst_eq hg he he' hdst.symm hf₀, hsrc'] at hsrc
    exact hne hsrc.symm
  rcases hk.fact e.dst hnot with hfact | hrephrased
  · exact (hports e he hsrc f (hfact ▸ hf)).imp_right (hk.recounts hg ha)
  -- the operation is no constant, and writes the axes as they were, or not at all
  have hsteady : Steady e.out ws := by
    refine Registry.steady_verdict hi (fun hconst => hstored ⟨?_, e, he, hsrc, hrephrased⟩) hv e.out
    rw [kind?, ho, Option.map_some, hconst]
  have hl := hrephrased.1.lone
  obtain ⟨e₁, he₁, hsrc₁, rfl, hinp₁, hkind, a, f₁, f₂, hshape, hf₁, hf', haxes⟩ :=
    hrephrased.exists_sameAxes
  obtain rfl := Option.some.inj (hf'.symm.trans hf)
  rcases hsteady with hsilent | ⟨f', hsteady⟩
  · exact .inl (hsilent _)
  refine .inr fun e₂ he₂ hsrc₂ => ?_
  rw [edges_of_skeleton hk.skeleton] at he₂
  obtain rfl := eq_of_unshared hl he₁ he₂ hsrc₁ hsrc₂
  refine ⟨.inr rfl, (kind?_of_skeleton hk.skeleton _).trans hkind, hinp₁, a, ?_, ?_⟩
  · rw [(hk.findsAlike hg ha (.inr rfl) hkind 0).inputShape?, hshape]
  · rw [hsteady]
    rcases hports e he hsrc f₁ hf₁ with hsame | hrecounts
    · rwa [← hsteady f₁, hsame]
    · obtain ⟨-, -, -, a', hshape', haxes'⟩ := hrecounts e₁ he₁ hsrc₁
      obtain rfl := Option.some.inj (hshape.symm.trans hshape')
      rw [← hsteady f₁]
      exact haxes'.trans haxes

end Inferred

lemma Calm.mono (hc : g.Calm P id) (h : ∀ j, P j → Q j) : g.Calm Q id := by
  obtain ⟨name, o, ws, hn, hi, hv, hports⟩ := hc
  refine ⟨name, o, ws, hn, hi, hv, fun e he hsrc f hf => (hports e he hsrc f hf).imp_right ?_⟩
  exact fun hrecounts e' he' hsrc' => (hrecounts e' he' hsrc').imp_left (h _)

lemma inputFact?_of_agrees (ha : h.Agrees g) (op : NodeId) (p : Nat) :
    h.inputFact? op p = g.inputFact? op p := by
  unfold inputFact?
  rw [inSource_of_skeleton ha.skeleton, show h.fact? = g.fact? from funext ha.fact]

lemma Calm.of_agrees (hc : g.Calm P j) (hg : g.WellFormed) (ha : h.Agrees g) : h.Calm P j := by
  obtain ⟨name, o, ws, hn, hi, hv, hports⟩ := hc
  have ho : g.op? j = some o := op?_eq_some.2 ⟨name, hn⟩
  obtain ⟨o', hn', hkind, hattr⟩ := exists_op_of_skeleton ha.skeleton (ha.attributes j) hn
  refine Calm.transfer ⟨name, o, ws, hn, hi, hv, hports⟩ hn hn' hkind (hattr ▸ hi) ?_
    fun e he _ => ⟨edges_of_skeleton ha.skeleton ▸ he, ha.fact _, fun f f' hr e' he' hsrc => ?_⟩
  · rw [hattr, ha.symm.scene hg ho]
    exact .refl _ _
  · rw [edges_of_skeleton ha.skeleton] at he'
    obtain ⟨hP, hkind, hinp, a, hshape, haxes⟩ := hr e' he' hsrc
    refine ⟨hP, (kind?_of_skeleton ha.skeleton _).trans hkind, hinp, a, ?_, haxes⟩
    rw [inputShape?, inputFact?_of_agrees ha]
    exact hshape

section

variable (hg : g.WellFormed) (ha : g.Apart id) (hn : g.node? id = some ⟨name, .op o⟩)
  (hi : o.attributes.find? "infer" = none)
  (hv : Registry.standard.verdict o.kind (g.scene id name o.attributes) = .ok ws)

include hg ha hn hi hv

lemma inferred_settle (hout : ∀ e ∈ g.edges, e.src = id → ∀ f, g.fact? e.dst = some f →
      portFact e.out f ws = f ∨ g.Recounts P e.dst (portFact e.out f ws) f ∨
        ∀ e' ∈ g.edges, e'.src = e.dst → ¬P e'.dst) : g.Inferred (g.settle id ws) P id where
  toSpares := (spares_settle hg ha hn hi hv).1
  skeleton := skeleton_settle ws
  out e he hsrc := by
    have ho : g.op? id = some o := op?_eq_some.2 ⟨name, hn⟩
    obtain ⟨f, hf⟩ := ends_of_op_src hg he (hsrc ▸ ho)
    have hf' := fact?_settle_out hg ho ha he hsrc ws
    rw [hf, Option.map_some] at hf'
    refine (hout e he hsrc f hf).imp (fun hsame => ?_) (.imp_left fun hrecounts => ?_)
    · rw [hf', hsame, hf]
    · exact ⟨f, _, hf, hf', hrecounts⟩

/-- What the operation itself writes to its outputs when it is inferred again. -/
lemma verdict_self (hk : g.Inferred (g.settle id ws) P id) : ∃ o' ws',
    (g.settle id ws).node? id = some ⟨name, .op o'⟩ ∧ o'.kind = o.kind ∧
      o'.attributes = Attributes.taken o.attributes ws ∧ o'.attributes.find? "infer" = none ∧
      Registry.standard.verdict o'.kind ((g.settle id ws).scene id name o'.attributes) = .ok ws' ∧
      ∀ p f, portFact p f ws' = portFact p f ws := by
  have ho : g.op? id = some o := op?_eq_some.2 ⟨name, hn⟩
  obtain ⟨o', hn', hkind⟩ := exists_op_of_label hk.skeleton hn
  have hattr : o'.attributes = Attributes.taken o.attributes ws := by
    have := (spares_settle hg ha hn hi hv).2.1
    rw [attributes?_of_op? (op?_eq_some.2 ⟨name, hn'⟩)] at this
    exact Option.some.inj this
  have hplain := Attributes.plain_taken hi hv
  obtain ⟨ws', hv', hsame⟩ := (akin_taken hi hv).trans ((hk.resembles hg ha (.inr rfl) ho name
    (Attributes.taken o.attributes ws)).akin hplain) ws hv
  exact ⟨o', ws', hn', hkind, hattr, hattr ▸ hplain, by rw [hkind, hattr, hv'], hsame⟩

/-- The operation itself is calm after it was inferred, as it writes no more the second time. -/
lemma calm_self (hk : g.Inferred (g.settle id ws) P id) : (g.settle id ws).Calm Q id := by
  have ho : g.op? id = some o := op?_eq_some.2 ⟨name, hn⟩
  obtain ⟨o', ws', hn', -, -, hi', hv', hsame⟩ := verdict_self hg ha hn hi hv hk
  refine ⟨name, o', ws', hn', hi', hv', fun e he hsrc f hf => .inl ?_⟩
  rw [edges_of_skeleton hk.skeleton] at he
  rw [fact?_settle_out hg ho ha he hsrc] at hf
  obtain ⟨f₀, -, rfl⟩ := Option.map_eq_some_iff.1 hf
  rw [hsame, Registry.portFact_again hi hv]

/-- **Inferring an operation** leaves the calm ones calm and makes it one of them, when those that
read its outputs find there what they found before. -/
theorem calm_settle (hlone : g.Lone "Const")
    (hcalm : ∀ j, P j → (g.op? j).isSome → g.Calm P j)
    (hk : g.Inferred (g.settle id ws) P id) (hj : P j ∨ j = id) (hop : (g.op? j).isSome) :
    (g.settle id ws).Calm (fun i => P i ∨ i = id) j := by
  by_cases hne : j = id
  · subst hne
    exact calm_self hg ha hn hi hv hk
  · have hP : P j := hj.resolve_right hne
    exact hk.calm_of_ne hg ha hP hne (hcalm j hP hop) hlone

end

/-! ### Runs of inference -/

/-- All operations are calm. -/
def Quiescent (g : Graph) : Prop := ∀ id, (g.op? id).isSome → g.Calm (fun _ => True) id

/-- The outputs of the model are still there and read the same. -/
def SameResults (g h : Graph) : Prop := ∀ id, g.kind? id = some "Result" →
  h.kind? id = some "Result" ∧ h.inputFact? id 0 = g.inputFact? id 0

lemma SameResults.refl (g : Graph) : g.SameResults g := fun _ hid => ⟨hid, rfl⟩

lemma SameResults.trans (hg : g.SameResults h) (hh : h.SameResults k) : g.SameResults k := by
  intro id hid
  obtain ⟨hid', hsame⟩ := hg id hid
  obtain ⟨hid'', hsame'⟩ := hh id hid'
  exact ⟨hid'', hsame'.trans hsame⟩

lemma Agrees.sameResults (ha : h.Agrees g) : g.SameResults h := fun id hid =>
  ⟨(kind?_of_skeleton ha.skeleton id).trans hid, inputFact?_of_agrees ha id 0⟩

lemma Quiescent.of_agrees (hq : g.Quiescent) (hg : g.WellFormed) (ha : h.Agrees g) :
    h.Quiescent := fun id hop =>
  (hq id (isSome_op?_of_skeleton ha.skeleton id ▸ hop)).of_agrees hg ha

lemma Quiescent.visit (hq : g.Quiescent) (hg : Registry.Runnable g) (hlone : g.Lone "Const")
    (hk : Registry.standard.visit g id = .ok k) : k.Quiescent ∧ g.SameResults k := by
  rcases Registry.visit_eq_ok.1 hk with ⟨-, rfl⟩ | ⟨name, o, ws, hn, hv, rfl⟩
  · exact ⟨hq, .refl _⟩
  have hwf := hg.wellFormed
  have ha := hg.apart id
  have ho : g.op? id = some o := op?_eq_some.2 ⟨name, hn⟩
  obtain ⟨name', o', ws', hn', hi, hv', hports⟩ := hq id (ho ▸ rfl)
  cases hn.symm.trans hn'
  obtain rfl := Except.ok.inj (hv.symm.trans hv')
  have hinf := inferred_settle (P := fun _ => True) hwf ha hn hi hv fun e he hsrc f hf =>
    (hports e he hsrc f hf).imp_right .inl
  constructor
  · have hset : (g.settle id ws).Quiescent := fun j hop =>
      (calm_settle hwf ha hn hi hv hlone (fun i _ hop => hq i hop) hinf (.inl trivial)
        (isSome_op?_of_skeleton hinf.skeleton j ▸ hop)).mono fun _ _ => trivial
    exact hset.of_agrees (hwf.of_skeleton hinf.skeleton) (agrees_unmark _ id)
  · refine SameResults.trans (fun j hj => ?_) (agrees_unmark _ id).sameResults
    exact ⟨(kind?_of_skeleton hinf.skeleton j).trans hj,
      (hinf.findsAlike hwf ha (.inl trivial) hj 0).inputFact? (.inl (by decide))⟩

/-- **Later inference**: a run in a graph in which all operations are calm leaves them so, and
leaves what the outputs of the model read. -/
theorem Quiescent.run {changed l : List NodeId} (hq : g.Quiescent) (hg : Registry.Runnable g)
    (hlone : g.Lone "Const") (hrun : Registry.standard.Run changed l g h) :
    h.Quiescent ∧ g.SameResults h := by
  induction hrun with
  | nil halike =>
    have ha := halike.symm.agrees
    exact ⟨hq.of_agrees hg.wellFormed ha, ha.sameResults⟩
  | data _ _ ih => exact ih hq hg hlone
  | skip _ _ _ ih => exact ih hq hg hlone
  | visit _ _ hk _ _ ih =>
    have hskel := Registry.skeleton_visit hk
    obtain ⟨hq', hsame⟩ := hq.visit hg hlone hk
    obtain ⟨hq'', hsame'⟩ := ih hq' (hg.of_skeleton hskel) (hlone.of_skeleton hskel)
    exact ⟨hq'', hsame.trans hsame'⟩

/-- What holds on the way through an order and is kept by visits holds after a sweep. -/
lemma Underway.sweep_induct {I : List NodeId → Graph → Prop} (hstep : ∀ {done rest id g k},
      g.Underway done (id :: rest) → I done g → Registry.standard.visit g id = .ok k →
      I (id :: done) k) {done rest : List NodeId} (hg : g.Underway done rest) (hI : I done g)
    (hk : Registry.standard.sweep g rest = .ok k) : I (rest.reverse ++ done) k := by
  induction rest generalizing g done with
  | nil =>
    cases hk
    exact hI
  | cons id rest ih =>
    obtain ⟨h, hh, hk⟩ := Registry.sweep_cons_eq_ok.1 hk
    rw [List.reverse_cons, List.append_assoc]
    exact ih (hg.visit hh) (hstep hg hI hh) hk

/-- A visit on the way through an order adds an operation to the calm ones. -/
lemma Underway.calm {done rest : List NodeId} (hg : g.Underway done (id :: rest))
    (hlone : g.Lone "Const") (hcalm : ∀ j ∈ done, (g.op? j).isSome → g.Calm (· ∈ done) j)
    (hk : Registry.standard.visit g id = .ok k) :
    ∀ j ∈ id :: done, (k.op? j).isSome → k.Calm (· ∈ id :: done) j := by
  intro j hj hop
  rcases Registry.visit_eq_ok.1 hk with ⟨hnone, rfl⟩ | ⟨name, o, ws, hn, hv, rfl⟩
  · have hj : j ∈ done := (List.mem_cons.1 hj).resolve_left fun heq => by
      rw [heq, hnone] at hop
      cases hop
    exact (hcalm j hj hop).mono fun _ => List.mem_cons_of_mem id
  have hwf := hg.runnable.wellFormed
  have ha := hg.runnable.apart id
  have hi := hg.plain (List.mem_cons_self ..) (op?_eq_some.2 ⟨name, hn⟩)
  -- nothing behind reads what is written
  have hinf := inferred_settle (P := (· ∈ done)) hwf ha hn hi hv fun e he hsrc f hf =>
    .inr (.inr fun e' he' hsrc' hmem => by
      have hdst := hg.closed _ hmem (mem_sources.2 ⟨e', he', rfl, hsrc'⟩)
      have hid := hg.closed _ hdst (mem_sources.2 ⟨e, he, rfl, hsrc⟩)
      exact hg.ready.not_mem_done (List.mem_cons_self ..) hid)
  have hskel : ((g.settle id ws).unmark id).skeleton = g.skeleton := Registry.skeleton_visit hk
  have hset := calm_settle hwf ha hn hi hv hlone hcalm hinf (List.mem_cons.1 hj).symm
    (isSome_op?_of_skeleton hskel j ▸ hop)
  refine (hset.mono fun i hmem => ?_).of_agrees (hwf.of_skeleton hinf.skeleton) (agrees_unmark _ id)
  exact List.mem_cons.2 hmem.symm

/-- **First inference**: a sweep leaves the operations that it passed calm. -/
theorem Underway.sweep_calm {rest : List NodeId} (hg : g.Underway [] rest) (hlone : g.Lone "Const")
    (hk : Registry.standard.sweep g rest = .ok k) (hj : j ∈ rest) (hop : (k.op? j).isSome) :
    k.Calm (fun _ => True) j := by
  obtain ⟨-, hcalm⟩ := hg.sweep_induct (I := fun done g => g.Lone "Const" ∧
    ∀ j ∈ done, (g.op? j).isSome → g.Calm (· ∈ done) j)
    (fun hg ⟨hlone, hcalm⟩ hk =>
      ⟨hlone.of_skeleton (Registry.skeleton_visit hk), hg.calm hlone hcalm hk⟩)
    ⟨hlone, by simp⟩ hk
  exact (hcalm j (by simpa using hj) hop).mono fun _ _ => trivial

end Graph

end TensorGraph
