import TensorGraph.Proofs.StandardRules

/-!
Inferring an operation of which the inputs are known.

`Graph.Applied` says what is known of the data on each input port of an operation. The rule of the
operation then runs in a scene that gives it this (`Scene.Given`), and inferring the operation does
what the rule does there (`Graph.Follows`): it succeeds when the rule does, with the outputs that
the rule has written, and it fails with the error of the rule.
-/

namespace TensorGraph

open Edit

lemma Tensor.valid_dims (t : Tensor) : Shape.Valid t.dims := fun d hd => by
  have := t.dims_nonneg d hd
  omega

/-! ### Scenes -/

/-- The scene gives what is known of the inputs, port by port. -/
def Scene.Given (s : Scene) (facts : List Fact) : Prop :=
  ∀ {p : Nat} {f : Fact}, facts[p]? = some f → s.inputFact p = .ok f

namespace Scene.Given

variable {s : Scene} {facts : List Fact} {p : Nat} {f : Fact}

lemma inputShape (h : s.Given facts) (hf : facts[p]? = some f) {a : Shape}
    (ha : f.shape = some a) : s.inputShape p = .ok a :=
  Scene.inputShape_eq_ok.2 ⟨f, h hf, ha⟩

lemma inputValue (h : s.Given facts) (hf : facts[p]? = some f) : s.inputValue p = .ok f.value :=
  Scene.inputValue_eq_ok.2 ⟨f, h hf, rfl⟩

lemma constant (h : s.Given facts) {t : Tensor} (ht : facts[p]? = some (.ofValue t)) :
    s.inputShape p = .ok t.dims ∧ s.inputValue p = .ok (some t) :=
  ⟨h.inputShape ht rfl, h.inputValue ht⟩

end Scene.Given

namespace Graph

variable {g h : Graph} {id d : NodeId} {o : Operation} {facts : List Fact} {name : String}

/-! ### Operations and their data -/

def Output (g : Graph) (id : NodeId) (port : Nat) (d : NodeId) : Prop :=
  ∃ e ∈ g.edges, e.src = id ∧ e.out = port ∧ e.dst = d

/-- An operation that names no rule of its own, with what is known of its inputs: one connected
input port for each fact. -/
structure Applied (g : Graph) (id : NodeId) (o : Operation) (facts : List Fact) : Prop where
  wellFormed : g.WellFormed
  apart : g.Apart id
  op : g.op? id = some o
  plain : o.attributes.find? "infer" = none
  connected : ∀ p < facts.length, ∃ e ∈ g.edges, e.dst = id ∧ e.inp = p
  input : ∀ e ∈ g.edges, e.dst = id → g.fact? e.src = facts[e.inp]?

namespace Applied

/-- Read off the edges into the operation, in the order of their ports. -/
lemma of_incoming (hg : g.WellFormed) (ha : g.Apart id) (ho : g.op? id = some o)
    (hplain : o.attributes.find? "infer" = none)
    (hports : (g.incoming id).map (·.inp) = List.range facts.length)
    (hfacts : (g.incoming id).map (fun e => g.fact? e.src) = facts.map some) :
    g.Applied id o facts where
  wellFormed := hg
  apart := ha
  op := ho
  plain := hplain
  connected p hp := by
    have hmem : p ∈ (g.incoming id).map (·.inp) := hports ▸ List.mem_range.2 hp
    obtain ⟨e, he, rfl⟩ := List.mem_map.1 hmem
    obtain ⟨he, hdst⟩ := mem_incoming.1 he
    exact ⟨e, he, hdst, rfl⟩
  input e he hdst := by
    obtain ⟨i, hi⟩ := List.mem_iff_getElem?.1 (mem_incoming.2 ⟨he, hdst⟩)
    have hport : (List.range facts.length)[i]? = some e.inp := by
      rw [← hports, List.getElem?_map, hi, Option.map_some]
    obtain ⟨hlt, rfl⟩ : i < facts.length ∧ i = e.inp := by
      simpa [List.getElem?_eq_some_iff] using hport
    have hfact : (facts.map some)[e.inp]? = some (g.fact? e.src) := by
      rw [← hfacts, List.getElem?_map, hi, Option.map_some]
    rw [List.getElem?_map, List.getElem?_eq_getElem hlt, Option.map_some] at hfact
    rw [List.getElem?_eq_getElem hlt]
    exact (Option.some.inj hfact).symm

lemma inputFact (ha : g.Applied id o facts) {p : Nat} {f : Fact} (hf : facts[p]? = some f)
    (name : String) (attributes : Attributes) :
    (g.scene id name attributes).inputFact p = .ok f := by
  obtain ⟨e, he, rfl, rfl⟩ := ha.connected p (List.getElem?_eq_some_iff.1 hf).1
  exact inputFact_of_edge ha.wellFormed he ha.op name attributes ((ha.input e he rfl).trans hf)

lemma hasUnknownInput (ha : g.Applied id o facts) (hshapes : ∀ f ∈ facts, f.shape.isSome)
    (name : String) (attributes : Attributes) :
    (g.scene id name attributes).hasUnknownInput = false := by
  rw [scene_hasUnknownInput ha.wellFormed ha.op, List.any_eq_false]
  intro d hd
  obtain ⟨e, he, hdst, rfl⟩ := mem_sources.1 hd
  rw [ha.input e he hdst]
  rcases hf : facts[e.inp]? with _ | f
  · simp
  · have := hshapes f (List.mem_of_getElem? hf)
    simp [Option.isNone_eq_false_iff.2 this]

end Applied

/-! ### Inferring the operation -/

/-- Inferring the operation does what the rule does in the scene. -/
structure Follows (g : Graph) (id : NodeId) (rule : Rule) (s : Scene) : Prop where
  name : (g.node? id).map (·.name) = some s.name
  gives : ∀ {ws : List Write}, rule.eval s = .ok ((), ws) → ∃ changed h,
    Gives (Registry.standard.inferNode id) g changed h ∧ ∀ e ∈ g.edges, e.src = id →
      h.fact? e.dst = (g.fact? e.dst).map (portFact e.out · ws)
  fails : ∀ {e : Error}, rule.eval s = .error e →
    Fails (Registry.standard.inferNode id) g (Registry.ruleError s.name e)

/-- **Inference of an operation with known inputs**: where it has the attributes that the entry of
its kind asks for, it follows the rule of that entry. -/
theorem Applied.follows (ha : g.Applied id o facts) {entry : OpEntry}
    (hentry : OpEntry.standard.reverse.find? (·.kind = o.kind) = some entry)
    (hrequired : (entry.required.find? fun name => !o.attributes.contains name) = none)
    (hshapes : ∀ f ∈ facts, f.shape.isSome) :
    ∃ s : Scene, s.Given facts ∧ g.Follows id entry.rule s ∧
      ∀ name, s.attr? name = (o.attributes.find? name).or (entry.defaults.find? name) := by
  obtain ⟨name, hn⟩ := op?_eq_some.1 ha.op
  have hverdict : Registry.standard.verdict o.kind (g.scene id name o.attributes) =
      (entry.rule.eval ((g.scene id name o.attributes).filled entry)).map (·.2) :=
    Registry.verdict_of_required hentry ha.plain hrequired
      (ha.hasUnknownInput hshapes name o.attributes)
  refine ⟨(g.scene id name o.attributes).filled entry, fun hf => ha.inputFact hf name _,
    ⟨by rw [hn]; rfl, fun hev => ?_, fun hev => ?_⟩, Scene.attr?_filled _ entry⟩
  · rw [hev] at hverdict
    obtain ⟨changed, h, hx, hl, -, -⟩ :=
      Registry.gives_inferNode Registry.local_standard ha.wellFormed hn ha.apart hverdict
    refine ⟨changed, h, hx, fun e he hsrc => ?_⟩
    rw [hl.fact?, fact?_unmark, fact?_settle_out ha.wellFormed ha.op ha.apart he hsrc]
  · rw [hev] at hverdict
    have hx := Registry.fails_inferNode Registry.local_standard ha.wellFormed hn ha.apart hverdict
    unfold Registry.complaint at hx
    rw [show Registry.standard.find? o.kind = some entry from
      (Registry.find?_standard o.kind).trans hentry] at hx
    simp only [scene, hrequired] at hx
    exact hx

/-- Inference fails where an attribute is missing that the entry asks for. -/
lemma Applied.not_gives (ha : g.Applied id o facts) {entry : OpEntry}
    (hentry : OpEntry.standard.reverse.find? (·.kind = o.kind) = some entry)
    (hmissing : (entry.required.find? fun name => !o.attributes.contains name) ≠ none) :
    ¬∃ changed h, Gives (Registry.standard.inferNode id) g changed h := by
  obtain ⟨name, hn⟩ := op?_eq_some.1 ha.op
  rcases hv : Registry.standard.verdict o.kind (g.scene id name o.attributes) with e | ws
  · have hx := Registry.fails_inferNode Registry.local_standard ha.wellFormed hn ha.apart hv
    rintro ⟨changed, h, hgives⟩
    exact hgives.not_fails hx
  · exact absurd ((Registry.verdict_of_find? hentry ha.plain).1 hv).1 hmissing

namespace Follows

variable {rule : Rule} {s : Scene}

lemma gives_iff (hf : g.Follows id rule s) :
    (∃ changed h, Gives (Registry.standard.inferNode id) g changed h) ↔
      ∃ ws, rule.eval s = .ok ((), ws) := by
  constructor
  · rintro ⟨changed, h, hx⟩
    rcases hev : rule.eval s with e | ⟨⟨⟩, ws⟩
    · exact absurd (hf.fails hev) hx.not_fails
    · exact ⟨ws, rfl⟩
  · rintro ⟨ws, hev⟩
    obtain ⟨changed, h, hx, -⟩ := hf.gives hev
    exact ⟨changed, h, hx⟩

/-- What is then known of an output is what the rule has written there. -/
lemma fact?_output (hf : g.Follows id rule s) (ha : g.Applied id o facts) {ws : List Write}
    (hev : rule.eval s = .ok ((), ws)) {changed : List NodeId}
    (hx : Gives (Registry.standard.inferNode id) g changed h) {p : Nat} {f : Fact}
    (hport : ∀ f', portFact p f' ws = f) (hd : g.Output id p d) : h.fact? d = some f := by
  obtain ⟨e, he, hsrc, rfl, rfl⟩ := hd
  obtain ⟨changed', h', hx', hfacts⟩ := hf.gives hev
  obtain ⟨-, rfl⟩ := hx.unique hx'
  obtain ⟨f', hf'⟩ := ends_of_op_src ha.wellFormed he (hsrc ▸ ha.op)
  rw [hfacts e he hsrc, hf', Option.map_some, hport]

/-- A value folded for output 0 is what is then known there. -/
lemma fact?_folded (hf : g.Follows id rule s) (ha : g.Applied id o facts) {shape : Shape}
    {t : Tensor} (hev : rule.eval s = .ok ((), shaped 0 shape (some t))) {changed : List NodeId}
    (hx : Gives (Registry.standard.inferNode id) g changed h) (hd : g.Output id 0 d) :
    h.fact? d = some (.ofValue t) := by
  refine hf.fact?_output ha hev hx (fun f' => ?_) hd
  rw [portFact_shaped, if_pos rfl]
  rfl

end Follows

end Graph

end TensorGraph
