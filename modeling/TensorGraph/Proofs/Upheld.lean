import TensorGraph.Proofs.Poised

/-!
What operations would write once more.

After all operations were inferred, each would write what is known of its outputs (`Graph.Upholds`),
but for axes that an unsqueeze has counted from the left since: the operation that they come from
would write them as they were, unless it is a constant, which was given the new axes to hold. A
constant with several outputs would then write these axes to the first one, whichever they were read
from.

Inferring an operation leaves the ones behind it in an evaluation order upheld (`Underway.upholds`),
so that a sweep makes all of them upheld and inferring one of them again changes nothing else
(`inferNode_upheld`).
-/

namespace TensorGraph

open Edit

namespace Fact.Counted

variable {a : Shape} {f f' : Fact}

/-- Counted axes are a value with its shape. -/
lemma shaped (h : f.Counted a f') : f'.Shaped := by
  obtain ⟨axes, shape, normalized, cells, -, -, -, -, rfl⟩ := h
  exact Fact.shaped_ofValue _

lemma isSome_shape (h : f.Counted a f') (hf : f.Shaped) : f.shape.isSome := by
  obtain ⟨axes, -, -, -, hvalue, -⟩ := h
  rw [hf axes hvalue]
  rfl

/-- Counting axes leaves their shape. -/
lemma shape_eq (h : f.Counted a f') (hf : f.Shaped) : f.shape = f'.shape := by
  obtain ⟨axes, shape, normalized, cells, hvalue, -, -, hcells, rfl⟩ := h
  rw [hf axes hvalue]
  exact congrArg (fun l => some (l.map Int.ofNat)) (Grid.shape_ofCells hcells).symm

end Fact.Counted

/-- A constant that writes a value holds it. -/
lemma Registry.value_of_verdict {s : Scene} {t : Tensor} (hs : s.attributes.find? "infer" = none)
    (hv : standard.verdict "Const" s = .ok [.outputValue 0 t]) :
    s.attributes.find? "value" = some (.tensor t) := by
  rcases verdict_const_cases hs hv with hws | ⟨t', ht', hws⟩
  · have hmem : Write.outputValue 0 t ∈ s.outputPorts.map .outputUnknown :=
      hws ▸ List.mem_singleton.2 rfl
    obtain ⟨p, -, hp⟩ := List.mem_map.1 hmem
    cases hp
  · cases hws
    exact ht'

namespace Graph

variable {g h k : Graph} {id j op d : NodeId} {o : Operation} {kind name : String} {ws : List Write}
  {P Q : NodeId → Prop}

/-! ### Inputs that stay as they are -/

section

variable (hs : k.skeleton = g.skeleton) (hin : ∀ d ∈ g.sources op, k.fact? d = g.fact? d)

include hs hin

lemma inputShape?_congr (hg : g.WellFormed) (p : Nat) :
    k.inputShape? op p = g.inputShape? op p := by
  unfold inputShape? inputFact?
  rw [inSource_of_skeleton hs]
  rcases hd : g.inSource op p with _ | d
  · rfl
  · obtain ⟨e, he, hdst, -, hsrc⟩ := (inSource_eq_some hg).1 hd
    rw [Option.bind_some, Option.bind_some, hin d (mem_sources.2 ⟨e, he, hdst, hsrc⟩)]

lemma Known.congr (h : g.Known op) : k.Known op := by
  intro d hd f hf
  rw [sources_of_skeleton hs] at hd
  exact h d hd f (hin d hd ▸ hf)

lemma ReadsAxes.congr (h : g.ReadsAxes op d) : k.ReadsAxes op d :=
  h.of_skeleton hs (h.known.congr hs hin)

end

/-! ### Operations that uphold their outputs -/

/-- Inferring the operation writes `ws`, neither to its inputs nor to its attributes. -/
structure Infers (g : Graph) (id : NodeId) (kind : String) (ws : List Write) : Prop where
  verdict : ∃ name o, g.node? id = some ⟨name, .op o⟩ ∧ o.kind = kind ∧
    o.attributes.find? "infer" = none ∧ Attributes.taken o.attributes ws = o.attributes ∧
    Registry.standard.verdict kind (g.scene id name o.attributes) = .ok ws
  quiet : Quiet ws

lemma Infers.congr (hw : g.Infers id kind ws) (hg : g.WellFormed) (hs : k.skeleton = g.skeleton)
    (ha : k.attributes? id = g.attributes? id) (hin : ∀ d ∈ g.sources id, k.fact? d = g.fact? d) :
    k.Infers id kind ws := by
  obtain ⟨⟨name, o, hn, rfl, hi, htaken, hv⟩, hquiet⟩ := hw
  obtain ⟨o', hn', hkind, hattr⟩ := exists_op_of_skeleton hs ha hn
  refine ⟨⟨name, o', hn', hkind, hattr ▸ hi, hattr ▸ htaken, ?_⟩, hquiet⟩
  rw [hattr, scene_congr hg hs (op?_eq_some.2 ⟨name, hn⟩) fun p d hd => hin d ?_]
  · exact hv
  · obtain ⟨e, he, hdst, -, hsrc⟩ := (inSource_eq_some hg).1 hd
    exact mem_sources.2 ⟨e, he, hdst, hsrc⟩

/-- An unsqueeze of `P` reads the data as its axes and counts those of the first fact from the left,
as they are in the second one. -/
def Counts (g : Graph) (P : NodeId → Prop) (d : NodeId) (f f' : Fact) : Prop :=
  ∃ r a, P r ∧ g.ReadsAxes r d ∧ g.inputShape? r 0 = some a ∧ f.Counted a f'

/-- The fact on an output is what the writes say of it. Otherwise it is axes that were written so
and counted since, or the operation is a constant that was given the axes on another output. -/
inductive Upheld (g : Graph) (P : NodeId → Prop) (kind : String) (ws : List Write) (e : Edge)
    (f : Fact) : Prop
  | same : portFact e.out f ws = f → g.Upheld P kind ws e f
  | counted : kind ≠ "Const" → g.Counts P e.dst (portFact e.out f ws) f → g.Upheld P kind ws e f
  | stored {t : Tensor} {e' : Edge} {r : NodeId} : kind = "Const" → ws = [.outputValue 0 t] →
      e.out = 0 → e' ∈ g.edges → e'.src = e.src → e' ≠ e → P r → g.ReadsAxes r e'.dst →
      g.Upheld P kind ws e f

/-- A constant that upholds a value knows its inputs. -/
lemma Upheld.hasUnknownInput {s : Scene} {e : Edge} {f : Fact} (h : g.Upheld P kind ws e f)
    (hkind : kind = "Const") (hi : s.attributes.find? "infer" = none)
    (hv : Registry.standard.verdict kind s = .ok ws) (hport : e.out ∈ s.outputPorts)
    (hvalue : f.value.isSome) : s.hasUnknownInput = false := by
  cases h with
  | same hsame =>
    refine Registry.hasUnknownInput_of_ne hi hv fun hws => ?_
    rw [hws, portFact_unknowns, if_pos hport] at hsame
    subst hsame
    cases hvalue
  | counted hne => exact absurd hkind hne
  | stored _ hws => exact Registry.hasUnknownInput_of_value hi (hws ▸ hv)

/-- Inferring the operation writes what is known of its outputs. -/
def Upholds (g : Graph) (P : NodeId → Prop) (id : NodeId) : Prop := ∃ kind ws,
  g.Infers id kind ws ∧
    ∀ e ∈ g.edges, e.src = id → ∀ f, g.fact? e.dst = some f → g.Upheld P kind ws e f

section

variable (hs : k.skeleton = g.skeleton) (hP : ∀ r, P r → Q r)
  (hin : ∀ r, P r → ∀ d ∈ g.sources r, k.fact? d = g.fact? d)

include hs hP hin

lemma Counts.congr {f f' : Fact} (hg : g.WellFormed) (h : g.Counts P d f f') :
    k.Counts Q d f f' := by
  obtain ⟨r, a, hr, hreads, hshape, hcounted⟩ := h
  refine ⟨r, a, hP r hr, hreads.congr hs (hin r hr), ?_, hcounted⟩
  rw [inputShape?_congr hs (hin r hr) hg, hshape]

lemma Upheld.congr {e : Edge} {f : Fact} (hg : g.WellFormed) (h : g.Upheld P kind ws e f) :
    k.Upheld Q kind ws e f := by
  cases h with
  | same h => exact .same h
  | counted hkind h => exact .counted hkind (h.congr hs hP hin hg)
  | @stored t e' r hkind hws hport he' hsrc hne hr hreads =>
    exact .stored hkind hws hport (edges_of_skeleton hs ▸ he') hsrc hne (hP r hr)
      (hreads.congr hs (hin r hr))

end

lemma Upholds.of_agrees (hu : g.Upholds P id) (hg : g.WellFormed) (ha : h.Agrees g) :
    h.Upholds P id := by
  obtain ⟨kind, ws, hinfers, hports⟩ := hu
  refine ⟨kind, ws, hinfers.congr hg ha.skeleton (ha.attributes id) fun d _ => ha.fact d,
    fun e he hsrc f hf => ?_⟩
  rw [edges_of_skeleton ha.skeleton] at he
  exact (hports e he hsrc f (ha.fact e.dst ▸ hf)).congr ha.skeleton (fun _ h => h)
    (fun _ _ d _ => ha.fact d) hg

lemma Upholds.mono (hu : g.Upholds P id) (hg : g.WellFormed) (hP : ∀ r, P r → Q r) :
    g.Upholds Q id := by
  obtain ⟨kind, ws, hinfers, hports⟩ := hu
  exact ⟨kind, ws, hinfers, fun e he hsrc f hf =>
    (hports e he hsrc f hf).congr rfl hP (fun _ _ _ _ => rfl) hg⟩

/-! ### The operation that was inferred -/

/-- Axes that are not counted from the left are written over. -/
lemma ReadsAxes.not_quiet (hr : g.ReadsAxes id d) (hg : g.WellFormed)
    (hn : g.node? id = some ⟨name, .op o⟩) (hi : o.attributes.find? "infer" = none)
    (hv : Registry.standard.verdict o.kind (g.scene id name o.attributes) = .ok ws) {a : Shape}
    (hshape : g.inputShape? id 0 = some a) {f f' : Fact} (hf : g.fact? d = some f)
    (hcounted : f.Counted a f') : ¬Quiet ws := by
  have ho : g.op? id = some o := op?_eq_some.2 ⟨name, hn⟩
  obtain ⟨hkind, ⟨e, he, rfl, rfl, hinp⟩, hlone, hknown⟩ := hr
  have hunsqueeze : o.kind = "Unsqueeze" := by
    rw [kind?, ho, Option.map_some] at hkind
    exact Option.some.inj hkind
  have hsource : g.inSource e.dst 1 = some e.src := hinp ▸ inSource_of_edge hg he
  rw [hunsqueeze] at hv
  refine Registry.not_quiet_verdict hi hv ((hasUnknownInput_eq_false hg ho ..).2 hknown)
    ((scene_inputShape_eq_ok hg ho).2 hshape) ?_ hcounted ?_
  · rw [scene_inputFact ho, hsource]
    exact fact_eq_ok.2 hf
  · refine (inputIsShared_eq hg ho 1).trans ?_
    simpa [hsource] using hlone

/-- An operation reads its axes from one edge. -/
lemma ReadsAxes.eq_source (hr : g.ReadsAxes id d) {d' : NodeId} (hr' : g.ReadsAxes id d')
    (hg : g.WellFormed) : d = d' := by
  obtain ⟨-, ⟨e, he, rfl, hdst, hinp⟩, -⟩ := hr
  obtain ⟨-, ⟨e', he', rfl, hdst', hinp'⟩, -⟩ := hr'
  obtain rfl := hg.inp_unique he he' (hdst.trans hdst'.symm) (hinp.trans hinp'.symm)
  rfl

section

variable (hg : g.WellFormed) (ha : g.Apart id) (hn : g.node? id = some ⟨name, .op o⟩)
  (hi : o.attributes.find? "infer" = none)
  (hv : Registry.standard.verdict o.kind (g.scene id name o.attributes) = .ok ws)
  (hk : g.Inferred (g.settle id ws) P id)

include hg ha hn hi hv hk

/-- Inferring an operation a second time writes nothing but its outputs. -/
lemma infers_self : ∃ ws', (g.settle id ws).Infers id o.kind ws' ∧
    ∀ p f, portFact p f ws' = portFact p f ws := by
  have ho : g.op? id = some o := op?_eq_some.2 ⟨name, hn⟩
  obtain ⟨o', ws', hn', hkind, hattr, hi', hv', hsame⟩ := verdict_self hg ha hn hi hv hk
  have hwf := hg.of_skeleton hk.skeleton
  have hunknown := (hk.resembles hg ha (.inr rfl) ho name o'.attributes).hasUnknownInput
  rw [hkind] at hv'
  have htaken : Attributes.taken o'.attributes ws' = o'.attributes :=
    Attributes.taken_again hi hv hattr hunknown hv'
  refine ⟨ws', ⟨⟨name, o', hn', hkind, hi', htaken, hv'⟩, ?_⟩, hsame⟩
  -- axes that would be counted now have been counted before
  by_contra hloud
  obtain ⟨d, hreads, a, f, cells, hshape, hf, -, hcounted, -⟩ :=
    (spares_settle hwf (ha.of_skeleton hk.skeleton) hn' hi' (hkind ▸ hv')).2.2.resolve_left hloud
  rw [hk.inputShape? hg ha ho] at hshape
  have hreads' := (hk.readsAxes_iff hg ha ho).1 hreads
  rcases (spares_settle hg ha hn hi hv).2.2 with hquiet
    | ⟨d', hreads₀, a₀, f₀, cells₀, hshape₀, -, hf₀,
    hcounted₀, -⟩
  · obtain ⟨e, he, hsrc, hdst, -⟩ := hreads'.edge
    rw [fact?_settle_of_quiet hg ho ha (fun e' he' hsrc' hdst' =>
      ha e' he' e he hsrc' hdst (hdst'.trans hsrc.symm)) hquiet] at hf
    exact hreads'.not_quiet hg hn hi hv hshape hf hcounted hquiet
  · obtain rfl := hreads'.eq_source hreads₀ hg
    obtain rfl := Option.some.inj (hshape.symm.trans hshape₀)
    obtain rfl := Option.some.inj (hf.symm.trans hf₀)
    exact hcounted₀.not_again hcounted

/-- The operation that was inferred upholds its outputs. -/
lemma upholds_self : (g.settle id ws).Upholds Q id := by
  have ho : g.op? id = some o := op?_eq_some.2 ⟨name, hn⟩
  obtain ⟨ws', hinfers, hsame⟩ := infers_self hg ha hn hi hv hk
  refine ⟨o.kind, ws', hinfers, fun e he hsrc f hf => .same ?_⟩
  rw [edges_of_skeleton hk.skeleton] at he
  rw [fact?_settle_out hg ho ha he hsrc] at hf
  obtain ⟨f₀, -, rfl⟩ := Option.map_eq_some_iff.1 hf
  rw [hsame, Registry.portFact_again hi hv]

end

/-! ### On the way through an order -/

lemma ReadsAxes.eq_reader {r : NodeId} (hr : g.ReadsAxes id d) (hr' : g.ReadsAxes r d) :
    id = r := by
  obtain ⟨e, he, hsrc, rfl, -⟩ := hr.edge
  obtain ⟨e', he', hsrc', rfl, -⟩ := hr'.edge
  rw [eq_of_unshared hr.lone he he' hsrc hsrc']

/-- A constant that was given axes writes them, and nothing else. -/
lemma infers_const {t : Tensor} (hn : g.node? id = some ⟨name, .op o⟩) (hkind : o.kind = "Const")
    (hi : o.attributes.find? "infer" = none)
    (hvalue : o.attributes.find? "value" = some (.tensor t))
    (hknown : (g.scene id name o.attributes).hasUnknownInput = false) :
    g.Infers id "Const" [.outputValue 0 t] := by
  refine ⟨⟨name, o, hn, hkind, hi, rfl, ?_⟩, by simp [Quiet, Write.puts]⟩
  rw [Registry.verdict_of_value hvalue hi, hknown]
  rfl

namespace Underway

variable {done rest : List NodeId}

section

variable (hg : g.Underway done (id :: rest)) (hn : g.node? id = some ⟨name, .op o⟩)
  (hv : Registry.standard.verdict o.kind (g.scene id name o.attributes) = .ok ws)

include hg hn

lemma fact?_settle_source (hj : j ∈ done) (hd : d ∈ g.sources j) (ws : List Write) :
    (g.settle id ws).fact? d = g.fact? d := by
  obtain ⟨e, he, rfl, hsrc⟩ := mem_sources.1 hd
  refine fact?_settle_of_reader hg.runnable.wellFormed (op?_eq_some.2 ⟨name, hn⟩)
    (fun e' he' hsrc' hdst => ?_) he hsrc (fun heq => ?_) ws
  · have hid := hg.closed _ (hg.closed _ hj hd) (mem_sources.2 ⟨e', he', hdst, hsrc'⟩)
    exact hg.ready.not_mem_done (List.mem_cons_self ..) hid
  · exact hg.ready.not_mem_done (List.mem_cons_self ..) (heq ▸ hj)

include hv

/-- Nothing behind reads what is written. -/
lemma inferred : g.Inferred (g.settle id ws) (· ∈ done) id := by
  have hi := hg.plain (List.mem_cons_self ..) (op?_eq_some.2 ⟨name, hn⟩)
  refine inferred_settle hg.runnable.wellFormed (hg.runnable.apart id) hn hi hv
    fun e he hsrc f hf => .inr (.inr fun e' he' hsrc' hmem => ?_)
  have hdst := hg.closed _ hmem (mem_sources.2 ⟨e', he', rfl, hsrc'⟩)
  exact hg.ready.not_mem_done (List.mem_cons_self ..)
    (hg.closed _ hdst (mem_sources.2 ⟨e, he, rfl, hsrc⟩))

/-- A constant that was given axes upholds its outputs, but for the first one if it was given them
on another one. -/
lemma upholds_const (hj : j ∈ done) (hu : g.Upholds (· ∈ done) j)
    (hconst : g.kind? j = some "Const") {e₀ : Edge} (he₀ : e₀ ∈ g.edges) (hsrc₀ : e₀.src = j)
    (hrephrased : g.Rephrased (g.settle id ws) id e₀.dst) :
    (g.settle id ws).Upholds (· ∈ id :: done) j := by
  have hwf := hg.runnable.wellFormed
  have hk := hg.inferred hn hv
  obtain ⟨hreads, a, f₀, cells, -, hf₀, hf', ⟨axes, -, -, -, haxes, -⟩, hstored⟩ := hrephrased
  obtain ⟨kind, ws', ⟨⟨name', o', hn', rfl, hi', -, hv'⟩, -⟩, hports⟩ := hu
  have ho' : g.op? j = some o' := op?_eq_some.2 ⟨name', hn'⟩
  obtain ⟨o'', hn'', hkind⟩ := exists_op_of_label hk.skeleton hn'
  have hkind' : o'.kind = "Const" := by
    rw [kind?, ho', Option.map_some] at hconst
    exact Option.some.inj hconst
  have hattr : o''.attributes = Attributes.store o'.attributes "value" (.tensor (.i64 cells)) := by
    have := hstored e₀ he₀ rfl (hsrc₀ ▸ hconst)
    rw [hsrc₀, attributes?_of_op? ho', attributes?_of_op? (op?_eq_some.2 ⟨name', hn''⟩)] at this
    exact Option.some.inj this
  have hunknown : (g.scene j name' o'.attributes).hasUnknownInput = false :=
    (hports e₀ he₀ hsrc₀ f₀ hf₀).hasUnknownInput hkind' hi' hv'
      (List.mem_map.2 ⟨e₀, mem_outgoing.2 ⟨he₀, hsrc₀⟩, rfl⟩) (haxes ▸ rfl)
  have hknown := ((hasUnknownInput_eq_false hwf ho' ..).1 hunknown).congr hk.skeleton
    fun d hd => hg.fact?_settle_source hn hj hd ws
  obtain ⟨g', hvalue, hequal⟩ := Attributes.find?_store_i64 o'.attributes "value" cells
  refine ⟨"Const", [.outputValue 0 (.i64 g')], infers_const hn'' (hkind.trans hkind') ?_ ?_ ?_,
    fun e he hsrc f hf => ?_⟩
  · rw [hattr, Attributes.find?_store_of_ne _ (by decide), hi']
  · rw [hattr]
    exact hvalue
  · exact (hasUnknownInput_eq_false (hwf.of_skeleton hk.skeleton)
      (op?_eq_some.2 ⟨name', hn''⟩) ..).2 hknown
  rw [edges_of_skeleton hk.skeleton] at he
  by_cases hport : e.out = 0
  · by_cases heq : e = e₀
    · subst heq
      obtain rfl := Option.some.inj (hf'.symm.trans hf)
      refine .same ?_
      rw [portFact_cons, portFact_nil, Write.tells, if_pos hport.symm]
      exact Fact.update_of_beq hequal
    · refine .stored rfl rfl hport (edges_of_skeleton hk.skeleton ▸ he₀) (hsrc₀.trans hsrc.symm)
        (Ne.symm heq) (List.mem_cons_self ..) ?_
      exact (hk.readsAxes_iff hwf (hg.runnable.apart id) (op?_eq_some.2 ⟨name, hn⟩)).2 hreads
  · refine .same ?_
    rw [portFact_cons, portFact_nil, Write.tells, if_neg fun h => hport h.symm]
    rfl

/-- An operation that is behind goes on to uphold its outputs. -/
lemma upholds_of_mem (hj : j ∈ done) (hu : g.Upholds (· ∈ done) j) :
    (g.settle id ws).Upholds (· ∈ id :: done) j := by
  have hwf := hg.runnable.wellFormed
  have ha := hg.runnable.apart id
  have ho : g.op? id = some o := op?_eq_some.2 ⟨name, hn⟩
  have hi := hg.plain (List.mem_cons_self ..) ho
  have hk := hg.inferred hn hv
  have hs := hk.skeleton
  have hne : j ≠ id := fun heq => hg.ready.not_mem_done (List.mem_cons_self ..) (heq ▸ hj)
  by_cases hstored : g.kind? j = some "Const" ∧
      ∃ e ∈ g.edges, e.src = j ∧ g.Rephrased (g.settle id ws) id e.dst
  · obtain ⟨hconst, e, he, hsrc, hrephrased⟩ := hstored
    exact hg.upholds_const hn hv hj hu hconst he hsrc hrephrased
  have hattr := (hk.attributes j hne).resolve_right hstored
  obtain ⟨kind, ws', hinfers, hports⟩ := hu
  refine ⟨kind, ws', hinfers.congr hwf hs hattr fun d hd => hg.fact?_settle_source hn hj hd ws,
    fun e he hsrc f hf => ?_⟩
  rw [edges_of_skeleton hs] at he
  obtain ⟨⟨name', o', hn', rfl, hi', -, hv'⟩, -⟩ := hinfers
  have ho' : g.op? j = some o' := op?_eq_some.2 ⟨name', hn'⟩
  obtain ⟨f₀, hf₀⟩ := ends_of_op_src hwf he (hsrc ▸ ho')
  rcases hk.fact e.dst fun e' he' hsrc' hdst => hne (by
      rw [← hsrc, eq_of_dst_eq hwf he he' hdst.symm hf₀, hsrc']) with hsame | hrephrased
  · exact (hports e he hsrc f (hsame ▸ hf)).congr hs (fun _ => List.mem_cons_of_mem id)
      (fun r hr d hd => hg.fact?_settle_source hn hr hd ws) hwf
  -- the operation is no constant, and writes the axes as they were, or not at all
  have hkind : o'.kind ≠ "Const" := fun hconst =>
    hstored ⟨by rw [kind?, ho', Option.map_some, hconst],
    e, he, hsrc, hrephrased⟩
  obtain ⟨hreads, a, f₁, cells, hshape, hf₁, hf', hcounted, -⟩ := hrephrased
  obtain rfl := Option.some.inj (hf'.symm.trans hf)
  rcases Registry.steady_verdict hi' hkind hv' e.out with hsilent | ⟨f₂, hsteady⟩
  · exact .same (hsilent _)
  cases hports e he hsrc f₁ hf₁ with
  | same hsame =>
    refine .counted hkind
      ⟨id, a, List.mem_cons_self .., (hk.readsAxes_iff hwf ha ho).2 hreads, ?_, ?_⟩
    · rw [hk.inputShape? hwf ha ho, hshape]
    · rwa [hsteady, ← hsteady f₁, hsame]
  | counted _ hcounts =>
    obtain ⟨r, -, hr, hreads', -⟩ := hcounts
    exact absurd (hreads.eq_reader hreads' ▸ hr) (hg.ready.not_mem_done (List.mem_cons_self ..))
  | stored hconst => exact absurd hconst hkind

end

/-- A visit adds an operation to those that uphold their outputs. -/
lemma upholds (hg : g.Underway done (id :: rest))
    (hu : ∀ j ∈ done, (g.op? j).isSome → g.Upholds (· ∈ done) j)
    (hk : Registry.standard.visit g id = .ok k) :
    ∀ j ∈ id :: done, (k.op? j).isSome → k.Upholds (· ∈ id :: done) j := by
  intro j hj hop
  rcases Registry.visit_eq_ok.1 hk with ⟨hnone, rfl⟩ | ⟨name, o, ws, hn, hv, rfl⟩
  · have hj : j ∈ done := (List.mem_cons.1 hj).resolve_left fun heq => by
      rw [heq, hnone] at hop
      cases hop
    exact (hu j hj hop).mono hg.runnable.wellFormed fun _ => List.mem_cons_of_mem id
  have hwf := hg.runnable.wellFormed
  have hskel := Registry.skeleton_visit hk
  refine Upholds.of_agrees ?_ (hwf.of_skeleton (skeleton_settle ws)) (agrees_unmark _ id)
  rcases List.mem_cons.1 hj with rfl | hj
  · exact upholds_self hwf (hg.runnable.apart j) hn
      (hg.plain (List.mem_cons_self ..) (op?_eq_some.2 ⟨name, hn⟩)) hv (hg.inferred hn hv)
  · exact hg.upholds_of_mem hn hv hj (hu j hj (isSome_op?_of_skeleton hskel j ▸ hop))

/-- **Upheld outputs**: a sweep leaves all operations that it passed with their outputs upheld. -/
theorem sweep_upholds (hg : g.Underway [] rest) (hk : Registry.standard.sweep g rest = .ok k)
    (hj : j ∈ rest) (hop : (k.op? j).isSome) : k.Upholds (fun _ => True) j := by
  have hu := hg.sweep_induct (I := fun done g => ∀ j ∈ done, (g.op? j).isSome →
    g.Upholds (· ∈ done) j) upholds (by simp) hk j (by simpa using hj) hop
  exact hu.mono (hg.runnable.wellFormed.of_skeleton (Registry.skeleton_sweep hk)) fun _ _ => trivial

end Underway

/-! ### Inferring an operation once more -/

/-- After all operations were inferred, all of them uphold their outputs. -/
lemma upholds_of_inferAll (hg : g.WellFormed) (hover : g.NoOverrides) {n : Nat}
    (hx : Gives Registry.standard.inferAll g n h) : ∃ l, h.evalOrder = .ok l ∧
      ∀ id, (h.op? id).isSome → h.Upholds (fun _ => True) id := by
  obtain ⟨m, l, k, hm, hl, hk, hh⟩ := sweep_of_inferAll Registry.local_standard hg hx
  have hwf := hg.of_skeleton hm.skeleton
  have hskel : k.skeleton = m.skeleton := Registry.skeleton_sweep hk
  refine ⟨l, evalOrder_of_skeleton (hh.skeleton.trans hskel) hl, fun id hop => ?_⟩
  replace hop : (k.op? id).isSome := isSome_op?_of_skeleton hh.skeleton id ▸ hop
  refine Upholds.of_agrees ?_ (hwf.of_skeleton hskel) hh
  refine (underway_of_evalOrder hwf (hover.of_agrees hm) hl).sweep_upholds hk ?_ hop
  obtain ⟨node, hnode, -⟩ := isSome_op?.1 (isSome_op?_of_skeleton hskel id ▸ hop)
  exact (ordered_of_evalOrder hl).mem.2 (hnode ▸ rfl)

/-- What is known of data after one operation of a graph was inferred once more: what was known; or
the axes that the operation derives, which the graph holds counted from the left; or, on the first
output of a constant that was given axes on another one, the value that it holds. -/
inductive Reinferred (h k : Graph) (id d : NodeId) : Prop
  | same : k.fact? d = h.fact? d → h.Reinferred k id d
  | recounted {e : Edge} {f f' : Fact} : h.kind? id ≠ some "Const" → e ∈ h.edges → e.src = id →
      e.dst = d → k.fact? d = some f → h.fact? d = some f' → f.shape = f'.shape →
      h.Counts (fun _ => True) d f f' → h.Reinferred k id d
  | stored {e e' : Edge} {r : NodeId} {a : Attributes} {t : Tensor} : h.kind? id = some "Const" →
      e ∈ h.edges → e.src = id → e.out = 0 → e.dst = d → e' ∈ h.edges → e'.src = id → e' ≠ e →
      h.ReadsAxes r e'.dst → h.attributes? id = some a → a.find? "value" = some (.tensor t) →
      k.fact? d = some (.ofValue t) → h.Reinferred k id d

/-- **Inferring an operation once more**: after all operations of a graph were inferred, inferring
one of them succeeds and changes no attribute, and no shape or value but for axes that an unsqueeze
has counted. -/
theorem inferNode_upheld (hg : g.WellFormed) (hover : g.NoOverrides) {n : Nat}
    (hx : Gives Registry.standard.inferAll g n h) (hop : (h.op? id).isSome) :
    ∃ changed k, Gives (Registry.standard.inferNode id) h changed k ∧ k.skeleton = h.skeleton ∧
      (∀ j, k.attributes? j = h.attributes? j) ∧ ∀ d, h.Reinferred k id d := by
  have hwf : h.WellFormed := hx.keeps (Registry.standard.keeps_inferAll_of unaffected_wellFormed) hg
  obtain ⟨l, hl, hupholds⟩ := upholds_of_inferAll hg hover hx
  have ha : h.Apart id := (Registry.runnable_of_evalOrder hwf hl).apart id
  obtain ⟨kind, ws, ⟨⟨name, o, hn, rfl, hi, htaken, hv⟩, hquiet⟩, hports⟩ := hupholds id hop
  have ho : h.op? id = some o := op?_eq_some.2 ⟨name, hn⟩
  obtain ⟨changed, k, hk, hlike, -⟩ := Registry.gives_of_visit Registry.local_standard hwf ho ha
    (Registry.visit_eq_ok.2 (.inr ⟨name, o, ws, hn, hv, rfl⟩))
  have hagree : k.Agrees (h.settle id ws) := hlike.agrees.trans (agrees_unmark _ id)
  refine ⟨changed, k, hk, hagree.skeleton.trans (skeleton_settle ws), fun j => ?_, fun d => ?_⟩
  · rw [hagree.attributes, attributes?_settle_of_quiet hquiet]
    split
    · next hj => rw [hj, attributes?_of_op? ho, Option.map_some, htaken]
    · rfl
  by_cases hout : ∃ e ∈ h.edges, e.src = id ∧ e.dst = d
  case neg =>
    refine .same ((hagree.fact d).trans (fact?_settle_of_quiet hwf ho ha ?_ hquiet))
    exact fun e he hsrc hdst => hout ⟨e, he, hsrc, hdst⟩
  obtain ⟨e, he, hsrc, rfl⟩ := hout
  obtain ⟨f, hf⟩ := ends_of_op_src hwf he (hsrc ▸ ho)
  have hfact : k.fact? e.dst = some (portFact e.out f ws) := by
    rw [hagree.fact, fact?_settle_out hwf ho ha he hsrc, hf, Option.map_some]
  have hkind : h.kind? id = some o.kind := kind?_eq_some.2 ⟨o, ho, rfl⟩
  cases hports e he hsrc f hf with
  | same hsame => exact .same (hfact.trans ((congrArg some hsame).trans hf.symm))
  | counted hconst hcounts =>
    refine .recounted (by simpa [hkind] using hconst) he hsrc rfl hfact hf ?_ hcounts
    obtain ⟨r, a, -, -, -, hcounted⟩ := hcounts
    exact hcounted.shape_eq (hcounted.shaped.written e.out ws)
  | @stored t e' r hconst hws hport he' hsrc' hne _ hreads =>
    subst hws
    replace hfact : k.fact? e.dst = some (f.update (.ofValue t)) := by
      rw [hfact, portFact_cons, portFact_nil, Write.tells, if_pos hport.symm]
      rfl
    unfold Fact.update at hfact
    split at hfact
    · exact .same (hfact.trans hf.symm)
    · exact .stored (hkind.trans (congrArg some hconst)) he hsrc hport rfl he'
        (hsrc'.trans hsrc) hne
        hreads (attributes?_of_op? ho) (Registry.value_of_verdict hi (hconst ▸ hv)) hfact

end Graph

/-- Unsqueezes of one input, with axes that an identity copies and with axes on the second output of
a constant. -/
def copiedAxes : Edit Unit := do
  let x ← addParameter "x" [2, 3]
  let last ← addConst "last" (.ofInts [-1])
  let copy ← wire "copy" (.ofKind "Identity") [last]
  discard (wire "y" (.ofKind "Unsqueeze") [x, copy])
  let (both, _) ← addOpWithData "both"
    ((Operation.ofKind "Const").withAttribute "value" (.tensor (.ofInts [-1])))
  let axes ← addData "axes" (.ofValue (.ofInts [-1]))
  discard (addEdge both axes 1 0)
  discard (wire "z" (.ofKind "Unsqueeze") [x, axes])

/-- The identity is inferred once more. -/
theorem inferNode_upheld_copiedAxes :
    let g := (copiedAxes.run ∅).graph
    let h := (Registry.standard.inferAll.run g).graph
    g.WellFormed ∧ g.NoOverrides ∧ Gives Registry.standard.inferAll g 6 h ∧ (h.op? ⟨4⟩).isSome ∧
      ∃ changed k, Gives (Registry.standard.inferNode ⟨4⟩) h changed k ∧ k.skeleton = h.skeleton ∧
        (∀ j, k.attributes? j = h.attributes? j) ∧ ∀ d, h.Reinferred k ⟨4⟩ d := by
  intro g h
  have hg : g.WellFormed := by decide +kernel
  have hover : g.NoOverrides := by decide +kernel
  have hx : Gives Registry.standard.inferAll g 6 h := ⟨toOption_eq_some.1 (by decide +kernel), rfl⟩
  have hop : (h.op? ⟨4⟩).isSome := by decide +kernel
  exact ⟨hg, hover, hx, hop, Graph.inferNode_upheld hg hover hx hop⟩

/-- Inferred once more, the identity copies the axis that is counted from the right, and the
constant writes the one that is counted from the left to its first output. -/
theorem inferNode_copiedAxes :
    let g := (copiedAxes.run ∅).graph
    let h := (Registry.standard.inferAll.run g).graph
    let k := ((Registry.standard.inferNode ⟨4⟩).run h).graph
    let k' := ((Registry.standard.inferNode ⟨8⟩).run h).graph
    g.WellFormed ∧ g.NoOverrides ∧ Gives Registry.standard.inferAll g 6 h ∧
      Gives (Registry.standard.inferNode ⟨4⟩) h [⟨5⟩] k ∧
      (h.fact? ⟨5⟩).map (·.value.map (·.toInts)) = some (some [2]) ∧
      (k.fact? ⟨5⟩).map (·.value.map (·.toInts)) = some (some [-1]) ∧
      Gives (Registry.standard.inferNode ⟨8⟩) h [⟨9⟩] k' ∧
      (h.fact? ⟨9⟩).map (·.value.map (·.toInts)) = some (some [-1]) ∧
      (k'.fact? ⟨9⟩).map (·.value.map (·.toInts)) = some (some [2]) := by
  intro g h k k'
  have hover : g.NoOverrides := by decide +kernel
  have hx : Gives Registry.standard.inferAll g 6 h := ⟨toOption_eq_some.1 (by decide +kernel), rfl⟩
  have hcopy : Gives (Registry.standard.inferNode ⟨4⟩) h [⟨5⟩] k :=
    ⟨toOption_eq_some.1 (by decide +kernel), rfl⟩
  have hboth : Gives (Registry.standard.inferNode ⟨8⟩) h [⟨9⟩] k' :=
    ⟨toOption_eq_some.1 (by decide +kernel), rfl⟩
  exact ⟨by decide +kernel, hover, hx, hcopy, by decide +kernel, by decide +kernel, hboth,
    by decide +kernel, by decide +kernel⟩

end TensorGraph
