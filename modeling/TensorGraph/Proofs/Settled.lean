import TensorGraph.Proofs.Effects
import TensorGraph.Proofs.Rewrites
import TensorGraph.Proofs.Sweeps

/-!
Graphs that inference leaves as they are.

`Graph.Settled` says that inferring all operations changes no attribute, shape or value. It does not
say that no step on the way does: a constant may write its value to its output and the operation
that reads it may write over both. Where axes come from constants this cannot be: a value once
written over is natural and stays so (`HoldsNatural.settle`), and the one before it was not. So
every operation of a settled graph is `Idle`: what it writes is there already (`Settled.idle`).
-/

namespace TensorGraph

namespace Graph

variable {g h k : Graph} {id op j c d : NodeId} {o : Operation} {s : Scene} {ws : List Write}

/-! ### What quiet writes leave -/

lemma attributes?_absorb_of_quiet {w : Write} (hw : ∀ p, w.puts p = none) :
    (g.absorb op w).attributes? j =
      if j = op then (g.attributes? op).map (Attributes.taken · [w]) else g.attributes? j := by
  have hnone : g.attributes? j = if j = op then (g.attributes? op).map (Attributes.taken · [])
      else g.attributes? j := by
    rw [show (g.attributes? op).map (Attributes.taken · []) = g.attributes? op from
      Option.map_id' ..]
    split
    · next hj => rw [hj]
    · rfl
  cases w with
  | attr name value => exact attributes?_store ..
  | inputValue p value => simp [Write.puts] at hw
  | outputShape p shape => exact (attributes?_writeOut _).trans hnone
  | outputValue p value => exact (attributes?_writeOut _).trans hnone
  | outputUnknown p => exact (attributes?_writeOut _).trans hnone

lemma attributes?_settle_of_quiet (hws : Quiet ws) : (g.settle op ws).attributes? j =
    if j = op then (g.attributes? op).map (Attributes.taken · ws) else g.attributes? j := by
  induction ws generalizing g with
  | nil =>
    rw [show (g.attributes? op).map (Attributes.taken · []) = g.attributes? op from
      Option.map_id' ..]
    show g.attributes? j = _
    split
    · next hj => rw [hj]
    · rfl
  | cons w ws ih =>
    have hw : ∀ i, (g.absorb op w).attributes? i =
        if i = op then (g.attributes? op).map (Attributes.taken · [w]) else g.attributes? i :=
      fun _ => attributes?_absorb_of_quiet (hws w (List.mem_cons_self ..))
    show ((g.absorb op w).settle op ws).attributes? j = _
    rw [ih fun w' hw' => hws w' (List.mem_cons_of_mem w hw'), hw op, if_pos rfl, Option.map_map]
    split
    · rfl
    · next hj => rw [hw j, if_neg hj]

/-- Data that the operation does not write. -/
lemma fact?_settle_of_quiet (hg : g.WellFormed) (ho : g.op? op = some o) (ha : g.Apart op)
    (hd : ∀ e ∈ g.edges, e.src = op → e.dst ≠ d) (hws : Quiet ws) :
    (g.settle op ws).fact? d = g.fact? d := by
  by_cases hin : ∃ e ∈ g.edges, e.dst = op ∧ e.src = d
  · obtain ⟨e, he, hdst, rfl⟩ := hin
    have hsame : (g.fact? e.src).map (inFact e.inp · ws) = g.fact? e.src := by
      rw [show (inFact e.inp · ws) = id from funext fun f => hws.inFact e.inp f, Option.map_id, id]
    rw [fact?_settle_in hg ho ha he hdst, hsame, ite_self]
  · exact fact?_settle_of_forall hg ho hd (fun e he hdst hsrc => hin ⟨e, he, hdst, hsrc⟩) ws

/-- Operations other than constants keep their attributes when another one is inferred. -/
lemma attributes?_settle_of_ne (hj : j ≠ op) (hk : g.kind? j ≠ some "Const") :
    (g.settle op ws).attributes? j = g.attributes? j := by
  refine attributes?_settle_of_not_feeding hj (fun p hfeeds => hk ?_) ws
  obtain ⟨d, -, hd⟩ := Option.bind_eq_some_iff.1 hfeeds
  split at hd
  · cases hd
  · simpa using (Option.filter_eq_some_iff.1 hd).2

/-! ### Constants with natural values -/

/-- The constant holds a value without negative elements. -/
def HoldsNatural (g : Graph) (c : NodeId) : Prop :=
  ∃ a t, g.attributes? c = some a ∧ a.find? "value" = some (.tensor t) ∧ t.Natural

lemma HoldsNatural.of_attributes (h : g.HoldsNatural c)
    (ha : k.attributes? c = g.attributes? c) : k.HoldsNatural c := by
  obtain ⟨a, t, hc, ht, hnat⟩ := h
  exact ⟨a, t, ha.trans hc, ht, hnat⟩

/-- A constant that feeds axes holds natural ones once they are written over. -/
lemma holdsNatural_of_feeder (hf : g.feeder? op 1 = some c) (hc : c ≠ op) {a : Attributes}
    (ha : g.attributes? c = some a) {cells : Grid Int64} (hcells : (Tensor.i64 cells).Natural)
    (hws : Quiet ws) : (g.settle op (.inputValue 1 (.i64 cells) :: ws)).HoldsNatural c := by
  obtain ⟨g', hvalue, hequal⟩ := a.find?_store_i64 "value" cells
  refine ⟨_, _, ?_, hvalue, fun i hi => hcells i (Tensor.toInts_of_beq hequal ▸ hi)⟩
  show ((g.absorb op (.inputValue 1 (.i64 cells))).settle op ws).attributes? c = _
  rw [attributes?_settle_of_quiet hws, if_neg hc]
  show (g.writeIn op 1 (.i64 cells)).attributes? c = _
  rw [attributes?_writeIn, if_pos hf, ha]
  rfl

/-- A constant that holds a natural value holds one after another operation is inferred. -/
lemma HoldsNatural.settle (h : g.HoldsNatural c) (hc : c ≠ op) (hws : Quiet ws ∨ Renumbers s ws) :
    (g.settle op ws).HoldsNatural c := by
  rcases hws with hws | @⟨axes, cells, ws, -, -, -, hcells, hws⟩
  · refine h.of_attributes ?_
    rw [attributes?_settle_of_quiet hws, if_neg hc]
  · by_cases hf : g.feeder? op 1 = some c
    · obtain ⟨a, -, ha, -⟩ := h
      exact holdsNatural_of_feeder hf hc ha hcells hws
    · refine h.of_attributes ?_
      show ((g.absorb op (.inputValue 1 (.i64 cells))).settle op ws).attributes? c = _
      rw [attributes?_settle_of_quiet hws, if_neg hc]
      exact (attributes?_writeIn _).trans (if_neg hf)

/-! ### Axes -/

/-- Axes come from constants if from anything. -/
def ConstantAxes (g : Graph) : Prop :=
  ∀ e ∈ g.edges, g.kind? e.dst = some "Unsqueeze" → e.inp = 1 →
    ∀ e' ∈ g.edges, e'.dst = e.src → g.kind? e'.src = some "Const"

instance : Decidable g.ConstantAxes :=
  inferInstanceAs (Decidable (∀ e ∈ g.edges, g.kind? e.dst = some "Unsqueeze" → e.inp = 1 →
    ∀ e' ∈ g.edges, e'.dst = e.src → g.kind? e'.src = some "Const"))

lemma ConstantAxes.of_skeleton (hs : h.skeleton = g.skeleton) (hg : g.ConstantAxes) :
    h.ConstantAxes := by
  unfold ConstantAxes
  simp only [edges_of_skeleton hs, kind?_of_skeleton hs]
  exact hg

/-- The data held a value with negative elements, and the constants it comes from now hold natural
values. -/
def Outdated (g h : Graph) (d : NodeId) : Prop :=
  ∃ f axes, g.fact? d = some f ∧ f.value = some axes ∧ ¬axes.Natural ∧
    ∀ e ∈ g.edges, e.dst = d → g.kind? e.src = some "Const" ∧ h.HoldsNatural e.src

/-- The axes that are written over. -/
lemma fact?_settle_of_renumbers {name : String} (hg : g.WellFormed) (ho : g.op? op = some o)
    (ha : g.Apart op) {attributes : Attributes}
    (hws : Renumbers (g.scene op name attributes) ws) :
    ∃ e ∈ g.edges, e.dst = op ∧ e.inp = 1 ∧ (g.outgoing e.src).length ≤ 1 ∧
      (∃ f axes, g.fact? e.src = some f ∧ f.value = some axes ∧ ¬axes.Natural) ∧
      ∃ f t, (g.settle op ws).fact? e.src = some f ∧ f.value = some t ∧ t.Natural := by
  obtain @⟨axes, cells, ws, haxes, hshared, hnot, hcells, hquiet⟩ := hws
  obtain ⟨f, hf, hvalue⟩ := Scene.inputValue_eq_ok.1 haxes
  rw [scene_inputFact ho] at hf
  replace hshared : g.inputIsShared op 1 = .ok false := hshared
  rw [inputIsShared_eq hg ho] at hshared
  rcases hd : g.inSource op 1 with _ | d
  · rw [hd] at hf
    cases hf
  rw [hd] at hf hshared
  rw [fact_eq_ok] at hf
  obtain ⟨e, he, hdst, hinp, rfl⟩ := (inSource_eq_some hg).1 hd
  have hl : (g.outgoing e.src).length ≤ 1 := by simpa using hshared
  have hupdate : f.update (.ofValue (.i64 cells)) = .ofValue (.i64 cells) := by
    refine Fact.update_of_toInts_ne hvalue fun heq => hnot ?_
    unfold Tensor.Natural
    rw [heq]
    exact hcells
  refine ⟨e, he, hdst, hinp, hl, ⟨f, axes, hf, hvalue, hnot⟩, f.update
    (.ofValue (.i64 cells)), _, ?_,
    congrArg Fact.value hupdate, hcells⟩
  rw [fact?_settle_in hg ho ha he hdst, if_pos hl, hf, hinp, Option.map_some]
  exact congrArg some (hquiet.inFact 1 _)

/-- What inferring an operation does to data that it does not write: nothing, or the data held axes
that it counts from the left now. -/
lemma fact?_settle_or_outdated {name : String} (hg : g.WellFormed)
    (hn : g.node? op = some ⟨name, .op o⟩) (ha : g.Apart op) (hax : g.ConstantAxes)
    (hi : o.attributes.find? "infer" = none)
    (hv : Registry.standard.verdict o.kind (g.scene op name o.attributes) = .ok ws)
    (hd : ∀ e ∈ g.edges, e.src = op → e.dst ≠ d) :
    (g.settle op ws).fact? d = g.fact? d ∨ g.Outdated (g.settle op ws) d := by
  have ho : g.op? op = some o := op?_eq_some.2 ⟨name, hn⟩
  rcases Registry.quiet_or_renumbers hi hv with hquiet | ⟨hkind, hrenum⟩
  · exact Or.inl (fact?_settle_of_quiet hg ho ha hd hquiet)
  obtain ⟨e, he, hdst, hinp, hl, ⟨f, axes, hf, hvalue, hnot⟩, -⟩ :=
    fact?_settle_of_renumbers hg ho ha hrenum
  by_cases hed : e.src = d
  · subst hed
    refine Or.inr ⟨f, axes, hf, hvalue, hnot, fun e' he' hdst' => ?_⟩
    have hconst := hax e he (by rw [hdst, kind?, ho, Option.map_some, hkind]) hinp e' he' hdst'
    refine ⟨hconst, ?_⟩
    obtain ⟨c, hc, -⟩ := kind?_eq_some.1 hconst
    obtain @⟨axes, cells, ws, -, -, -, hcells, hquiet⟩ := hrenum
    exact holdsNatural_of_feeder ((feeder?_eq_some hg ho).2 ⟨e, he, hdst, hinp, hl, hconst, e', he',
      hdst', rfl⟩) (fun heq => hd e' he' heq hdst') (attributes?_of_op? hc) hcells hquiet
  · -- the other inputs are left as they are
    refine Or.inl ?_
    obtain @⟨axes, cells, ws, -, -, -, hcells, hquiet⟩ := hrenum
    have hs : (g.absorb op (.inputValue 1 (.i64 cells))).skeleton = g.skeleton := skeleton_absorb _
    obtain ⟨o', ho'⟩ := exists_op?_of_skeleton hs ho
    show ((g.absorb op (.inputValue 1 (.i64 cells))).settle op ws).fact? d = _
    rw [fact?_settle_of_quiet (hg.of_skeleton hs) ho' (ha.of_skeleton hs)
      (edges_of_skeleton hs ▸ hd) hquiet]
    show (g.writeIn op 1 _).fact? d = _
    rw [fact?_writeIn, if_neg]
    rintro ⟨hin, -⟩
    obtain ⟨e₁, he₁, hdst₁, hinp₁, hsrc₁⟩ := (inSource_eq_some hg).1 hin
    obtain rfl := hg.inp_unique he he₁ (hdst.trans hdst₁.symm) (hinp.trans hinp₁.symm)
    exact hed hsrc₁

/-! ### On the way through an order -/

/-- A graph on the way through an order, with `done` behind and `rest` ahead, where the operations
name no rules of their own. -/
structure Underway (done rest : List NodeId) (g : Graph) : Prop where
  runnable : Registry.Runnable g
  ready : g.Ready done rest
  closed : ∀ i ∈ done, g.sources i ⊆ done
  plain : ∀ {id : NodeId} {o : Operation}, id ∈ rest → g.op? id = some o →
    o.attributes.find? "infer" = none

namespace Underway

variable {done rest : List NodeId}

lemma of_agrees (hg : g.Underway done rest) (ha : h.Agrees g) : h.Underway done rest where
  runnable := hg.runnable.of_skeleton ha.skeleton
  ready := hg.ready.congr (sources_of_skeleton ha.skeleton)
  closed := by
    simp only [sources_of_skeleton ha.skeleton]
    exact hg.closed
  plain := by
    intro id o hid ho
    obtain ⟨o', ho', heq⟩ := exists_op_of_attributes (ha.attributes id) ho
    rw [heq]
    exact hg.plain hid ho'

/-- A node is left behind. -/
lemma step (hg : g.Underway done (id :: rest)) (hs : k.skeleton = g.skeleton)
    (hop : ∀ j ∈ rest, k.attributes? j = g.attributes? j) : k.Underway (id :: done) rest where
  runnable := hg.runnable.of_skeleton hs
  ready := hg.ready.2.2.congr (sources_of_skeleton hs)
  closed := by
    intro i hi
    rw [sources_of_skeleton hs]
    rcases List.mem_cons.1 hi with rfl | hi
    · exact List.subset_cons_of_subset _ hg.ready.2.1
    · exact List.subset_cons_of_subset _ (hg.closed i hi)
  plain := by
    intro j o hj ho
    obtain ⟨o', ho', heq⟩ := exists_op_of_attributes (hop j hj) ho
    rw [heq]
    exact hg.plain (List.mem_cons_of_mem id hj) ho'

lemma attributes_ahead (hg : g.Underway done (id :: rest)) (hj : j ∈ rest) (ws : List Write) :
    (g.settle id ws).attributes? j = g.attributes? j :=
  attributes?_congr (op?_settle_of_later hg.ready hg.closed hg.runnable.wellFormed hj ws)

lemma visit (hg : g.Underway done (id :: rest)) (hk : Registry.standard.visit g id = .ok k) :
    k.Underway (id :: done) rest := by
  refine hg.step (Registry.skeleton_visit hk) fun j hj => ?_
  rcases Registry.visit_eq_ok.1 hk with ⟨-, rfl⟩ | ⟨name, o, ws, -, -, rfl⟩
  · rfl
  · rw [attributes?_unmark, hg.attributes_ahead hj]

end Underway

lemma NoOverrides.of_agrees (hover : g.NoOverrides) (ha : h.Agrees g) : h.NoOverrides := by
  intro id o ho
  obtain ⟨o', ho', heq⟩ := exists_op_of_attributes (ha.attributes id) ho
  rw [heq]
  exact hover ho'

/-- The start of an evaluation order. -/
lemma underway_of_evalOrder (hg : g.WellFormed) (hover : g.NoOverrides) {l : List NodeId}
    (hl : g.evalOrder = .ok l) : g.Underway [] l where
  runnable := Registry.runnable_of_evalOrder hg hl
  ready := (ordered_of_evalOrder hl).ready
  closed := by simp
  plain _ ho := hover ho

/-- A graph on the way through an order, where axes come from constants. -/
structure Midway (done rest : List NodeId) (g : Graph) : Prop extends Underway done rest g where
  axes : g.ConstantAxes

namespace Midway

variable {done rest : List NodeId}

lemma of_agrees (hg : g.Midway done rest) (ha : h.Agrees g) : h.Midway done rest :=
  ⟨hg.toUnderway.of_agrees ha, hg.axes.of_skeleton ha.skeleton⟩

lemma step (hg : g.Midway done (id :: rest)) (hs : k.skeleton = g.skeleton)
    (hop : ∀ j ∈ rest, k.attributes? j = g.attributes? j) : k.Midway (id :: done) rest :=
  ⟨hg.toUnderway.step hs hop, hg.axes.of_skeleton hs⟩

lemma visit (hg : g.Midway done (id :: rest)) (hk : Registry.standard.visit g id = .ok k) :
    k.Midway (id :: done) rest :=
  ⟨hg.toUnderway.visit hk, hg.axes.of_skeleton (Registry.skeleton_visit hk)⟩

/-- Constants behind that hold natural values go on to. -/
lemma sweep_natural (hg : g.Midway done rest) (hk : Registry.standard.sweep g rest = .ok k)
    (hc : c ∉ rest) (hnat : g.HoldsNatural c) : k.HoldsNatural c := by
  induction rest generalizing g done with
  | nil =>
    cases hk
    exact hnat
  | cons id rest ih =>
    obtain ⟨h, hh, hk⟩ := Registry.sweep_cons_eq_ok.1 hk
    refine ih (hg.visit hh) hk (fun hmem => hc (List.mem_cons_of_mem id hmem)) ?_
    rcases Registry.visit_eq_ok.1 hh with ⟨-, rfl⟩ | ⟨name, o, ws, hn, hv, rfl⟩
    · exact hnat
    · have hi := hg.plain (List.mem_cons_self ..) (op?_eq_some.2 ⟨name, hn⟩)
      have hws := (Registry.quiet_or_renumbers hi hv).imp_right And.right
      refine (hnat.settle (fun heq => hc (heq ▸ List.mem_cons_self ..)) hws).of_attributes ?_
      exact attributes?_unmark id

/-- Data behind keep what is known of them, unless they were outdated. -/
lemma sweep_fact (hg : g.Midway done rest) (hk : Registry.standard.sweep g rest = .ok k)
    (hd : ∀ e ∈ g.edges, e.dst = d → e.src ∉ rest) :
    k.fact? d = g.fact? d ∨ g.Outdated k d := by
  induction rest generalizing g done with
  | nil =>
    cases hk
    exact Or.inl rfl
  | cons id rest ih =>
    obtain ⟨h, hh, hk⟩ := Registry.sweep_cons_eq_ok.1 hk
    have hs := Registry.skeleton_visit hh
    have hrest := ih (hg.visit hh) hk fun e he hdst hmem =>
      hd e (edges_of_skeleton hs ▸ he) hdst (List.mem_cons_of_mem id hmem)
    have hfirst : h.fact? d = g.fact? d ∨ g.Outdated h d := by
      rcases Registry.visit_eq_ok.1 hh with ⟨-, rfl⟩ | ⟨name, o, ws, hn, hv, rfl⟩
      · exact Or.inl rfl
      · have hi := hg.plain (List.mem_cons_self ..) (op?_eq_some.2 ⟨name, hn⟩)
        rw [fact?_unmark]
        refine (fact?_settle_or_outdated hg.runnable.wellFormed hn (hg.runnable.apart id) hg.axes hi
          hv fun e he hsrc hdst => hd e he hdst (hsrc ▸ List.mem_cons_self ..)).imp_right ?_
        rintro ⟨f, axes, hf, hvalue, hnot, hfeed⟩
        refine ⟨f, axes, hf, hvalue, hnot, fun e he hdst => ⟨(hfeed e he hdst).1, ?_⟩⟩
        exact (hfeed e he hdst).2.of_attributes (attributes?_unmark id)
    rcases hfirst with hsame | ⟨f, axes, hf, hvalue, hnot, hfeed⟩
    · rcases hrest with hrest | ⟨f, axes, hf, hvalue, hnot, hfeed⟩
      · exact Or.inl (hrest.trans hsame)
      · rw [edges_of_skeleton hs] at hfeed
        simp only [kind?_of_skeleton hs] at hfeed
        exact Or.inr ⟨f, axes, hsame ▸ hf, hvalue, hnot, hfeed⟩
    · -- the constants behind the data hold natural values from now on
      refine Or.inr ⟨f, axes, hf, hvalue, hnot, fun e he hdst => ⟨(hfeed e he hdst).1, ?_⟩⟩
      refine (hg.visit hh).sweep_natural hk (fun hmem => ?_) (hfeed e he hdst).2
      exact hd e he hdst (List.mem_cons_of_mem id hmem)

/-- Operations behind that are no constants keep their attributes. -/
lemma sweep_attributes (hk : Registry.standard.sweep g rest = .ok k) (hj : j ∉ rest)
    (hc : g.kind? j ≠ some "Const") : k.attributes? j = g.attributes? j := by
  induction rest generalizing g with
  | nil =>
    cases hk
    rfl
  | cons id rest ih =>
    obtain ⟨h, hh, hk⟩ := Registry.sweep_cons_eq_ok.1 hk
    rw [ih hk (fun hmem => hj (List.mem_cons_of_mem id hmem))
      ((kind?_of_skeleton (Registry.skeleton_visit hh) j).symm ▸ hc)]
    rcases Registry.visit_eq_ok.1 hh with ⟨-, rfl⟩ | ⟨name, o, ws, hn, hv, rfl⟩
    · rfl
    · have hne : j ≠ id := by
        rintro rfl
        exact hj (List.mem_cons_self ..)
      rw [attributes?_unmark, attributes?_settle_of_ne hne hc]

end Midway

/-! ### Idle operations -/

/-- What the operation writes is there already, and its inputs are left as they are. -/
def Idle (g : Graph) (id : NodeId) : Prop :=
  ∃ name o ws, g.node? id = some ⟨name, .op o⟩ ∧
    Registry.standard.verdict o.kind (g.scene id name o.attributes) = .ok ws ∧ Quiet ws ∧
    Attributes.taken o.attributes ws = o.attributes ∧
    ∀ e ∈ g.edges, e.src = id → ∀ f, g.fact? e.dst = some f → portFact e.out f ws = f

/-- Whether an operation is idle depends on its attributes and on what is known of its inputs and
outputs. -/
lemma Idle.congr (h : g.Idle id) (hg : g.WellFormed) (hs : k.skeleton = g.skeleton)
    (ha : k.attributes? id = g.attributes? id)
    (hin : ∀ d ∈ g.sources id, k.fact? d = g.fact? d)
    (hout : ∀ e ∈ g.edges, e.src = id → k.fact? e.dst = g.fact? e.dst) : k.Idle id := by
  obtain ⟨name, o, ws, hn, hv, hquiet, htaken, hports⟩ := h
  have ho : g.op? id = some o := op?_eq_some.2 ⟨name, hn⟩
  obtain ⟨o', hn', hkind, hattr⟩ := exists_op_of_skeleton hs ha hn
  refine ⟨name, o', ws, hn', ?_, hquiet, by rw [hattr, htaken], fun e he hsrc f hf => ?_⟩
  · rw [hkind, hattr, scene_congr hg hs ho fun p d hd => hin d ?_]
    · exact hv
    · obtain ⟨e, he, hdst, -, hsrc⟩ := (inSource_eq_some hg).1 hd
      exact mem_sources.2 ⟨e, he, hdst, hsrc⟩
  · rw [edges_of_skeleton hs] at he
    exact hports e he hsrc f (hout e he hsrc ▸ hf)

lemma Idle.of_agrees (h : g.Idle id) (hg : g.WellFormed) (ha : k.Agrees g) : k.Idle id :=
  h.congr hg ha.skeleton (ha.attributes id) (fun d _ => ha.fact d) fun _ _ _ => ha.fact _

/-- Inferring an idle operation changes neither attributes nor facts. -/
lemma agrees_settle_of_idle (hg : g.WellFormed) (ho : g.op? id = some o) (ha : g.Apart id)
    (hquiet : Quiet ws) (htaken : Attributes.taken o.attributes ws = o.attributes)
    (hports : ∀ e ∈ g.edges, e.src = id → ∀ f, g.fact? e.dst = some f → portFact e.out f ws = f) :
    (g.settle id ws).Agrees g where
  skeleton := skeleton_settle ws
  attributes j := by
    rw [attributes?_settle_of_quiet hquiet]
    split
    · next hj => rw [hj, attributes?_of_op? ho, Option.map_some, htaken]
    · rfl
  fact d := by
    by_cases hout : ∃ e ∈ g.edges, e.src = id ∧ e.dst = d
    · obtain ⟨e, he, hsrc, rfl⟩ := hout
      obtain ⟨f, hf⟩ := ends_of_op_src hg he (hsrc ▸ ho)
      rw [fact?_settle_out hg ho ha he hsrc, hf, Option.map_some, hports e he hsrc f hf]
    · exact fact?_settle_of_quiet hg ho ha (fun e he hsrc hdst => hout ⟨e, he, hsrc, hdst⟩) hquiet

lemma Idle.visit (h : g.Idle id) (hg : g.WellFormed) (ha : g.Apart id) :
    ∃ k, Registry.standard.visit g id = .ok k ∧ k.Agrees g := by
  obtain ⟨name, o, ws, hn, hv, hquiet, htaken, hports⟩ := h
  refine ⟨_, Registry.visit_eq_ok.2 (Or.inr ⟨name, o, ws, hn, hv, rfl⟩), ?_⟩
  exact (agrees_unmark _ id).trans
    (agrees_settle_of_idle hg (op?_eq_some.2 ⟨name, hn⟩) ha hquiet htaken hports)

/-! ### Settled graphs -/

/-- An operation of a graph that a sweep leaves as it is was idle when the sweep came to it. -/
lemma Midway.idle_head {done rest : List NodeId} (hg : g.Midway done (id :: rest))
    (hop : (g.op? id).isSome) (hk : Registry.standard.sweep g (id :: rest) = .ok k)
    (ha : k.Agrees g) : g.Idle id := by
  obtain ⟨h, hh, hk⟩ := Registry.sweep_cons_eq_ok.1 hk
  have hmid := hg.visit hh
  rcases Registry.visit_eq_ok.1 hh with ⟨hnone, -⟩ | ⟨name, o, ws, hn, hv, rfl⟩
  · rw [hnone] at hop
    cases hop
  have ho : g.op? id = some o := op?_eq_some.2 ⟨name, hn⟩
  have hwf := hg.runnable.wellFormed
  have hapart := hg.runnable.apart id
  have hi := hg.plain (List.mem_cons_self ..) ho
  have hid : id ∉ rest := (List.nodup_cons.1 hg.ready.nodup).1
  have hskel : ((g.settle id ws).unmark id).skeleton = g.skeleton := Registry.skeleton_visit hh
  -- data that nothing ahead writes end as they are now, unless they are outdated
  have hfinal : ∀ d, (∀ e ∈ g.edges, e.dst = d → e.src ∉ rest) →
      (g.settle id ws).fact? d = g.fact? d ∨ (g.settle id ws).Outdated k d := by
    intro d hd
    have := hmid.sweep_fact hk (edges_of_skeleton hskel ▸ hd)
    rw [fact?_unmark, ha.fact] at this
    refine this.imp Eq.symm ?_
    rintro ⟨f, axes, hf, hvalue, hnot, hfeed⟩
    rw [fact?_unmark] at hf
    rw [edges_of_skeleton (skeleton_unmark _ id)] at hfeed
    simp only [kind?_of_skeleton (skeleton_unmark _ id)] at hfeed
    exact ⟨f, axes, hf, hvalue, hnot, hfeed⟩
  have hquiet : Quiet ws := by
    rcases Registry.quiet_or_renumbers hi hv with hquiet | ⟨-, hrenum⟩
    · exact hquiet
    -- axes written over would not have been left as they were
    obtain ⟨e, he, hdst, -, -, ⟨f, axes, hf, hvalue, hnot⟩, f', t, hf', hvalue', hnat⟩ :=
      fact?_settle_of_renumbers hwf ho hapart hrenum
    have hbehind : e.src ∈ done := hg.ready.2.1 (mem_sources.2 ⟨e, he, hdst, rfl⟩)
    rcases hfinal e.src fun e' he' hdst' hmem => hg.ready.not_mem_done
        (List.mem_cons_of_mem id hmem) (hg.closed _ hbehind (mem_sources.2 ⟨e', he', hdst', rfl⟩))
      with hsame | ⟨f₁, axes₁, hf₁, hvalue₁, hnot₁, -⟩
    · rw [hf', hf] at hsame
      cases hsame
      cases hvalue.symm.trans hvalue'
      exact absurd hnat hnot
    · cases hf'.symm.trans hf₁
      cases hvalue'.symm.trans hvalue₁
      exact absurd hnat hnot₁
  refine ⟨name, o, ws, hn, hv, hquiet, ?_, fun e he hsrc f hf => ?_⟩
  · by_cases hc : o.kind = "Const"
    · rw [hc] at hv
      exact Attributes.taken_const hi hv
    · have hkind : ((g.settle id ws).unmark id).kind? id ≠ some "Const" := by
        rw [kind?_of_skeleton hskel, kind?, ho]
        simpa using hc
      have hattr := Midway.sweep_attributes hk hid hkind
      rw [ha.attributes, attributes?_unmark, attributes?_settle_of_quiet hquiet, if_pos rfl,
        attributes?_of_op? ho] at hattr
      exact (Option.some.inj hattr).symm
  · have hout := fact?_settle_out hwf ho hapart he hsrc ws
    rw [hf, Option.map_some] at hout
    rcases hfinal e.dst fun e' he' hdst hmem => hid (by
        rwa [eq_of_dst_eq hwf he' he hdst (hdst ▸ hf), hsrc] at hmem)
      with hsame | ⟨f₁, axes, hf₁, hvalue, hnot, hfeed⟩
    · rw [hout, hf] at hsame
      exact Option.some.inj hsame
    -- a value written over later was the constant's own, and the constant still holds it
    rw [edges_of_skeleton (skeleton_settle ws)] at hfeed
    obtain ⟨hconst, hnat⟩ := hfeed e he rfl
    rw [hsrc, kind?_of_skeleton (skeleton_settle ws), kind?, ho] at hconst
    have hkind : o.kind = "Const" := Option.some.inj hconst
    rw [hkind] at hv
    cases hout.symm.trans hf₁
    refine (portFact_const hi hv e.out f hvalue).resolve_right fun hheld => ?_
    obtain ⟨a, t, hattr, ht, hnat⟩ := hnat
    rw [hsrc, ha.attributes, attributes?_of_op? ho] at hattr
    cases hattr
    cases hheld.symm.trans ht
    exact hnot hnat

/-- The operations of a graph that a sweep leaves as it is are idle. -/
lemma Midway.idle {done rest : List NodeId} (hg : g.Midway done rest)
    (hk : Registry.standard.sweep g rest = .ok k) (ha : k.Agrees g) (hid : id ∈ rest)
    (hop : (g.op? id).isSome) : g.Idle id := by
  induction rest generalizing g done with
  | nil => cases hid
  | cons i rest ih =>
    by_cases hi : (g.op? i).isSome
    · have hidle := hg.idle_head hi hk ha
      rcases List.mem_cons.1 hid with rfl | hid
      · exact hidle
      · obtain ⟨h, hh, hk⟩ := Registry.sweep_cons_eq_ok.1 hk
        obtain ⟨h', hh', hagree⟩ := hidle.visit hg.runnable.wellFormed (hg.runnable.apart i)
        cases hh.symm.trans hh'
        have hidle' := ih (hg.visit hh) hk (ha.trans hagree.symm) hid
          (isSome_op?_of_skeleton hagree.skeleton id ▸ hop)
        exact hidle'.of_agrees (hg.visit hh).runnable.wellFormed hagree.symm
    · obtain ⟨h, hh, hrest⟩ := Registry.sweep_cons_eq_ok.1 hk
      rcases Registry.visit_eq_ok.1 hh with ⟨-, rfl⟩ | ⟨name, o, ws, hn, -, -⟩
      · refine ih (hg.visit hh) hrest ha ((List.mem_cons.1 hid).resolve_left ?_) hop
        rintro rfl
        exact hi hop
      · exact absurd (by rw [op?_eq_some.2 ⟨name, hn⟩]; rfl) hi

/-- Inference of all operations sweeps over the evaluation order. -/
lemma sweep_of_inferAll {r : Registry} (hr : r.Local) (hg : g.WellFormed) {n : Nat}
    (hx : Edit.Gives r.inferAll g n h) : ∃ m l k, m.Agrees g ∧ m.evalOrder = .ok l ∧
      r.sweep m l = .ok k ∧ h.Agrees k := by
  obtain ⟨m, -, hm, hx⟩ := Registry.gives_inferAll.1 hx
  have hmark : m.Agrees g := hm.agrees.trans (agrees_flagOps g _)
  obtain ⟨l, k, hl, hk, hlike⟩ := Registry.sweep_of_gives hr (hg.of_skeleton hmark.skeleton)
    (fun l => (g.flagged_flagOps l).alike hm.symm) hx
  exact ⟨m, l, k, hmark, hl, hk, hlike.agrees⟩

/-- A sweep that succeeds from every graph that agrees is inference of all operations. -/
lemma inferAll_of_sweep {r : Registry} (hr : r.Local) (hg : g.WellFormed) {l : List NodeId}
    (hl : g.evalOrder = .ok l)
    (hs : ∀ m, m.Agrees g → ∃ k, r.sweep m l = .ok k ∧ k.Agrees h) :
    ∃ n k, Edit.Gives r.inferAll g n k ∧ k.Agrees h := by
  obtain ⟨m, hmarks, hm⟩ := Edit.gives_flagOps Edit.gives_mark_op (g := g) (l := g.opNodes)
    fun _ hi => mem_opNodes.1 hi
  have hmark : m.Agrees g := hm.agrees.trans (agrees_flagOps g _)
  obtain ⟨k, hk, hagree⟩ := hs m hmark
  obtain ⟨n, k', hx, hlike⟩ := Registry.gives_of_sweep hr (hg.of_skeleton hmark.skeleton)
    (fun l => (g.flagged_flagOps l).alike hm.symm) (evalOrder_of_skeleton hmark.skeleton hl) hk
  exact ⟨n, k', Registry.gives_inferAll.2 ⟨m, hmarks, hm, hx⟩, hlike.agrees.trans hagree⟩

/-- Inferring all operations changes no attribute, shape or value. -/
def Settled (g : Graph) : Prop :=
  ∃ n h, Edit.Gives Registry.standard.inferAll g n h ∧ h.Agrees g

/-- **Settled graphs**: every operation of a settled graph is idle, if axes come from constants. -/
theorem Settled.idle (h : g.Settled) (hg : g.WellFormed) (hover : g.NoOverrides)
    (hax : g.ConstantAxes) : ∃ l, g.evalOrder = .ok l ∧
      ∀ id, (g.op? id).isSome → g.Idle id := by
  obtain ⟨n, k, hx, hagree⟩ := h
  obtain ⟨m, l, k', hmark, hl, hk', hlike⟩ := sweep_of_inferAll Registry.local_standard hg hx
  have hwf := hg.of_skeleton hmark.skeleton
  have hord := ordered_of_evalOrder hl
  refine ⟨l, evalOrder_of_skeleton hmark.skeleton.symm hl, fun id hop => ?_⟩
  have hmid : m.Midway [] l :=
    ⟨underway_of_evalOrder hwf (hover.of_agrees hmark) hl, hax.of_skeleton hmark.skeleton⟩
  have hop' : (m.op? id).isSome := isSome_op?_of_skeleton hmark.skeleton id ▸ hop
  have hlive : (m.node? id).isSome := by
    obtain ⟨node, hnode, -⟩ := isSome_op?.1 hop'
    rw [hnode]
    rfl
  have hidle := hmid.idle hk' (hlike.symm.trans (hagree.trans hmark.symm)) (hord.mem.2 hlive)
    hop'
  exact hidle.of_agrees hwf hmark.symm

end Graph

end TensorGraph
