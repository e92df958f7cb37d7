import TensorGraph.Proofs.Scenes

/-!
What rules do to graphs.

`Graph.absorb` is what one write leaves of a graph, but for the revision. Carrying out a write in
a well-formed graph does this, and the scene of the operation changes as `Scene.after` says
(`performs`). By induction on the rule, running it does what its evaluation in the scene says.
-/

namespace TensorGraph

open Edit

/-- The operation with an attribute set, unless the attribute has that value. -/
def Operation.store (o : Operation) (name : String) (value : Attribute) : Operation :=
  if o.attributes.find? name == some value then o else o.withAttribute name value

namespace Graph

variable {g h : Graph} {op d : NodeId} {p : Nat} {o : Operation}

/-! ### Data on the ports of an operation -/

/-- The data on an input port. -/
def inSource (g : Graph) (op : NodeId) (p : Nat) : Option NodeId :=
  ((g.incoming op).find? fun e => e.inp == p).map (·.src)

/-- The data on an output port. -/
def outTarget (g : Graph) (op : NodeId) (p : Nat) : Option NodeId :=
  ((g.outgoing op).find? fun e => e.out == p).map (·.dst)

lemma node_ok_of_op? (ho : g.op? op = some o) : ∃ n, g.node op = .ok n := by
  obtain ⟨name, hn⟩ := op?_eq_some.1 ho
  exact ⟨_, node_eq_ok.2 hn⟩

lemma inputData_eq (ho : g.op? op = some o) (p : Nat) :
    g.inputData op p = .ok (g.inSource op p) := by
  obtain ⟨n, hn⟩ := node_ok_of_op? ho
  rw [inputData, inEdges_eq, hn]
  rfl

lemma outputData_eq (ho : g.op? op = some o) (p : Nat) :
    g.outputData op p = .ok (g.outTarget op p) := by
  obtain ⟨n, hn⟩ := node_ok_of_op? ho
  rw [outputData, outEdges_eq, hn]
  rfl

lemma inSource_eq_some (hg : g.WellFormed) :
    g.inSource op p = some d ↔ ∃ e ∈ g.edges, e.dst = op ∧ e.inp = p ∧ e.src = d := by
  unfold inSource
  simp only [Option.map_eq_some_iff, hg.find?_incoming, and_assoc]

lemma inSource_eq_none : g.inSource op p = none ↔ ∀ e ∈ g.edges, e.dst = op → e.inp ≠ p := by
  unfold inSource
  rw [Option.map_eq_none_iff, List.find?_eq_none]
  constructor
  · intro h e he hdst
    simpa using h e (mem_incoming.2 ⟨he, hdst⟩)
  · intro h e he
    obtain ⟨hmem, hdst⟩ := mem_incoming.1 he
    simpa using h e hmem hdst

lemma outTarget_eq_some (hg : g.WellFormed) (ho : g.op? op = some o) :
    g.outTarget op p = some d ↔ ∃ e ∈ g.edges, e.src = op ∧ e.out = p ∧ e.dst = d := by
  obtain ⟨name, hn⟩ := op?_eq_some.1 ho
  unfold outTarget
  constructor
  · intro h
    obtain ⟨e, he, rfl⟩ := Option.map_eq_some_iff.1 h
    obtain ⟨hmem, hsrc⟩ := mem_outgoing.1 (List.mem_of_find?_eq_some he)
    exact ⟨e, hmem, hsrc, by simpa using List.find?_some he, rfl⟩
  · rintro ⟨e, he, hsrc, hout, rfl⟩
    rcases hf : (g.outgoing op).find? fun e => e.out == p with _ | f
    · rw [List.find?_eq_none] at hf
      exact absurd (by simpa using hout) (hf e (mem_outgoing.2 ⟨he, hsrc⟩))
    · obtain ⟨hmem, hfsrc⟩ := mem_outgoing.1 (List.mem_of_find?_eq_some hf)
      have hfout : f.out = p := by simpa using List.find?_some hf
      rw [hf, hg.out_unique hmem he (hfsrc ▸ hn) rfl (hfsrc.trans hsrc.symm)
        (hfout.trans hout.symm)]
      rfl

/-- A data node is on one output port of one operation at most. -/
lemma eq_of_dst_eq (hg : g.WellFormed) {e e' : Edge} (he : e ∈ g.edges) (he' : e' ∈ g.edges)
    (hdst : e.dst = e'.dst) {f : Fact} (hf : g.fact? e.dst = some f) : e = e' := by
  obtain ⟨name, hn⟩ := fact?_eq_some.1 hf
  refine hg.inp_unique he he' hdst ?_
  rw [hg.inp_of_data he hn rfl, hg.inp_of_data he' (hdst ▸ hn) rfl]

/-! ### Taking up a write -/

/-- The graph with something written to an output of an operation. -/
def writeOut (g : Graph) (op : NodeId) (p : Nat) (f : Fact) : Graph :=
  match g.outTarget op p with
  | some d => g.modifyFact d (·.update f)
  | none => g

/-- The graph with the constant that a data node comes from changed, if it comes from one. -/
def storeProducer (g : Graph) (d : NodeId) (value : Tensor) : Graph :=
  match (g.incoming d).head? with
  | some e => g.modifyOp e.src fun o =>
      if o.kind == "Const" then o.store "value" (.tensor value) else o
  | none => g

/-- The graph with a value given to an input of an operation that no other reads. -/
def writeIn (g : Graph) (op : NodeId) (p : Nat) (value : Tensor) : Graph :=
  match g.inSource op p with
  | some d =>
    if 1 < (g.outgoing d).length then g
    else (g.storeProducer d value).modifyFact d (·.update (.ofValue value))
  | none => g

/-- What a write of the rule of an operation leaves. -/
def absorb (g : Graph) (op : NodeId) : Write → Graph
  | .attr name value => g.modifyOp op (·.store name value)
  | .inputValue p value => g.writeIn op p value
  | .outputShape p shape => g.writeOut op p (.ofShape shape)
  | .outputValue p value => g.writeOut op p (.ofValue value)
  | .outputUnknown p => g.writeOut op p .unknown

lemma store_kind (o : Operation) (name : String) (value : Attribute) :
    (o.store name value).kind = o.kind := by
  unfold Operation.store
  split <;> rfl

lemma store_typeName (o : Operation) (name : String) (value : Attribute) :
    (o.store name value).typeName = o.typeName := by
  unfold Operation.store
  split <;> rfl

lemma skeleton_writeOut (f : Fact) : (g.writeOut op p f).skeleton = g.skeleton := by
  unfold writeOut
  split
  · exact skeleton_modifyFact _ _
  · rfl

lemma skeleton_storeProducer (value : Tensor) :
    (g.storeProducer d value).skeleton = g.skeleton := by
  unfold storeProducer
  split
  · refine skeleton_modifyOp _ (fun o => ?_) fun o => ?_
    · split
      · exact store_kind ..
      · rfl
    · split
      · exact store_typeName ..
      · rfl
  · rfl

lemma skeleton_writeIn (value : Tensor) : (g.writeIn op p value).skeleton = g.skeleton := by
  unfold writeIn
  split
  · split
    · rfl
    · rw [skeleton_modifyFact, skeleton_storeProducer]
  · rfl

lemma skeleton_absorb (w : Write) : (g.absorb op w).skeleton = g.skeleton := by
  cases w with
  | attr name value => exact skeleton_modifyOp _ (store_kind · _ _) (store_typeName · _ _)
  | inputValue p value => exact skeleton_writeIn value
  | outputShape p shape => exact skeleton_writeOut _
  | outputValue p value => exact skeleton_writeOut _
  | outputUnknown p => exact skeleton_writeOut _

/-! ### Facts and operations after a write -/

lemma fact?_writeOut (f : Fact) : (g.writeOut op p f).fact? d =
    if g.outTarget op p = some d then (g.fact? d).map (·.update f) else g.fact? d := by
  unfold writeOut
  rcases g.outTarget op p with _ | t
  · simp
  · rw [fact?_modifyFact]
    by_cases h : d = t
    · simp [h]
    · simp [h, Ne.symm h]

@[simp] lemma op?_writeOut (f : Fact) : (g.writeOut op p f).op? d = g.op? d := by
  unfold writeOut
  split <;> simp

@[simp] lemma fact?_storeProducer (i : NodeId) (value : Tensor) :
    (g.storeProducer i value).fact? d = g.fact? d := by
  unfold storeProducer
  split <;> simp

lemma fact?_writeIn (value : Tensor) : (g.writeIn op p value).fact? d =
    if g.inSource op p = some d ∧ (g.outgoing d).length ≤ 1 then
      (g.fact? d).map (·.update (.ofValue value))
    else g.fact? d := by
  unfold writeIn
  rcases g.inSource op p with _ | t
  · simp
  · by_cases h : d = t
    · subst h
      by_cases hl : 1 < (g.outgoing d).length
      · simp [hl, Nat.not_le_of_lt hl]
      · simp [hl, Nat.le_of_not_lt hl]
    · by_cases hl : 1 < (g.outgoing t).length <;> simp [hl, h, Ne.symm h]

/-! ### Scenes -/

lemma inSource_of_skeleton (hs : h.skeleton = g.skeleton) (op : NodeId) (p : Nat) :
    h.inSource op p = g.inSource op p := by
  unfold inSource
  rw [incoming_of_skeleton hs]

lemma outTarget_of_skeleton (hs : h.skeleton = g.skeleton) (op : NodeId) (p : Nat) :
    h.outTarget op p = g.outTarget op p := by
  unfold outTarget
  rw [outgoing_of_skeleton hs]

lemma connectedInput_eq (ho : g.op? op = some o) (p : Nat) : g.connectedInput op p =
    match g.inSource op p with
    | some d => .ok d
    | none => .error (RuleFault.notConnected p) := by
  unfold connectedInput
  rw [inputData_eq ho]
  rfl

/-- The data on an input port is there. -/
lemma exists_fact_of_inSource (hg : g.WellFormed) (ho : g.op? op = some o)
    (hd : g.inSource op p = some d) : ∃ f, g.fact? d = some f := by
  obtain ⟨e, he, rfl, rfl, rfl⟩ := (inSource_eq_some hg).1 hd
  exact ends_of_op_dst hg he ho

lemma exists_fact_of_outTarget (hg : g.WellFormed) (ho : g.op? op = some o)
    (hd : g.outTarget op p = some d) : ∃ f, g.fact? d = some f := by
  obtain ⟨e, he, rfl, rfl, rfl⟩ := (outTarget_eq_some hg ho).1 hd
  exact ends_of_op_src hg he ho

lemma consumers_eq {f : Fact} (hf : g.fact? d = some f) : g.consumers d = .ok (g.outgoing d) := by
  obtain ⟨name, hn⟩ := fact?_eq_some.1 hf
  rw [consumers, outEdges_eq, node, hn]
  rfl

lemma inputIsShared_eq (hg : g.WellFormed) (ho : g.op? op = some o) (p : Nat) :
    g.inputIsShared op p =
      match g.inSource op p with
      | some d => .ok (decide (1 < (g.outgoing d).length))
      | none => .error (RuleFault.notConnected p) := by
  unfold inputIsShared
  rw [connectedInput_eq ho]
  rcases hd : g.inSource op p with _ | d
  · rfl
  · obtain ⟨f, hf⟩ := exists_fact_of_inSource hg ho hd
    show (g.consumers d >>= _) = _
    rw [consumers_eq hf]
    rfl

lemma scene_inputFact (ho : g.op? op = some o) (name : String) (attributes : Attributes)
    (p : Nat) : (g.scene op name attributes).inputFact p =
      match g.inSource op p with
      | some d => g.fact d
      | none => .error (RuleFault.notConnected p) := by
  show (g.connectedInput op p >>= g.fact) = _
  rw [connectedInput_eq ho]
  rcases g.inSource op p with _ | d <;> rfl

/-- Scenes are the same when the ports and what is known of the inputs are. -/
lemma scene_congr (hg : g.WellFormed) (hs : h.skeleton = g.skeleton) (ho : g.op? op = some o)
    (hf : ∀ p d, g.inSource op p = some d → h.fact? d = g.fact? d) (name : String)
    (attributes : Attributes) : h.scene op name attributes = g.scene op name attributes := by
  obtain ⟨o', ho'⟩ := exists_op?_of_skeleton hs ho
  have hfact : (h.scene op name attributes).inputFact = (g.scene op name attributes).inputFact := by
    funext p
    rw [scene_inputFact ho, scene_inputFact ho', inSource_of_skeleton hs]
    rcases hd : g.inSource op p with _ | d
    · rfl
    · obtain ⟨f, hfd⟩ := exists_fact_of_inSource hg ho hd
      have hfd' := (hf p d hd).trans hfd
      exact (fact_eq_ok.2 hfd').trans (fact_eq_ok.2 hfd).symm
  have hshared : h.inputIsShared op = g.inputIsShared op := by
    funext p
    rw [inputIsShared_eq hg ho, inputIsShared_eq (hg.of_skeleton hs) ho', inSource_of_skeleton hs]
    rcases g.inSource op p with _ | d
    · rfl
    · simp only [outgoing_of_skeleton hs]
  unfold scene at hfact ⊢
  simp only at hfact
  rw [hfact, hshared, incoming_of_skeleton hs, outgoing_of_skeleton hs]

end Graph

/-! ### Graphs that are alike take up writes alike -/

namespace Graph

variable {g h : Graph} {op d : NodeId} {p : Nat}

lemma Alike.scene (hl : g.Alike h) (op : NodeId) (name : String) (attributes : Attributes) :
    g.scene op name attributes = h.scene op name attributes := by
  have hledger := toLedger_eq hl.1 hl.2
  obtain ⟨l, _, _, _⟩ := g
  obtain ⟨l', _, _, _⟩ := h
  obtain rfl : l = l' := hledger
  rfl

lemma Alike.writeOut (hl : g.Alike h) (f : Fact) :
    (g.writeOut op p f).Alike (h.writeOut op p f) := by
  unfold Graph.writeOut
  rw [outTarget_of_skeleton hl.skeleton]
  split
  · exact hl.modifyFact _ _
  · exact hl

lemma Alike.storeProducer (hl : g.Alike h) (value : Tensor) :
    (g.storeProducer d value).Alike (h.storeProducer d value) := by
  unfold Graph.storeProducer
  rw [incoming_of_skeleton hl.skeleton]
  split
  · exact hl.modifyOp _ _
  · exact hl

lemma Alike.writeIn (hl : g.Alike h) (value : Tensor) :
    (g.writeIn op p value).Alike (h.writeIn op p value) := by
  unfold Graph.writeIn
  rw [inSource_of_skeleton hl.skeleton]
  split
  · rw [outgoing_of_skeleton hl.skeleton]
    split
    · exact hl
    · exact (hl.storeProducer value).modifyFact _ _
  · exact hl

lemma Alike.absorb (hl : g.Alike h) (w : Write) : (g.absorb op w).Alike (h.absorb op w) := by
  cases w with
  | attr name value => exact hl.modifyOp _ _
  | inputValue p value => exact hl.writeIn value
  | outputShape p shape => exact hl.writeOut _
  | outputValue p value => exact hl.writeOut _
  | outputUnknown p => exact hl.writeOut _

/-- What a list of writes leaves. -/
def settle (g : Graph) (op : NodeId) (ws : List Write) : Graph :=
  ws.foldl (fun g w => g.absorb op w) g

lemma skeleton_settle (ws : List Write) : (g.settle op ws).skeleton = g.skeleton := by
  induction ws generalizing g with
  | nil => rfl
  | cons w ws ih => exact ih.trans (skeleton_absorb w)

lemma Alike.settle (hl : g.Alike h) (ws : List Write) :
    (g.settle op ws).Alike (h.settle op ws) := by
  induction ws generalizing g h with
  | nil => exact hl
  | cons w ws ih => exact ih (hl.absorb w)

end Graph

/-! ### Carrying out one write -/

/-- What a step of a rule leaves: a graph like `k`, and a state that knows what changed. -/
structure Took (g k h : Graph) (s s' : RuleState) : Prop where
  alike : h.Alike k
  mono : s.changed ⊆ s'.changed
  changed : ∀ d, d ∉ s'.changed → k.fact? d = g.fact? d
  live : ∀ d ∈ s'.changed, d ∈ s.changed ∨ (g.fact? d).isSome

/-- The first write, then the others. -/
lemma Took.trans {g h k : Graph} {op : NodeId} {w : Write} {ws : List Write} {s s₁ s' : RuleState}
    (h₁ : Took g (g.absorb op w) h s s₁) (h₂ : Took h (h.settle op ws) k s₁ s') :
    Took g (g.settle op (w :: ws)) k s s' := by
  have hl : (h.settle op ws).Alike (g.settle op (w :: ws)) := h₁.alike.settle ws
  refine ⟨h₂.alike.trans hl, List.Subset.trans h₁.mono h₂.mono, fun d hd => ?_, fun d hd => ?_⟩
  · rw [← hl.fact?, h₂.changed d hd, h₁.alike.fact?]
    exact h₁.changed d fun hmem => hd (h₂.mono hmem)
  · rcases h₂.live d hd with hd | hd
    · exact h₁.live d hd
    · rw [Graph.isSome_fact?_of_skeleton (h₁.alike.skeleton.trans (Graph.skeleton_absorb w))] at hd
      exact Or.inr hd

lemma Took.refl {g : Graph} (s : RuleState) : Took g g g s s :=
  ⟨.refl g, fun _ h => h, fun _ _ => rfl, fun _ h => Or.inl h⟩

lemma changed_record (s : RuleState) (d : NodeId) : s.changed ⊆ (s.record d).changed := by
  intro i hi
  unfold RuleState.record
  split
  · exact hi
  · exact List.mem_append_left _ hi

lemma mem_record (s : RuleState) (d : NodeId) : d ∈ (s.record d).changed := by
  unfold RuleState.record
  split
  · assumption
  · exact List.mem_append_right _ (List.mem_singleton.2 rfl)

lemma eq_or_mem_of_mem_record {s : RuleState} {d i : NodeId} (h : i ∈ (s.record d).changed) :
    i = d ∨ i ∈ s.changed := by
  unfold RuleState.record at h
  split at h
  · exact Or.inr h
  · rcases List.mem_append.1 h with h | h
    · exact Or.inr h
    · exact Or.inl (List.mem_singleton.1 h)

namespace Edit

variable {g h : Graph} {op d : NodeId} {p : Nat} {o : Operation}

lemma gives_modifyFact {f : Fact} (hf : g.fact? d = some f) (u : Fact → Fact) :
    Gives (modifyFact d u) g () { g.modifyFact d u with revision := g.revision + 1 } := by
  unfold modifyFact
  simp only [gives_bind, gives_change, gives_query, gives_pure, Graph.fact_eq_ok]
  refine ⟨(), _, rfl, u f, _, ⟨?_, rfl⟩, trivial, rfl⟩
  have hrev : Graph.fact? { g.modifyFact d u with revision := g.revision + 1 } d =
      (g.modifyFact d u).fact? d := rfl
  rw [hrev, Graph.fact?_modifyFact, if_pos rfl, hf]
  rfl

lemma gives_modifyOp (ho : g.op? op = some o) (u : Operation → Operation) :
    Gives (modifyOp op u) g () { g.modifyOp op u with revision := g.revision + 1 } := by
  unfold modifyOp
  simp only [gives_bind, gives_change, gives_query, gives_pure, Graph.operation_eq_ok]
  refine ⟨(), _, rfl, u o, _, ⟨?_, rfl⟩, trivial, rfl⟩
  have hrev : Graph.op? { g.modifyOp op u with revision := g.revision + 1 } op =
      (g.modifyOp op u).op? op := rfl
  rw [hrev, Graph.op?_modifyOp, if_pos rfl, ho]
  rfl

lemma alike_of_modifyOp {f : Operation → Operation} {u : Unit} (hx : Gives (modifyOp op f) g u h) :
    h.Alike (g.modifyOp op f) := by
  obtain ⟨_, _, hchange, hx⟩ := gives_bind.1 hx
  obtain rfl := gives_change.1 hchange
  obtain ⟨_, _, hquery, hx⟩ := gives_bind.1 hx
  obtain ⟨-, rfl⟩ := gives_query.1 hquery
  obtain ⟨-, rfl⟩ := gives_pure.1 hx
  exact .revision _ _

lemma alike_of_modifyFact {f : Fact → Fact} {u : Unit} (hx : Gives (modifyFact d f) g u h) :
    h.Alike (g.modifyFact d f) := by
  obtain ⟨_, _, hchange, hx⟩ := gives_bind.1 hx
  obtain rfl := gives_change.1 hchange
  obtain ⟨_, _, hquery, hx⟩ := gives_bind.1 hx
  obtain ⟨-, rfl⟩ := gives_query.1 hquery
  obtain ⟨-, rfl⟩ := gives_pure.1 hx
  exact .revision _ _

lemma gives_writeFact {f₀ : Fact} (hf : g.fact? d = some f₀) (f : Fact) (s : RuleState) :
    ∃ s' h, Gives (writeFact d f s) g s' h ∧ s'.attributes = s.attributes ∧
      Took g (g.modifyFact d (·.update f)) h s s' := by
  by_cases heq : (f₀ == f) = true
  · -- what is there stays
    have hself : g.modifyFact d (·.update f) = g := by
      refine Graph.modifyFact_eq_self fun f₁ hf₁ => ?_
      rw [hf, Option.some.injEq] at hf₁
      rw [← hf₁, Fact.update, if_pos heq]
    refine ⟨s, g, ?_, rfl, ?_⟩
    · unfold writeFact
      simp only [gives_bind, gives_query, Graph.fact_eq_ok]
      refine ⟨f₀, g, ⟨hf, rfl⟩, ?_⟩
      rw [if_pos heq]
      exact ⟨rfl, rfl⟩
    · rw [hself]
      exact .refl s
  · have hnew : g.modifyFact d (·.update f) = g.modifyFact d fun _ => f := by
      refine Graph.modifyFact_congr fun f₁ hf₁ => ?_
      rw [hf, Option.some.injEq] at hf₁
      rw [← hf₁, Fact.update, if_neg heq]
    refine ⟨s.record d, { g.modifyFact d (·.update f) with revision := g.revision + 1 }, ?_, ?_,
      ⟨.revision _ _, ?_, ?_, ?_⟩⟩
    · unfold writeFact
      simp only [gives_bind, gives_query, Graph.fact_eq_ok]
      refine ⟨f₀, g, ⟨hf, rfl⟩, ?_⟩
      rw [if_neg heq, hnew]
      simp only [gives_bind, gives_pure]
      exact ⟨(), _, gives_modifyFact hf _, trivial, rfl⟩
    · unfold RuleState.record
      split <;> rfl
    · exact changed_record s d
    · intro i hi
      have hne : i ≠ d := by
        rintro rfl
        exact hi (mem_record s i)
      rw [Graph.fact?_modifyFact, if_neg hne]
    · intro i hi
      rcases eq_or_mem_of_mem_record hi with rfl | hi
      · rw [hf]
        exact Or.inr rfl
      · exact Or.inl hi

lemma gives_writeAttribute (ho : g.op? op = some o) (name : String) (value : Attribute) :
    ∃ h, Gives (writeAttribute op name value) g () h ∧
      h.Alike (g.modifyOp op (·.store name value)) := by
  unfold writeAttribute
  simp only [gives_bind, gives_query, Graph.operation_eq_ok]
  by_cases heq : (o.attributes.find? name == some value) = true
  · refine ⟨g, ⟨o, g, ⟨ho, rfl⟩, ?_⟩, ?_⟩
    · rw [if_pos heq]
      exact ⟨rfl, rfl⟩
    · rw [Graph.modifyOp_eq_self]
      · exact .refl g
      · intro o' ho'
        rw [ho, Option.some.injEq] at ho'
        rw [← ho', Operation.store, if_pos heq]
  · refine ⟨{ g.modifyOp op (·.withAttribute name value) with revision := g.revision + 1 },
      ⟨o, g, ⟨ho, rfl⟩, ?_⟩, ?_⟩
    · rw [if_neg heq]
      exact gives_modifyOp ho _
    · rw [Graph.modifyOp_congr (f := (·.store name value)) fun o' ho' => ?_]
      · exact .revision _ _
      · rw [ho, Option.some.injEq] at ho'
        rw [← ho', Operation.store, if_neg heq]

lemma gives_writeProducer (hg : g.WellFormed) {f : Fact} (hf : g.fact? d = some f)
    (value : Tensor) : ∃ h, Gives (writeProducer d value) g () h ∧
      h.Alike (g.storeProducer d value) := by
  unfold writeProducer Graph.storeProducer
  simp only [gives_bind, gives_query, Graph.producer_eq hf]
  rcases hl : (g.incoming d).head? with _ | e
  · exact ⟨g, ⟨none, g, ⟨rfl, rfl⟩, rfl, rfl⟩, .refl g⟩
  · obtain ⟨hmem, rfl⟩ := Graph.mem_incoming.1 (List.mem_of_mem_head? hl)
    obtain ⟨o, ho⟩ := Graph.ends_of_fact_dst hg hmem hf
    by_cases hk : (o.kind == "Const") = true
    · obtain ⟨h, hx, hl⟩ := gives_writeAttribute ho "value" (.tensor value)
      refine ⟨h, ⟨some e.src, g, ⟨rfl, rfl⟩, ?_⟩, ?_⟩
      · simp only [gives_bind, gives_query, Graph.operation_eq_ok]
        refine ⟨o, g, ⟨ho, rfl⟩, ?_⟩
        rw [if_pos hk]
        exact hx
      · refine hl.trans ?_
        rw [Graph.modifyOp_congr fun o' ho' => ?_]
        · exact .refl _
        · rw [ho, Option.some.injEq] at ho'
          rw [← ho', if_pos hk]
    · refine ⟨g, ⟨some e.src, g, ⟨rfl, rfl⟩, ?_⟩, ?_⟩
      · simp only [gives_bind, gives_query, Graph.operation_eq_ok]
        refine ⟨o, g, ⟨ho, rfl⟩, ?_⟩
        rw [if_neg hk]
        exact ⟨rfl, rfl⟩
      · simp only
        rw [Graph.modifyOp_eq_self fun o' ho' => ?_]
        · exact .refl _
        · rw [ho, Option.some.injEq] at ho'
          rw [← ho', if_neg hk]

lemma gives_writeOutput (hg : g.WellFormed) (ho : g.op? op = some o) (p : Nat) (f : Fact)
    (s : RuleState) : ∃ s' h, Gives (writeOutput op p f s) g s' h ∧
      s'.attributes = s.attributes ∧ Took g (g.writeOut op p f) h s s' := by
  unfold writeOutput Graph.writeOut
  simp only [gives_bind, gives_query, Graph.outputData_eq ho]
  rcases hd : g.outTarget op p with _ | d
  · exact ⟨s, g, ⟨none, g, ⟨rfl, rfl⟩, rfl, rfl⟩, rfl, .refl s⟩
  · obtain ⟨f₀, hf₀⟩ := Graph.exists_fact_of_outTarget hg ho hd
    obtain ⟨s', h, hx, hattr, htook⟩ := gives_writeFact hf₀ f s
    exact ⟨s', h, ⟨some d, g, ⟨rfl, rfl⟩, hx⟩, hattr, htook⟩

lemma gives_writeInput (hg : g.WellFormed) (ho : g.op? op = some o) (hd : g.inSource op p = some d)
    (name : String) (value : Tensor) (s : RuleState) :
    ∃ s' h, Gives (writeInput op name p value s) g s' h ∧
      s'.attributes = s.attributes ∧ Took g (g.writeIn op p value) h s s' := by
  obtain ⟨f₀, hf₀⟩ := Graph.exists_fact_of_inSource hg ho hd
  unfold writeInput Graph.writeIn
  simp only [gives_bind, gives_query, Graph.inputIsShared_eq hg ho, hd]
  by_cases hl : 1 < (g.outgoing d).length
  · refine ⟨s, g, ⟨true, g, ⟨by simp [hl], rfl⟩, ?_⟩, rfl, ?_⟩
    · rw [if_pos rfl]
      simp
    · rw [if_pos hl]
      exact .refl s
  · obtain ⟨g₁, hg₁, hl₁⟩ := gives_writeProducer hg hf₀ value
    have hf₁ : g₁.fact? d = some f₀ := by
      rw [hl₁.fact?, Graph.fact?_storeProducer, hf₀]
    obtain ⟨s', h, hx, hattr, htook⟩ := gives_writeFact hf₁ (.ofValue value) s
    refine ⟨s', h, ⟨false, g, ⟨by simp [hl], rfl⟩, ?_⟩, hattr, ?_⟩
    · rw [if_neg (by decide)]
      simp only [gives_bind, gives_query, Graph.connectedInput_eq ho, hd]
      exact ⟨d, g, ⟨rfl, rfl⟩, (), g₁, hg₁, hx⟩
    · rw [if_neg hl]
      refine ⟨htook.alike.trans (hl₁.modifyFact _ _), htook.mono, fun i hi => ?_, fun i hi => ?_⟩
      · have hi' := htook.changed i hi
        rw [(hl₁.modifyFact _ _).fact?, hl₁.fact?, Graph.fact?_storeProducer] at hi'
        exact hi'
      · have hi' := htook.live i hi
        rw [hl₁.fact?, Graph.fact?_storeProducer] at hi'
        exact hi'

end Edit

/-- The operation reads nothing that it writes. -/
def Graph.Apart (g : Graph) (op : NodeId) : Prop :=
  ∀ e ∈ g.edges, ∀ e' ∈ g.edges, e.src = op → e'.dst = op → e.dst ≠ e'.src

section

open RuleM (eval)

variable {g h : Graph} {op : NodeId} {o : Operation} {name : String}

lemma Graph.Apart.of_skeleton (hs : h.skeleton = g.skeleton) (ha : g.Apart op) : h.Apart op := by
  unfold Graph.Apart
  rw [Graph.edges_of_skeleton hs]
  exact ha

/-- Writing to outputs leaves the scene. -/
lemma scene_writeOut (hg : g.WellFormed) (ho : g.op? op = some o) (ha : g.Apart op) (p : Nat)
    (f : Fact) (attributes : Attributes) :
    (g.writeOut op p f).scene op name attributes = g.scene op name attributes := by
  refine Graph.scene_congr hg (Graph.skeleton_writeOut f) ho (fun q d hd => ?_) name attributes
  rw [Graph.fact?_writeOut, if_neg]
  intro ht
  obtain ⟨e, he, hsrc, -, rfl⟩ := (Graph.outTarget_eq_some hg ho).1 ht
  obtain ⟨e', he', hdst, -, heq⟩ := (Graph.inSource_eq_some hg).1 hd
  exact ha e he e' he' hsrc hdst heq.symm

/-- Storing an attribute leaves the scene, which holds attributes of its own. -/
lemma scene_modifyOp (hg : g.WellFormed) (ho : g.op? op = some o) (i : NodeId)
    {u : Operation → Operation} (hk : ∀ o, (u o).kind = o.kind)
    (ht : ∀ o, (u o).typeName = o.typeName) (attributes : Attributes) :
    (g.modifyOp i u).scene op name attributes = g.scene op name attributes :=
  Graph.scene_congr hg (Graph.skeleton_modifyOp i hk ht) ho
    (fun _ _ _ => Graph.fact?_modifyOp ..) name attributes

/-- Two edges out of a data node that has one reader at most are the same. -/
lemma eq_of_unshared {d : NodeId} (hl : (g.outgoing d).length ≤ 1) {e e' : Edge}
    (he : e ∈ g.edges) (he' : e' ∈ g.edges) (hs : e.src = d) (hs' : e'.src = d) : e = e' := by
  have hmem := Graph.mem_outgoing.2 ⟨he, hs⟩
  have hmem' := Graph.mem_outgoing.2 ⟨he', hs'⟩
  rcases hout : g.outgoing d with _ | ⟨f, _ | ⟨f', l⟩⟩
  · rw [hout] at hmem
    cases hmem
  · rw [hout, List.mem_singleton] at hmem hmem'
    rw [hmem, hmem']
  · rw [hout] at hl
    simp at hl

/-- Writing to an input that no other operation reads changes what is known on its port. -/
lemma scene_writeIn (hg : g.WellFormed) (ho : g.op? op = some o) {p : Nat} {d : NodeId}
    (hd : g.inSource op p = some d) (value : Tensor) (attributes : Attributes) :
    (g.writeIn op p value).scene op name attributes =
      (g.scene op name attributes).after (.inputValue p value) := by
  have hshared : (g.scene op name attributes).inputIsShared p =
      .ok (decide (1 < (g.outgoing d).length)) := by
    show g.inputIsShared op p = _
    rw [Graph.inputIsShared_eq hg ho, hd]
  by_cases hl : 1 < (g.outgoing d).length
  · unfold Graph.writeIn Scene.after
    simp only [hd, hshared, hl, if_true, decide_true]
  · have hskel : (g.writeIn op p value).skeleton = g.skeleton := Graph.skeleton_writeIn value
    obtain ⟨o', ho'⟩ := Graph.exists_op?_of_skeleton hskel ho
    have hfact : ((g.writeIn op p value).scene op name attributes).inputFact = fun q =>
        if q = p then ((g.scene op name attributes).inputFact q).map (·.update (.ofValue value))
        else (g.scene op name attributes).inputFact q := by
      funext q
      rw [Graph.scene_inputFact ho, Graph.scene_inputFact ho', Graph.inSource_of_skeleton hskel]
      by_cases hq : q = p
      · subst hq
        obtain ⟨f, hf⟩ := Graph.exists_fact_of_inSource hg ho hd
        have hf' : (g.writeIn op q value).fact? d = some (f.update (.ofValue value)) := by
          rw [Graph.fact?_writeIn, if_pos ⟨hd, Nat.le_of_not_lt hl⟩, hf]
          rfl
        simp only [hd, if_true, Graph.fact_eq_ok.2 hf', Graph.fact_eq_ok.2 hf, Except.map]
      · rw [if_neg hq]
        rcases hd' : g.inSource op q with _ | d'
        · rfl
        · obtain ⟨f, hf⟩ := Graph.exists_fact_of_inSource hg ho hd'
          have hne : ¬ (g.inSource op p = some d' ∧ (g.outgoing d').length ≤ 1) := by
            rintro ⟨hp, hle⟩
            obtain ⟨e, he, -, hinp, hsrc⟩ := (Graph.inSource_eq_some hg).1 hp
            obtain ⟨e', he', -, hinp', hsrc'⟩ := (Graph.inSource_eq_some hg).1 hd'
            rw [eq_of_unshared hle he he' hsrc hsrc', hinp'] at hinp
            exact hq hinp
          have hf' : (g.writeIn op p value).fact? d' = some f := by
            rw [Graph.fact?_writeIn, if_neg hne, hf]
          exact (Graph.fact_eq_ok.2 hf').trans (Graph.fact_eq_ok.2 hf).symm
    have hsh : (g.writeIn op p value).inputIsShared op = g.inputIsShared op := by
      funext q
      rw [Graph.inputIsShared_eq hg ho, Graph.inputIsShared_eq (hg.of_skeleton hskel) ho',
        Graph.inSource_of_skeleton hskel]
      rcases g.inSource op q with _ | d'
      · rfl
      · simp only [Graph.outgoing_of_skeleton hskel]
    unfold Scene.after
    simp only [hshared, hl, decide_false]
    rw [← hfact]
    unfold Graph.scene
    simp only [hsh, Graph.incoming_of_skeleton hskel, Graph.outgoing_of_skeleton hskel]

lemma refusal_inputValue (s : Scene) (p : Nat) (value : Tensor) :
    s.refusal (.inputValue p value) =
      match s.inputIsShared p with
      | .ok _ => none
      | .error e => some e := rfl

lemma refusal_outputShape (s : Scene) (p : Nat) (shape : Shape) :
    s.refusal (.outputShape p shape) =
      (shape.find? (· < -1)).map fun bad =>
        (⟨[], Cause.inference s.name (.dimension bad shape)⟩ : Error) := rfl

lemma performWrite_outputShape (s : RuleState) (p : Nat) (shape : Shape) :
    performWrite op name s (.outputShape p shape) =
      match shape.find? (· < -1) with
      | some bad => fail (Cause.inference name (.dimension bad shape))
      | none => writeOutput op p (.ofShape shape) s := rfl

/-- A write that is refused fails and leaves the graph. -/
lemma run_performWrite_of_refusal {s : RuleState}
    {w : Write} {e : Error} (hr : (g.scene op name s.attributes).refusal w = some e) :
    ((performWrite op name s w).run g).result = .error e ∧
      ((performWrite op name s w).run g).graph = g := by
  cases w with
  | attr key value => cases hr
  | inputValue p value =>
    have herr : g.inputIsShared op p = .error e := by
      rw [refusal_inputValue] at hr
      rcases hsh : (g.scene op name s.attributes).inputIsShared p with e' | b
      · rw [hsh, Option.some.injEq] at hr
        rw [← hr]
        exact hsh
      · rw [hsh] at hr
        cases hr
    have hq : ((query fun g => g.inputIsShared op p).run g).result = .error e := herr
    show ((writeInput op name p value s).run g).result = _ ∧ _
    unfold performWrite writeInput
    rw [run_bind_of_error hq]
    exact ⟨rfl, rfl⟩
  | outputShape p shape =>
    rw [refusal_outputShape] at hr
    obtain ⟨bad, hbad, rfl⟩ := Option.map_eq_some_iff.1 hr
    rw [performWrite_outputShape, hbad]
    exact ⟨rfl, rfl⟩
  | outputValue p value => cases hr
  | outputUnknown p => cases hr

/-- A write that is not refused does what `absorb` says, and the scene changes with it if the
operation reads nothing that it writes. -/
lemma performs (hg : g.WellFormed) (ho : g.op? op = some o) {s : RuleState} {w : Write}
    (hr : (g.scene op name s.attributes).refusal w = none) :
    ∃ s' h, Gives (performWrite op name s w) g s' h ∧ Took g (g.absorb op w) h s s' ∧
      (g.Apart op →
        h.scene op name s'.attributes = (g.scene op name s.attributes).after w) := by
  cases w with
  | attr key value =>
    obtain ⟨h, hx, hl⟩ := gives_writeAttribute ho key value
    refine ⟨{ s with attributes := s.attributes.insert key value }, h, ?_,
      ⟨hl, fun _ h => h, fun _ _ => Graph.fact?_modifyOp .., fun _ h => Or.inl h⟩, fun _ => ?_⟩
    · unfold performWrite
      simp only [gives_bind, gives_pure]
      exact ⟨(), h, hx, trivial, rfl⟩
    · rw [hl.scene]
      exact scene_modifyOp hg ho op (Graph.store_kind · _ _) (Graph.store_typeName · _ _) _
  | inputValue p value =>
    obtain ⟨d, hd⟩ : ∃ d, g.inSource op p = some d := by
      rcases hd : g.inSource op p with _ | d
      · have hsh : (g.scene op name s.attributes).inputIsShared p = g.inputIsShared op p := rfl
        rw [refusal_inputValue, hsh, Graph.inputIsShared_eq hg ho, hd] at hr
        cases hr
      · exact ⟨d, rfl⟩
    obtain ⟨s', h, hx, hattr, htook⟩ := gives_writeInput hg ho hd name value s
    refine ⟨s', h, hx, htook, fun _ => ?_⟩
    rw [htook.alike.scene, hattr]
    exact scene_writeIn hg ho hd value _
  | outputShape p shape =>
    have hnone : shape.find? (· < -1) = none := by
      rw [refusal_outputShape] at hr
      exact Option.map_eq_none_iff.1 hr
    obtain ⟨s', h, hx, hattr, htook⟩ := gives_writeOutput hg ho p (.ofShape shape) s
    refine ⟨s', h, ?_, htook, fun ha => ?_⟩
    · rw [performWrite_outputShape, hnone]
      exact hx
    · rw [htook.alike.scene, hattr]
      exact scene_writeOut hg ho ha p _ _
  | outputValue p value =>
    obtain ⟨s', h, hx, hattr, htook⟩ := gives_writeOutput hg ho p (.ofValue value) s
    refine ⟨s', h, hx, htook, fun ha => ?_⟩
    rw [htook.alike.scene, hattr]
    exact scene_writeOut hg ho ha p _ _
  | outputUnknown p =>
    obtain ⟨s', h, hx, hattr, htook⟩ := gives_writeOutput hg ho p .unknown s
    refine ⟨s', h, hx, htook, fun ha => ?_⟩
    rw [htook.alike.scene, hattr]
    exact scene_writeOut hg ho ha p _ _

/-! ### Running a rule -/

variable (name) in
/-- **Evaluation**: running a rule that looks at its scene only does what its evaluation in the
scene says. -/
theorem runRule_eval {α : Type} {m : RuleM α} (hm : m.Local) (hg : g.WellFormed)
    (ho : g.op? op = some o) (ha : g.Apart op) (s : RuleState) :
    (∀ a ws, m.eval (g.scene op name s.attributes) = .ok (a, ws) →
      ∃ s' h, Gives (runRule op name m s) g (a, s') h ∧ Took g (g.settle op ws) h s s') ∧
    ∀ e, m.eval (g.scene op name s.attributes) = .error e →
      ((runRule op name m s).run g).result = .error e := by
  induction m generalizing g o s with
  | done a =>
    refine ⟨fun b ws h => ?_, fun e h => by cases h⟩
    cases h
    exact ⟨s, g, ⟨rfl, rfl⟩, .refl s⟩
  | fail e =>
    refine ⟨fun b ws h => (by cases h), fun e' h => ?_⟩
    cases h
    rfl
  | inspect next ih =>
    -- what the rule sees of the graph around its scene makes no difference
    have hview : next (g.scene op name s.attributes).view =
        next ⟨g.scene op name s.attributes, g, op⟩ := hm.1 _ _ rfl
    have hcurrent : (current.run g).result = .ok g := rfl
    obtain ⟨hok, herr⟩ := ih _ (hm.2 ⟨g.scene op name s.attributes, g, op⟩) hg ho ha s
    constructor
    · intro a ws h
      rw [eval, hview] at h
      obtain ⟨s', k, hx, htook⟩ := hok a ws h
      refine ⟨s', k, ?_, htook⟩
      rw [runRule, gives_bind]
      exact ⟨g, g, ⟨rfl, rfl⟩, hx⟩
    · intro e h
      rw [eval, hview] at h
      rw [runRule, run_bind_of_ok hcurrent]
      exact herr e h
  | note level text next ih =>
    have hnote : ((note level text).run g).result = .ok () := rfl
    obtain ⟨hok, herr⟩ := ih hm hg ho ha s
    constructor
    · intro a ws h
      obtain ⟨s', k, hx, htook⟩ := hok a ws h
      refine ⟨s', k, ?_, htook⟩
      rw [runRule, gives_bind]
      exact ⟨(), g, ⟨rfl, rfl⟩, hx⟩
    · intro e h
      rw [runRule, run_bind_of_ok hnote]
      exact herr e h
  | write w next ih =>
    rcases hr : (g.scene op name s.attributes).refusal w with _ | e₀
    · -- the write is made, and the rule goes on in the graph it leaves
      obtain ⟨s₁, h₁, hw, htook₁, hscene⟩ := performs hg ho hr
      have hskel : h₁.skeleton = g.skeleton := htook₁.alike.skeleton.trans (Graph.skeleton_absorb w)
      obtain ⟨o₁, ho₁⟩ := Graph.exists_op?_of_skeleton hskel ho
      obtain ⟨hok, herr⟩ := ih (.ok ()) (hm _) (hg.of_skeleton hskel) ho₁ (ha.of_skeleton hskel) s₁
      rw [hscene ha] at hok herr
      have hattempt : Gives (attempt (performWrite op name s w)) g (.ok s₁) h₁ :=
        ⟨congrArg Except.ok hw.1, hw.2⟩
      constructor
      · intro a ws h
        rw [eval, hr] at h
        obtain ⟨⟨a', ws'⟩, hev, heq⟩ := map_eq_ok.1 h
        cases heq
        obtain ⟨s', k, hx, htook⟩ := hok a' ws' hev
        refine ⟨s', k, ?_, htook₁.trans htook⟩
        rw [runRule, gives_bind]
        exact ⟨.ok s₁, h₁, hattempt, hx⟩
      · intro e h
        rw [eval, hr] at h
        rw [runRule, run_bind_of_ok hattempt.1, hattempt.2]
        exact herr e (map_eq_error.1 h)
    · -- the rule goes on with the reason why the write is refused
      obtain ⟨hres, hgraph⟩ := run_performWrite_of_refusal hr
      obtain ⟨hok, herr⟩ := ih (.error e₀) (hm _) hg ho ha s
      have hattempt : Gives (attempt (performWrite op name s w)) g (.error e₀) g :=
        ⟨congrArg Except.ok hres, hgraph⟩
      constructor
      · intro a ws h
        rw [eval, hr] at h
        obtain ⟨s', k, hx, htook⟩ := hok a ws h
        refine ⟨s', k, ?_, htook⟩
        rw [runRule, gives_bind]
        exact ⟨.error e₀, g, hattempt, hx⟩
      · intro e h
        rw [eval, hr] at h
        rw [runRule, run_bind_of_ok hattempt.1, hattempt.2]
        exact herr e h

variable (name) in
/-- Whatever a rule looks at, and whether it succeeds or fails, it leaves the graph that takes up
some writes. -/
theorem took_of_runRule {α : Type} (m : RuleM α) (s : RuleState) (hg : g.WellFormed)
    (ho : g.op? op = some o) :
    ∃ ws s', Took g (g.settle op ws) ((runRule op name m s).run g).graph s s' ∧
      ∀ a t, ((runRule op name m s).run g).result = .ok (a, t) → t = s' := by
  induction m generalizing g o s with
  | done b =>
    refine ⟨[], s, .refl s, fun a t h => ?_⟩
    cases h
    rfl
  | fail e => exact ⟨[], s, .refl s, fun a t h => by cases h⟩
  | inspect next ih =>
    have hcurrent : (current.run g).result = .ok g := rfl
    rw [runRule, run_bind_of_ok hcurrent]
    exact ih _ s hg ho
  | note level text next ih =>
    have hnote : ((note level text).run g).result = .ok () := rfl
    rw [runRule, run_bind_of_ok hnote]
    exact ih s hg ho
  | write w next ih =>
    rw [runRule]
    rcases hr : (g.scene op name s.attributes).refusal w with _ | e
    · obtain ⟨s₁, h₁, hw, htook, -⟩ := performs hg ho hr
      have hattempt : Gives (attempt (performWrite op name s w)) g (.ok s₁) h₁ :=
        ⟨congrArg Except.ok hw.1, hw.2⟩
      have hskel : h₁.skeleton = g.skeleton := htook.alike.skeleton.trans (Graph.skeleton_absorb w)
      obtain ⟨o₁, ho₁⟩ := Graph.exists_op?_of_skeleton hskel ho
      obtain ⟨ws, s', hrest, hres⟩ := ih (.ok ()) s₁ (hg.of_skeleton hskel) ho₁
      rw [run_bind_of_ok hattempt.1, hattempt.2]
      exact ⟨w :: ws, s', htook.trans hrest, hres⟩
    · obtain ⟨hres, hgraph⟩ := run_performWrite_of_refusal hr
      have hattempt : Gives (attempt (performWrite op name s w)) g (.error e) g :=
        ⟨congrArg Except.ok hres, hgraph⟩
      rw [run_bind_of_ok hattempt.1, hattempt.2]
      exact ih (.error e) s hg ho

lemma exists_took_of_runRule {α : Type} {m : RuleM α} {a : α} {s s' : RuleState}
    (hg : g.WellFormed) (ho : g.op? op = some o)
    (hx : Gives (runRule op name m s) g (a, s') h) : ∃ ws, Took g (g.settle op ws) h s s' := by
  obtain ⟨ws, t, htook, hres⟩ := took_of_runRule name m s hg ho
  obtain ⟨hok, rfl⟩ := hx
  obtain rfl := hres a s' hok
  exact ⟨ws, htook⟩

end

end TensorGraph
