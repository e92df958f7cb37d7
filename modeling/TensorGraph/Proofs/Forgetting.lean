import TensorGraph.Proofs.Precision
import TensorGraph.Proofs.Sweeps

/-!
Inference on graphs that say less.

`Graph.Forgets g g'` says that `g` is `g'` with some dimensions of parameters left open and some
constants turned into parameters of their shape. Inference that succeeds on `g'` succeeds on `g`,
and all it says of a shape there is right for `g'` as well (`inferAll_monotone`). The induction is
over the evaluation order, which the two graphs share, with `Refines` between the two runs.
-/

namespace TensorGraph

/-! ### Graphs that say less -/

/-- The shape that a parameter says. -/
def Operation.shape? (o : Operation) : Option Shape :=
  (o.attributes.find? "shape").bind (·.toInts?)

/-- The value that a constant holds. -/
def Operation.value? (o : Operation) : Option Tensor :=
  (o.attributes.find? "value").bind (·.toTensor?)

/-- The operation says less than the other one. -/
inductive Operation.Forgets (o o' : Operation) : Prop
  | same : o.kind = o'.kind → o.attributes = o'.attributes → Forgets o o'
  | parameter {a a' : Shape} : o.kind = "Parameter" → o'.kind = "Parameter" →
      o.shape? = some a → o'.shape? = some a' → a.Coarser a' → Forgets o o'
  | constant {a : Shape} {t : Tensor} : o.kind = "Parameter" → o'.kind = "Const" →
      o.shape? = some a → o'.value? = some t → a.Coarser t.dims → Forgets o o'

namespace Graph

/-- The graphs differ in their operations only, and those of the first say less. -/
structure Forgets (g g' : Graph) : Prop where
  links : g.links = g'.links
  next : g.nodes.next = g'.nodes.next
  frame : ∀ id, g.frame id = g'.frame id
  fact : ∀ d, g.fact? d = g'.fact? d
  op : ∀ {id : NodeId} {o o' : Operation}, g.op? id = some o → g'.op? id = some o' → o.Forgets o'

end Graph

/-! ### One operation -/

/-- The shape that is known is coarser. -/
def Fact.ShapeCoarser (f f' : Fact) : Prop :=
  ∀ a, f.shape = some a → ∃ a', f'.shape = some a' ∧ a.Coarser a'

/-- The scenes have the same ports, and the first one knows less of the inputs. -/
structure Scene.Blurs (s s' : Scene) : Prop where
  inputPorts : s.inputPorts = s'.inputPorts
  outputPorts : s.outputPorts = s'.outputPorts
  inputIsShared : s.inputIsShared = s'.inputIsShared
  connected : ∀ {p : Nat} {f : Fact}, s.inputFact p = .ok f → p ∈ s.inputPorts
  input : ∀ {p : Nat} {f' : Fact}, s'.inputFact p = .ok f' →
    ∃ f, s.inputFact p = .ok f ∧ f.Coarser f'

namespace Scene.Blurs

variable {s s' : Scene} (h : s.Blurs s')

include h

lemma hasUnknownInput (hs : s'.hasUnknownInput = true) : s.hasUnknownInput = true := by
  unfold Scene.hasUnknownInput at hs ⊢
  rw [List.any_eq_true] at hs ⊢
  obtain ⟨p, hp, hs⟩ := hs
  refine ⟨p, h.inputPorts ▸ hp, ?_⟩
  rcases hf' : s'.inputFact p with _ | f'
  · simp [hf'] at hs
  · obtain ⟨f, hf, hcoarser⟩ := h.input hf'
    rw [hf'] at hs
    rw [hf]
    rcases ha : f.shape with _ | a
    · exact congrArg Option.isNone ha
    · obtain ⟨a', ha', -⟩ := hcoarser.shape a ha
      simp [ha'] at hs

lemma isSome_shape (hs : ¬s.hasUnknownInput = true) {p : Nat} {f : Fact}
    (hf : s.inputFact p = .ok f) : f.shape.isSome := by
  rcases ha : f.shape with _ | a
  · refine absurd ?_ hs
    unfold Scene.hasUnknownInput
    rw [List.any_eq_true]
    exact ⟨p, h.connected hf, by simp [hf, ha]⟩
  · rfl

lemma filled (hs : ¬s.hasUnknownInput = true) (ha : s.attributes = s'.attributes) (e : OpEntry) :
    (s.filled e).Coarser (s'.filled e) where
  attributes := congrArg e.defaults.union ha
  outputPorts := h.outputPorts
  inputIsShared := h.inputIsShared
  input hf' := by
    obtain ⟨f, hf, hcoarser⟩ := h.input hf'
    exact ⟨f, hf, hcoarser, h.isSome_shape hs hf⟩

end Scene.Blurs

namespace Registry

variable {s s' : Scene} {ws ws' : List Write}

/-- **Forgetting at one operation**: an operation that says less, in a scene that knows less, is
inferred when the other one is, and what it says of each output is coarser. -/
lemma verdict_forgets {o o' : Operation} (ho : o.Forgets o') (h : s.Blurs s')
    (ha : s.attributes = o.attributes) (ha' : s'.attributes = o'.attributes)
    (hi : o.attributes.find? "infer" = none) (hi' : o'.attributes.find? "infer" = none)
    (hs : s.Shaped) (hs' : s'.Shaped) (hv : standard.verdict o'.kind s' = .ok ws') :
    ∃ ws, standard.verdict o.kind s = .ok ws ∧
      ∀ p ∈ s.outputPorts, ∀ f, (portFact p f ws).Coarser (portFact p f ws') := by
  rw [← ha] at hi
  rw [← ha'] at hi'
  -- what is left unknown is coarser than anything
  have hunknown : ∀ p ∈ s.outputPorts, ∀ f,
      (portFact p f (s.outputPorts.map .outputUnknown)).Coarser (portFact p f ws') := by
    intro p hp f
    rw [portFact_unknowns, if_pos hp]
    exact Fact.coarser_unknown _
  cases ho with
  | same hkind hattributes =>
    have hattr : s.attributes = s'.attributes := ha.trans (hattributes.trans ha'.symm)
    obtain ⟨e, he, hfind, hreq, hws⟩ := (verdict_standard hi').1 hv
    rw [← hkind] at hfind
    rw [← hattr] at hreq
    by_cases hu : s.hasUnknownInput = true
    · refine ⟨_, (verdict_standard hi).2 ⟨e, he, hfind, hreq, ?_⟩, hunknown⟩
      rw [if_pos hu]
    · rw [if_neg fun hu' => hu (h.hasUnknownInput hu')] at hws
      obtain ⟨ws, hev, hcoarser⟩ :=
        (standardRule_of_mem he).coarser (h.filled hu hattr e) hs hs' hws
      refine ⟨ws, (verdict_standard hi).2 ⟨e, he, hfind, hreq, ?_⟩, fun p _ => hcoarser p⟩
      rw [if_neg hu]
      exact hev
  | @parameter a a' hk hk' hshape hshape' hcoarser =>
    rw [Operation.shape?, ← ha] at hshape
    rw [Operation.shape?, ← ha'] at hshape'
    rw [hk'] at hv
    rw [hk]
    have hws := (verdict_parameter hi' hshape').1 hv
    by_cases hu : s.hasUnknownInput = true
    · refine ⟨_, (verdict_parameter hi hshape).2 ?_, hunknown⟩
      rw [if_pos hu]
    · rw [if_neg fun hu' => hu (h.hasUnknownInput hu')] at hws
      obtain ⟨hvalid, rfl⟩ := hws
      refine ⟨[.outputShape 0 a], (verdict_parameter hi hshape).2 ?_, fun p _ f => ?_⟩
      · rw [if_neg hu]
        exact ⟨hcoarser.valid hvalid, rfl⟩
      · have hnone : ∀ t, (none : Option Tensor) = some t → (none : Option Tensor) = some t :=
          fun _ ht => ht
        exact portFact_shaped_coarser hcoarser (folds_none a) (folds_none a') hnone f
  | @constant a t hk hk' hshape hvalue hcoarser =>
    rw [Operation.shape?, ← ha] at hshape
    rw [Operation.value?, ← ha'] at hvalue
    rw [hk'] at hv
    rw [hk]
    rw [verdict_of_value (Attribute.bind_toTensor?.1 hvalue) hi'] at hv
    by_cases hu : s.hasUnknownInput = true
    · refine ⟨_, (verdict_parameter hi hshape).2 ?_, hunknown⟩
      rw [if_pos hu]
    · rw [if_neg fun hu' => hu (h.hasUnknownInput hu')] at hv
      obtain rfl := Except.ok.inj hv
      refine ⟨[.outputShape 0 a], (verdict_parameter hi hshape).2 ?_, fun p _ f => ?_⟩
      · rw [if_neg hu]
        refine ⟨hcoarser.valid fun d hd => ?_, rfl⟩
        have := t.dims_nonneg d hd
        omega
      · -- the shape of the value is said in both graphs
        by_cases hp : 0 = p
        · subst hp
          simp only [portFact_cons, portFact_nil, Write.tells, if_true, Fact.told,
            Fact.update_ofShape]
          exact Fact.coarser_ofShape (f.shape_update t) hcoarser
        · simp only [portFact_cons, portFact_nil, Write.tells, if_neg hp, Fact.told]
          exact .refl f

end Registry

/-! ### The two runs -/

/-- Two graphs on the way through the same order, with `rest` to come: the first one says less of
the operations to come, and of what they read and write nothing is known that is not known in the
second one. -/
structure Refines (rest : List NodeId) (g g' : Graph) : Prop where
  links : g.links = g'.links
  frame : ∀ id, g.frame id = g'.frame id
  op : ∀ {id : NodeId} {o o' : Operation}, id ∈ rest → g.op? id = some o → g'.op? id = some o' →
    o.Forgets o' ∧ o.attributes.find? "infer" = none ∧ o'.attributes.find? "infer" = none
  shape : ∀ {d : NodeId} {f f' : Fact}, g.fact? d = some f → g'.fact? d = some f' →
    f.ShapeCoarser f'
  value : ∀ {e : Edge} {f f' : Fact}, e ∈ g.edges → e.dst ∈ rest → g.fact? e.src = some f →
    g'.fact? e.src = some f' → f.Coarser f'
  fresh : ∀ {e : Edge}, e ∈ g.edges → e.src ∈ rest → g.fact? e.dst = g'.fact? e.dst
  shaped : ∀ {d : NodeId} {f : Fact}, g.fact? d = some f → f.Shaped
  shaped' : ∀ {d : NodeId} {f : Fact}, g'.fact? d = some f → f.Shaped

lemma Graph.isSome_op?_of_frame {g g' : Graph} (hf : ∀ id, g.frame id = g'.frame id) (id : NodeId) :
    (g.op? id).isSome = (g'.op? id).isSome := by
  have h : ∀ g : Graph, (g.op? id).isSome = (g.frame id).any (·.2) := fun g => by
    unfold Graph.op? Graph.frame
    rcases g.node? id with _ | ⟨n, o | f⟩ <;> rfl
  rw [h, h, hf]

lemma Graph.isSome_fact?_of_frame {g g' : Graph} (hf : ∀ id, g.frame id = g'.frame id)
    (id : NodeId) : (g.fact? id).isSome = (g'.fact? id).isSome := by
  have h : ∀ g : Graph, (g.fact? id).isSome = (g.frame id).any (!·.2) := fun g => by
    unfold Graph.fact? Graph.frame
    rcases g.node? id with _ | ⟨n, o | f⟩ <;> rfl
  rw [h, h, hf]

namespace Refines

variable {g g' : Graph} {rest done : List NodeId} {id : NodeId}

lemma tail (h : Refines (id :: rest) g g') : Refines rest g g' where
  links := h.links
  frame := h.frame
  op hid := h.op (List.mem_cons_of_mem _ hid)
  shape := h.shape
  value he hdst := h.value he (List.mem_cons_of_mem _ hdst)
  fresh he hsrc := h.fresh he (List.mem_cons_of_mem _ hsrc)
  shaped := h.shaped
  shaped' := h.shaped'

/-- The scenes of the next operation. -/
lemma blurs (h : Refines (id :: rest) g g') (hg : g.WellFormed) (hg' : g'.WellFormed)
    {o o' : Operation} (ho : g.op? id = some o) (ho' : g'.op? id = some o')
    (name name' : String) (a a' : Attributes) :
    (g.scene id name a).Blurs (g'.scene id name' a') := by
  have hin : g.inSource id = g'.inSource id := funext fun p => by
    unfold Graph.inSource
    rw [Graph.incoming_congr h.links]
  constructor
  · exact congrArg (List.map _) (Graph.incoming_congr h.links)
  · exact congrArg (List.map _) (Graph.outgoing_congr h.links)
  · funext p
    show g.inputIsShared id p = g'.inputIsShared id p
    rw [Graph.inputIsShared_eq hg ho, Graph.inputIsShared_eq hg' ho', hin]
    rcases g'.inSource id p with _ | d
    · rfl
    · simp only [Graph.outgoing_congr h.links]
  · intro p f hf
    rw [Graph.scene_inputFact ho] at hf
    rcases hs : g.inSource id p with _ | d
    · rw [hs] at hf
      cases hf
    · obtain ⟨e, he, hdst, rfl, -⟩ := (Graph.inSource_eq_some hg).1 hs
      exact List.mem_map_of_mem (Graph.mem_incoming.2 ⟨he, hdst⟩)
  · intro p f' hf'
    rw [Graph.scene_inputFact ho', ← hin] at hf'
    rw [Graph.scene_inputFact ho]
    rcases hs : g.inSource id p with _ | d
    · rw [hs] at hf'
      cases hf'
    · rw [hs] at hf'
      obtain ⟨e, he, hdst, -, rfl⟩ := (Graph.inSource_eq_some hg).1 hs
      obtain ⟨f, hf⟩ := Graph.ends_of_op_dst hg he (hdst ▸ ho)
      exact ⟨f, Graph.fact_eq_ok.2 hf, h.value he (hdst ▸ List.mem_cons_self ..) hf
        (Graph.fact_eq_ok.1 hf')⟩

lemma scene_shaped {g : Graph} {o : Operation} (ho : g.op? id = some o)
    (hshaped : ∀ {d : NodeId} {f : Fact}, g.fact? d = some f → f.Shaped) (name : String) :
    (g.scene id name o.attributes).Shaped := by
  intro p f hf
  rw [Graph.scene_inputFact ho] at hf
  rcases hs : g.inSource id p with _ | d
  · rw [hs] at hf
    cases hf
  · rw [hs] at hf
    exact hshaped (Graph.fact_eq_ok.1 hf)

lemma edges (h : Refines rest g g') : g'.edges = g.edges := (Graph.edges_congr h.links).symm

lemma sources (h : Refines rest g g') : g'.sources = g.sources := funext fun i => by
  unfold Graph.sources
  rw [Graph.incoming_congr h.links]

section

variable (h : Refines (id :: rest) g g') (hg : Registry.Runnable g) (hg' : Registry.Runnable g')
  {o o' : Operation} (ho : g.op? id = some o) (ho' : g'.op? id = some o') {name name' : String}
  {ws ws' : List Write} (hcoarser : ∀ p ∈ (g.scene id name o.attributes).outputPorts, ∀ f,
    (portFact p f ws).Coarser (portFact p f ws')) {f f' : Fact}

include h hg hg' ho ho' hcoarser

/-- Of an output of the operation both graphs say something. -/
lemma settle_output {e : Edge} (he : e ∈ g.edges) (hsrc : e.src = id)
    (hf : (g.settle id ws).fact? e.dst = some f) (hf' : (g'.settle id ws').fact? e.dst = some f') :
    f.Coarser f' := by
  rw [Graph.fact?_settle_out hg.wellFormed ho (hg.apart id) he hsrc] at hf
  rw [Graph.fact?_settle_out hg'.wellFormed ho' (hg'.apart id) (h.edges ▸ he) hsrc,
    ← h.fresh he (hsrc ▸ List.mem_cons_self ..)] at hf'
  obtain ⟨f₀, hf₀, rfl⟩ := Option.map_eq_some_iff.1 hf
  rw [hf₀] at hf'
  cases hf'
  exact hcoarser _ (List.mem_map_of_mem (Graph.mem_outgoing.2 ⟨he, hsrc⟩)) f₀

lemma settle_shape (hsafe : Safe (g.scene id name o.attributes) ws)
    (hsafe' : Safe (g'.scene id name' o'.attributes) ws') {d : NodeId}
    (hf : (g.settle id ws).fact? d = some f) (hf' : (g'.settle id ws').fact? d = some f') :
    f.ShapeCoarser f' := by
  by_cases hd : ∃ e ∈ g.edges, e.src = id ∧ e.dst = d
  · obtain ⟨e, he, hsrc, rfl⟩ := hd
    exact (h.settle_output hg hg' ho ho' hcoarser he hsrc hf hf').shape
  · have hd₁ : ∀ e ∈ g.edges, e.src = id → e.dst ≠ d :=
      fun e he hsrc hdst => hd ⟨e, he, hsrc, hdst⟩
    obtain ⟨f₀, hf₀, hshape⟩ :=
      (hsafe.settle hg.wellFormed ho (hg.apart id) h.shaped hf).2 hd₁
    obtain ⟨f₀', hf₀', hshape'⟩ :=
      (hsafe'.settle hg'.wellFormed ho' (hg'.apart id) h.shaped' hf').2 (h.edges ▸ hd₁)
    intro a ha
    rw [hshape] at ha
    rw [hshape']
    exact h.shape hf₀ hf₀' a ha

/-- Less is known of what operations to come read. -/
lemma settle_input {e : Edge} (he : e ∈ g.edges) (hdst : e.dst ∈ rest) (hne : e.dst ≠ id)
    (hf : (g.settle id ws).fact? e.src = some f) (hf' : (g'.settle id ws').fact? e.src = some f') :
    f.Coarser f' := by
  by_cases hd : ∃ e' ∈ g.edges, e'.src = id ∧ e'.dst = e.src
  · obtain ⟨e', he', hsrc, heq⟩ := hd
    exact h.settle_output hg hg' ho ho' hcoarser he' hsrc (heq ▸ hf) (heq ▸ hf')
  · have hd₁ : ∀ e' ∈ g.edges, e'.src = id → e'.dst ≠ e.src :=
      fun e' he' hsrc heq => hd ⟨e', he', hsrc, heq⟩
    rw [Graph.fact?_settle_of_reader hg.wellFormed ho hd₁ he rfl hne] at hf
    rw [Graph.fact?_settle_of_reader hg'.wellFormed ho' (h.edges ▸ hd₁)
      (h.edges ▸ he) rfl hne] at hf'
    exact h.value he (List.mem_cons_of_mem id hdst) hf hf'

end

/-- One visit in both runs. -/
lemma visit (h : Refines (id :: rest) g g') (hg : Registry.Runnable g) (hg' : Registry.Runnable g')
    (hready : g.Ready done (id :: rest)) (hclosed : ∀ i ∈ done, g.sources i ⊆ done) {k' : Graph}
    (hk' : Registry.standard.visit g' id = .ok k') :
    ∃ k, Registry.standard.visit g id = .ok k ∧ Refines rest k k' := by
  have hsome := Graph.isSome_op?_of_frame h.frame id
  rcases Registry.visit_eq_ok.1 hk' with ⟨hop', rfl⟩ | ⟨name', o', ws', hn', hv', rfl⟩
  · -- a data node is passed over
    rw [hop'] at hsome
    exact ⟨g, Registry.visit_eq_ok.2 (Or.inl ⟨by simpa using hsome, rfl⟩), h.tail⟩
  have ho' : g'.op? id = some o' := Graph.op?_eq_some.2 ⟨name', hn'⟩
  rw [ho'] at hsome
  obtain ⟨o, ho⟩ := Option.isSome_iff_exists.1 hsome
  obtain ⟨name, hn⟩ := Graph.op?_eq_some.1 ho
  obtain ⟨hforgets, hplain, hplain'⟩ := h.op (List.mem_cons_self ..) ho ho'
  have hs := scene_shaped ho h.shaped name
  have hs' := scene_shaped ho' h.shaped' name'
  obtain ⟨ws, hv, hcoarser⟩ := Registry.verdict_forgets hforgets
    (h.blurs hg.wellFormed hg'.wellFormed ho ho' name name' o.attributes o'.attributes) rfl rfl
    hplain hplain' hs hs' hv'
  have hsafe := Registry.safe_verdict hs hplain hv
  have hsafe' := Registry.safe_verdict hs' hplain' hv'
  refine ⟨(g.settle id ws).unmark id, Registry.visit_eq_ok.2
    (Or.inr ⟨name, o, ws, hn, hv, rfl⟩), ?_⟩
  have hready' : g'.Ready done (id :: rest) := hready.congr fun i => congrFun h.sources i
  have hclosed' : ∀ i ∈ done, g'.sources i ⊆ done := h.sources ▸ hclosed
  have hnotin : id ∉ rest := (List.nodup_cons.1 hready.nodup).1
  have hskel : ((g.settle id ws).unmark id).skeleton = g.skeleton := by
    rw [Graph.skeleton_unmark, Graph.skeleton_settle]
  have hskel' : ((g'.settle id ws').unmark id).skeleton = g'.skeleton := by
    rw [Graph.skeleton_unmark, Graph.skeleton_settle]
  constructor
  · rw [Graph.links_of_skeleton hskel, Graph.links_of_skeleton hskel', h.links]
  · intro i
    rw [Graph.frame_of_skeleton hskel, Graph.frame_of_skeleton hskel', h.frame]
  · -- operations to come
    intro j p p' hj hp hp'
    have hne : j ≠ id := fun heq => hnotin (heq ▸ hj)
    unfold Graph.unmark at hp hp'
    rw [Graph.op?_modifyOp, if_neg hne,
      Graph.op?_settle_of_later hready hclosed hg.wellFormed hj] at hp
    rw [Graph.op?_modifyOp, if_neg hne,
      Graph.op?_settle_of_later hready' hclosed' hg'.wellFormed hj] at hp'
    exact h.op (List.mem_cons_of_mem id hj) hp hp'
  · intro d f f' hf hf'
    rw [Graph.fact?_unmark] at hf hf'
    exact h.settle_shape hg hg' ho ho' hcoarser hsafe hsafe' hf hf'
  · intro e f f' he hdst hf hf'
    rw [Graph.edges_of_skeleton hskel] at he
    rw [Graph.fact?_unmark] at hf hf'
    exact h.settle_input hg hg' ho ho' hcoarser he hdst (fun heq => hnotin (heq ▸ hdst)) hf hf'
  · -- what operations to come write
    intro e he hsrc
    rw [Graph.edges_of_skeleton hskel] at he
    rw [Graph.fact?_unmark, Graph.fact?_unmark,
      Graph.fact?_settle_of_later hready hclosed hg.wellFormed ho he hsrc,
      Graph.fact?_settle_of_later hready' hclosed' hg'.wellFormed ho' (h.edges ▸ he) hsrc]
    exact h.fresh he (List.mem_cons_of_mem id hsrc)
  · intro d f hf
    rw [Graph.fact?_unmark] at hf
    exact (hsafe.settle hg.wellFormed ho (hg.apart id) h.shaped hf).1
  · intro d f hf
    rw [Graph.fact?_unmark] at hf
    exact (hsafe'.settle hg'.wellFormed ho' (hg'.apart id) h.shaped' hf).1

lemma sweep {l : List NodeId} (h : Refines l g g') (hg : Registry.Runnable g)
    (hg' : Registry.Runnable g') (hready : g.Ready done l)
    (hclosed : ∀ i ∈ done, g.sources i ⊆ done) {k' : Graph}
    (hk' : Registry.standard.sweep g' l = .ok k') :
    ∃ k, Registry.standard.sweep g l = .ok k ∧ Refines [] k k' := by
  induction l generalizing g g' done with
  | nil =>
    cases hk'
    exact ⟨g, rfl, h⟩
  | cons id rest ih =>
    obtain ⟨g₁', hg₁', hk'⟩ := Registry.sweep_cons_eq_ok.1 hk'
    obtain ⟨g₁, hg₁, h₁⟩ := h.visit hg hg' hready hclosed hg₁'
    have hskel := Registry.skeleton_visit hg₁
    have hsources := Graph.sources_of_skeleton hskel
    have hclosed₁ : ∀ i ∈ id :: done, g₁.sources i ⊆ id :: done := by
      intro i hi
      rw [hsources]
      rcases List.mem_cons.1 hi with rfl | hi
      · exact List.subset_cons_of_subset _ hready.2.1
      · exact List.subset_cons_of_subset _ (hclosed i hi)
    obtain ⟨k, hk, hrefines⟩ := ih h₁ (hg.of_skeleton hskel)
      (hg'.of_skeleton (Registry.skeleton_visit hg₁')) (hready.2.2.congr hsources) hclosed₁ hk'
    exact ⟨k, Registry.sweep_cons_eq_ok.2 ⟨g₁, hg₁, hk⟩, hrefines⟩

end Refines

/-! ### Monotonicity -/

/-- A graph with every operation marked: its operations are those it had. -/
lemma Graph.op?_of_flagged {g k : Graph} {l : List NodeId}
    (hk : k.Alike (g.flagOps l)) {id : NodeId}
    {o : Operation} (ho : k.op? id = some o) :
    ∃ o₀, g.op? id = some o₀ ∧ o.kind = o₀.kind ∧ o.attributes = o₀.attributes := by
  rw [hk.op?, op?_flagOps] at ho
  split at ho
  · obtain ⟨o₀, ho₀, rfl⟩ := Option.map_eq_some_iff.1 ho
    exact ⟨o₀, ho₀, rfl, rfl⟩
  · exact ⟨o, ho, rfl, rfl⟩

lemma Operation.Forgets.congr {o o' p p' : Operation} (h : o.Forgets o') (hk : p.kind = o.kind)
    (ha : p.attributes = o.attributes) (hk' : p'.kind = o'.kind)
    (ha' : p'.attributes = o'.attributes) : p.Forgets p' := by
  cases h with
  | same hkind hattributes =>
    exact .same (hk.trans (hkind.trans hk'.symm)) (ha.trans (hattributes.trans ha'.symm))
  | parameter hkind hkind' hshape hshape' hcoarser =>
    refine .parameter (hk.trans hkind) (hk'.trans hkind') ?_ ?_ hcoarser
    · rw [Operation.shape?, ha]
      exact hshape
    · rw [Operation.shape?, ha']
      exact hshape'
  | constant hkind hkind' hshape hvalue hcoarser =>
    refine .constant (hk.trans hkind) (hk'.trans hkind') ?_ ?_ hcoarser
    · rw [Operation.shape?, ha]
      exact hshape
    · rw [Operation.value?, ha']
      exact hvalue

lemma Graph.noOverrides_of_flagged {g k : Graph} {l : List NodeId} (hk : k.Alike (g.flagOps l))
    (hover : g.NoOverrides) : k.NoOverrides := by
  intro id o ho
  obtain ⟨o₀, ho₀, -, ha⟩ := op?_of_flagged hk ho
  rw [ha]
  exact hover ho₀

/-- The graphs with all operations marked, at the start of both runs. -/
lemma refines_of_forgets {g g' k k' : Graph} {l : List NodeId} (h : g.Forgets g')
    (hk : k.Alike (g.flagOps g.opNodes)) (hk' : k'.Alike (g'.flagOps g'.opNodes))
    (hover : g.NoOverrides) (hover' : g'.NoOverrides) (hshaped : g'.Shaped) : Refines l k k' := by
  have hskel : k.skeleton = g.skeleton := hk.skeleton.trans Graph.skeleton_flagOps
  have hskel' : k'.skeleton = g'.skeleton := hk'.skeleton.trans Graph.skeleton_flagOps
  have hfact : ∀ d, k.fact? d = g'.fact? d := fun d => by
    rw [hk.fact?, Graph.fact?_flagOps, h.fact]
  have hfact' : ∀ d, k'.fact? d = g'.fact? d := fun d => by
    rw [hk'.fact?, Graph.fact?_flagOps]
  have hvalues : ∀ {d : NodeId} {f : Fact}, g'.fact? d = some f → f.Shaped :=
    fun hf t ht => hshaped hf ht
  have heq : ∀ {d : NodeId} {f f' : Fact}, k.fact? d = some f → k'.fact? d = some f' → f = f' :=
    fun hf hf' => by
      rw [hfact] at hf
      rw [hfact'] at hf'
      exact Option.some.inj (hf.symm.trans hf')
  constructor
  · rw [Graph.links_of_skeleton hskel, Graph.links_of_skeleton hskel', h.links]
  · intro id
    rw [Graph.frame_of_skeleton hskel, Graph.frame_of_skeleton hskel', h.frame]
  · intro id o o' _ ho ho'
    obtain ⟨o₀, ho₀, hkind, ha⟩ := Graph.op?_of_flagged hk ho
    obtain ⟨o₀', ho₀', hkind', ha'⟩ := Graph.op?_of_flagged hk' ho'
    exact ⟨(h.op ho₀ ho₀').congr hkind ha hkind' ha', Graph.noOverrides_of_flagged hk hover ho,
      Graph.noOverrides_of_flagged hk' hover' ho'⟩
  · intro d f f' hf hf'
    rw [heq hf hf']
    exact (Fact.Coarser.refl f').shape
  · intro e f f' _ _ hf hf'
    rw [heq hf hf']
    exact .refl f'
  · intro e _ _
    rw [hfact, hfact']
  · intro d f hf
    exact hvalues (hfact d ▸ hf)
  · intro d f hf
    exact hvalues (hfact' d ▸ hf)

/-- **Inference is monotone in information**: where inference succeeds, it succeeds with some
dimensions of parameters left open and some constants turned into parameters, and the shape it then
finds for a data node is unknown or that of the first inference with some dimensions unknown. -/
theorem inferAll_monotone {g g' h' : Graph} (hg' : g'.WellFormed) (h : g.Forgets g')
    (hover : g.NoOverrides) (hover' : g'.NoOverrides) (hshaped : g'.Shaped) {n' : Nat}
    (hx' : Edit.Gives Registry.standard.inferAll g' n' h') :
    ∃ n k, Edit.Gives Registry.standard.inferAll g n k ∧ ∀ d f, k.fact? d = some f →
      ∃ f', h'.fact? d = some f' ∧ f.ShapeCoarser f' := by
  obtain ⟨k₁', -, hk₁', hx'⟩ := Registry.gives_inferAll.1 hx'
  obtain ⟨k₁, hmark, hk₁⟩ := Edit.gives_flagOps Edit.gives_mark_op (g := g) (l := g.opNodes)
    fun _ hi => Graph.mem_opNodes.1 hi
  have hg : g.WellFormed := hg'.congr h.frame (Graph.edges_congr h.links)
  have hskel : k₁.skeleton = g.skeleton := hk₁.skeleton.trans Graph.skeleton_flagOps
  have hskel' : k₁'.skeleton = g'.skeleton := hk₁'.skeleton.trans Graph.skeleton_flagOps
  have hwf := hg.of_skeleton hskel
  have hwf' := hg'.of_skeleton hskel'
  have hflag : ∀ l, k₁.Flagged l := fun l => (g.flagged_flagOps l).alike hk₁.symm
  have hflag' : ∀ l, k₁'.Flagged l := fun l => (g'.flagged_flagOps l).alike hk₁'.symm
  obtain ⟨l, s', hl', hs', hls'⟩ :=
    Registry.sweep_of_gives Registry.local_standard hwf' hflag' hx'
  -- both graphs have the same order
  have hlive : ∀ id, (k₁.node? id).isSome = (k₁'.node? id).isSome := fun id => by
    rw [Graph.isSome_node?_of_skeleton hskel, Graph.isSome_node?_of_skeleton hskel']
    have hframe := congrArg Option.isSome (h.frame id)
    simpa [Graph.frame] using hframe
  have hlinks : k₁.links = k₁'.links := by
    rw [Graph.links_of_skeleton hskel, Graph.links_of_skeleton hskel', h.links]
  have hnext : k₁.nodes.next = k₁'.nodes.next := by
    rw [Graph.next_of_skeleton hskel, Graph.next_of_skeleton hskel', h.next]
  have hl := Graph.evalOrder_congr hlinks hnext hlive hl'
  obtain ⟨s, hs, hrefines⟩ := (refines_of_forgets h hk₁ hk₁' hover hover' hshaped).sweep
    (Registry.runnable_of_evalOrder hwf hl) (Registry.runnable_of_evalOrder hwf' hl')
    (Graph.ordered_of_evalOrder hl).ready (by simp) hs'
  obtain ⟨n, k, hx, hkl⟩ := Registry.gives_of_sweep Registry.local_standard hwf hflag hl hs
  refine ⟨n, k, Registry.gives_inferAll.2 ⟨k₁, hmark, hk₁, hx⟩, fun d f hf => ?_⟩
  rw [hkl.fact?] at hf
  obtain ⟨f', hf'⟩ : ∃ f', s'.fact? d = some f' := by
    rw [← Option.isSome_iff_exists, ← Graph.isSome_fact?_of_frame hrefines.frame, hf]
    rfl
  exact ⟨f', hls'.fact? d ▸ hf', hrefines.shape hf hf'⟩

/-! ### A graph with an open dimension -/

/-- Saying less of one operation. -/
lemma Graph.forgets_modifyOp {g : Graph} {id : NodeId} {u : Operation → Operation}
    (hu : ∀ o, g.op? id = some o → (u o).Forgets o) : (g.modifyOp id u).Forgets g where
  links := rfl
  next := by rw [nodes_modifyOp, Slots.next_modify]
  frame _ := frame_modifyOp ..
  fact _ := fact?_modifyOp ..
  op {j o o'} ho ho' := by
    rw [op?_modifyOp] at ho
    split at ho
    · next hj =>
      subst hj
      rw [ho'] at ho
      cases ho
      exact hu o' ho'
    · cases ho.symm.trans ho'
      exact .same rfl rfl

/-- A parameter of a shape and its sum with a constant. -/
def shiftedParameter (shape : Shape) : Edit Unit := do
  let a ← Edit.addParameter "a" shape
  let b ← Edit.addConst "b" (.i64 (.vector [5]))
  let _ ← Edit.addResult "r" (← Edit.wire "sum" (.ofKind "Add") [a, b])

/-- The graph of a parameter of a shape and its sum with a constant. -/
def shiftedGraph (shape : Shape) : Graph := ((shiftedParameter shape).run ∅).graph

/-- The first operation of the graph is the parameter. -/
lemma shape?_shiftedGraph : ((shiftedGraph [2, 3]).op? ⟨0⟩).map
    (fun o => (o.kind, o.shape?)) = some ("Parameter", some [2, 3]) := by
  decide +kernel

/-- The parameter of shape `[2, 3]` with its first dimension left open. -/
theorem inferAll_monotone_shiftedGraph :
    let g' := shiftedGraph [2, 3]
    let g := g'.modifyOp ⟨0⟩ (·.withAttribute "shape" (.ints [-1, 3]))
    ∃ n k, Edit.Gives Registry.standard.inferAll g n k ∧ ∀ d f, k.fact? d = some f →
      ∃ f', (Registry.standard.inferAll.run g').graph.fact? d = some f' ∧ f.ShapeCoarser f' := by
  intro g' g
  have hresult : (Registry.standard.inferAll.run g').result.toOption = some 4 := by decide +kernel
  have hx : Edit.Gives Registry.standard.inferAll g' 4
    (Registry.standard.inferAll.run g').graph := by
    refine ⟨?_, rfl⟩
    rcases hr : (Registry.standard.inferAll.run g').result with e | n
    · rw [hr] at hresult
      cases hresult
    · rw [hr] at hresult
      cases hresult
      rfl
  refine inferAll_monotone (by decide +kernel) (Graph.forgets_modifyOp fun o ho => ?_)
    (by decide +kernel) (by decide +kernel) (by decide +kernel) hx
  · have hshape := shape?_shiftedGraph
    rw [ho] at hshape
    obtain ⟨hkind, hshape⟩ := Prod.mk.inj (Option.some.inj hshape)
    refine .parameter hkind hkind ?_ hshape (.cons (Or.inl rfl) (Shape.Coarser.refl [3]))
    show ((o.attributes.insert "shape" (.ints [-1, 3])).find? "shape").bind (·.toInts?) = _
    rw [Dict.find?_insert, if_pos rfl]
    rfl

end TensorGraph
