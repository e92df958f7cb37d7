import TensorGraph.Proofs.Marks

/-!
Graphs that hold the same.

`Graph.Agrees g h` says that two graphs have the same links, labels, attributes and facts; marks,
revisions and stages may differ. What inference writes depends on no more than that, so graphs that
agree take up writes alike (`Agrees.settle`).
-/

namespace TensorGraph

/-- The attributes with one of them set, unless it has that value. -/
def Attributes.store (a : Attributes) (name : String) (value : Attribute) : Attributes :=
  if a.find? name == some value then a else a.insert name value

lemma Operation.attributes_store (o : Operation) (name : String) (value : Attribute) :
    (o.store name value).attributes = Attributes.store o.attributes name value := by
  unfold Operation.store Attributes.store
  split <;> rfl

namespace Graph

variable {g h k : Graph} {id op j d : NodeId} {p : Nat} {o : Operation}

/-! ### Attributes -/

/-- The attributes of an operation. -/
def attributes? (g : Graph) (id : NodeId) : Option Attributes := (g.op? id).map (·.attributes)

lemma attributes?_of_op? (ho : g.op? id = some o) : g.attributes? id = some o.attributes := by
  rw [attributes?, ho]
  rfl

lemma attributes?_congr (ho : h.op? id = g.op? id) : h.attributes? id = g.attributes? id :=
  congrArg (Option.map _) ho

lemma exists_op_of_attributes (ha : h.attributes? id = g.attributes? id) (ho : h.op? id = some o) :
    ∃ o', g.op? id = some o' ∧ o.attributes = o'.attributes := by
  rw [attributes?_of_op? ho] at ha
  obtain ⟨o', ho', heq⟩ := Option.map_eq_some_iff.1 ha.symm
  exact ⟨o', ho', heq.symm⟩

lemma attributes?_modifyOp (i : NodeId) {f : Operation → Operation} {u : Attributes → Attributes}
    (hf : ∀ o, (f o).attributes = u o.attributes) :
    (g.modifyOp i f).attributes? j =
      if j = i then (g.attributes? i).map u else g.attributes? j := by
  unfold attributes?
  rw [op?_modifyOp]
  split
  · rw [Option.map_map, Option.map_map]
    exact congrArg (fun f => Option.map f (g.op? i)) (funext hf)
  · rfl

lemma attributes?_store (i : NodeId) (name : String) (value : Attribute) :
    (g.modifyOp i (·.store name value)).attributes? j =
      if j = i then (g.attributes? i).map (Attributes.store · name value) else g.attributes? j :=
  attributes?_modifyOp i (u := (Attributes.store · name value)) (·.attributes_store name value)

@[simp] lemma attributes?_modifyFact (d : NodeId) (f : Fact → Fact) :
    (g.modifyFact d f).attributes? j = g.attributes? j := attributes?_congr (op?_modifyFact ..)

@[simp] lemma attributes?_writeOut (f : Fact) :
    (g.writeOut op p f).attributes? j = g.attributes? j := attributes?_congr (op?_writeOut f)

/-- A mark is no attribute. -/
lemma attributes?_flag (i : NodeId) (b : Bool) :
    (g.modifyOp i fun o => { o with needsInference := b }).attributes? j = g.attributes? j := by
  have hf : ∀ o : Operation, ({ o with needsInference := b } : Operation).attributes =
      id o.attributes := fun _ => rfl
  rw [attributes?_modifyOp i hf, Option.map_id]
  split
  · next h => rw [h, id]
  · rfl

@[simp] lemma attributes?_unmark (i : NodeId) : (g.unmark i).attributes? j = g.attributes? j :=
  attributes?_flag i false

@[simp] lemma attributes?_flagOps {l : List NodeId} :
    (g.flagOps l).attributes? j = g.attributes? j := by
  induction l generalizing g with
  | nil => rfl
  | cons i l ih => exact ih.trans (attributes?_flag i true)

/-- The constant that feeds an input that no other operation reads. -/
def feeder? (g : Graph) (op : NodeId) (p : Nat) : Option NodeId :=
  (g.inSource op p).bind fun d =>
    if 1 < (g.outgoing d).length then none
    else ((g.incoming d).head?.map (·.src)).filter fun i => g.kind? i = some "Const"

lemma feeder?_of_skeleton (hs : h.skeleton = g.skeleton) (op : NodeId) (p : Nat) :
    h.feeder? op p = g.feeder? op p := by
  unfold feeder?
  rw [inSource_of_skeleton hs]
  simp only [outgoing_of_skeleton hs, incoming_of_skeleton hs, kind?_of_skeleton hs]

lemma feeder?_eq_some (hg : g.WellFormed) (ho : g.op? op = some o) :
    g.feeder? op p = some j ↔ ∃ e ∈ g.edges, e.dst = op ∧ e.inp = p ∧
      (g.outgoing e.src).length ≤ 1 ∧
      g.kind? j = some "Const" ∧ ∃ e' ∈ g.edges, e'.dst = e.src ∧ e'.src = j := by
  unfold feeder?
  rw [Option.bind_eq_some_iff]
  constructor
  · rintro ⟨d, hd, hj⟩
    obtain ⟨e, he, hdst, hinp, rfl⟩ := (inSource_eq_some hg).1 hd
    split at hj
    · cases hj
    · next hl =>
      obtain ⟨hhead, hkind⟩ := Option.filter_eq_some_iff.1 hj
      obtain ⟨e', hmem, rfl⟩ := Option.map_eq_some_iff.1 hhead
      obtain ⟨he', hdst'⟩ := mem_incoming.1 (List.mem_of_mem_head? hmem)
      exact ⟨e, he, hdst, hinp, Nat.le_of_not_lt hl, by simpa using hkind, e', he', hdst', rfl⟩
  · rintro ⟨e, he, hdst, hinp, hl, hkind, e', he', hdst', rfl⟩
    refine ⟨e.src, (inSource_eq_some hg).2 ⟨e, he, hdst, hinp, rfl⟩, ?_⟩
    rw [if_neg (Nat.not_lt_of_le hl), Option.filter_eq_some_iff]
    refine ⟨Option.map_eq_some_iff.2 ⟨e', ?_, rfl⟩, by simpa using hkind⟩
    -- data have one producer
    obtain ⟨f, hf⟩ := ends_of_op_dst hg he (hdst ▸ ho)
    rcases hin : g.incoming e.src with _ | ⟨e₁, l⟩
    · exact absurd (mem_incoming.2 ⟨he', hdst'⟩) (by simp [hin])
    · obtain ⟨he₁, hdst₁⟩ := mem_incoming.1 (show e₁ ∈ g.incoming e.src by simp [hin])
      rw [eq_of_dst_eq hg he' he₁ (hdst'.trans hdst₁.symm) (hdst' ▸ hf)]
      rfl

lemma attributes?_storeProducer (value : Tensor) : (g.storeProducer d value).attributes? j =
    if ((g.incoming d).head?.map (·.src)).filter (fun i => g.kind? i = some "Const") = some j then
      (g.attributes? j).map (Attributes.store · "value" (.tensor value))
    else g.attributes? j := by
  unfold storeProducer
  rcases (g.incoming d).head? with _ | e
  · rfl
  · simp only [Option.map_some, Option.filter_some, decide_eq_true_eq]
    by_cases hk : g.kind? e.src = some "Const"
    · have hconst : ∀ o, g.op? e.src = some o → (o.kind == "Const") = true := fun o ho => by
        simpa [kind?, ho] using hk
      have hstore : (g.modifyOp e.src fun o =>
          if o.kind == "Const" then o.store "value" (.tensor value) else o) =
          g.modifyOp e.src (·.store "value" (.tensor value)) :=
        modifyOp_congr fun o ho => if_pos (hconst o ho)
      rw [hstore, attributes?_store, if_pos hk]
      by_cases hj : j = e.src
      · rw [hj, if_pos rfl, if_pos rfl]
      · rw [if_neg hj, if_neg fun h => hj (Option.some.inj h).symm]
    · rw [modifyOp_eq_self fun o ho => ?_, if_neg hk, if_neg (by simp)]
      refine if_neg fun h => hk ?_
      rw [kind?, ho, Option.map_some, eq_of_beq h]

lemma attributes?_writeIn (value : Tensor) : (g.writeIn op p value).attributes? j =
    if g.feeder? op p = some j then
      (g.attributes? j).map (Attributes.store · "value" (.tensor value))
    else g.attributes? j := by
  unfold writeIn feeder?
  rcases g.inSource op p with _ | d
  · rfl
  · simp only [Option.bind_some]
    split
    · rfl
    · rw [attributes?_modifyFact, attributes?_storeProducer]

/-! ### Node by node

What a write makes of the fact or the attributes of a node depends on the links and labels, and on
what the node held before. -/

lemma fact?_absorb_congr (hs : h.skeleton = g.skeleton) (hd : h.fact? d = g.fact? d) (w : Write) :
    (h.absorb op w).fact? d = (g.absorb op w).fact? d := by
  have hout : ∀ (p : Nat) (f : Fact),
      (h.writeOut op p f).fact? d = (g.writeOut op p f).fact? d := fun p f => by
    rw [fact?_writeOut, fact?_writeOut, outTarget_of_skeleton hs, hd]
  cases w with
  | attr name value => exact (fact?_modifyOp ..).trans (hd.trans (fact?_modifyOp ..).symm)
  | inputValue p value =>
    show (h.writeIn op p value).fact? d = (g.writeIn op p value).fact? d
    rw [fact?_writeIn, fact?_writeIn, inSource_of_skeleton hs, outgoing_of_skeleton hs, hd]
  | outputShape p shape => exact hout p _
  | outputValue p value => exact hout p _
  | outputUnknown p => exact hout p _

lemma attributes?_absorb_congr (hs : h.skeleton = g.skeleton)
    (hj : h.attributes? j = g.attributes? j) (w : Write) :
    (h.absorb op w).attributes? j = (g.absorb op w).attributes? j := by
  have hout : ∀ (p : Nat) (f : Fact),
      (h.writeOut op p f).attributes? j = (g.writeOut op p f).attributes? j := fun p f => by
    rw [attributes?_writeOut, attributes?_writeOut, hj]
  cases w with
  | attr name value =>
    show (h.modifyOp op _).attributes? j = (g.modifyOp op _).attributes? j
    rw [attributes?_store, attributes?_store]
    split
    · next heq => rw [← heq, hj]
    · exact hj
  | inputValue p value =>
    show (h.writeIn op p value).attributes? j = (g.writeIn op p value).attributes? j
    rw [attributes?_writeIn, attributes?_writeIn, feeder?_of_skeleton hs, hj]
  | outputShape p shape => exact hout p _
  | outputValue p value => exact hout p _
  | outputUnknown p => exact hout p _

lemma fact?_settle_congr (hs : h.skeleton = g.skeleton) (hd : h.fact? d = g.fact? d)
    (ws : List Write) : (h.settle op ws).fact? d = (g.settle op ws).fact? d := by
  induction ws generalizing g h with
  | nil => exact hd
  | cons w ws ih =>
    exact ih (by rw [skeleton_absorb, skeleton_absorb, hs]) (fact?_absorb_congr hs hd w)

lemma attributes?_settle_congr (hs : h.skeleton = g.skeleton)
    (hj : h.attributes? j = g.attributes? j) (ws : List Write) :
    (h.settle op ws).attributes? j = (g.settle op ws).attributes? j := by
  induction ws generalizing g h with
  | nil => exact hj
  | cons w ws ih =>
    exact ih (by rw [skeleton_absorb, skeleton_absorb, hs]) (attributes?_absorb_congr hs hj w)

/-- An operation keeps its attributes when another one is inferred that it is no feeder of. -/
lemma attributes?_settle_of_not_feeding (hj : j ≠ op) (hf : ∀ p, g.feeder? op p ≠ some j)
    (ws : List Write) : (g.settle op ws).attributes? j = g.attributes? j := by
  induction ws generalizing g with
  | nil => rfl
  | cons w ws ih =>
    have hw : (g.absorb op w).attributes? j = g.attributes? j := by
      cases w with
      | attr name value => exact (attributes?_store ..).trans (if_neg hj)
      | inputValue p value => exact (attributes?_writeIn value).trans (if_neg (hf p))
      | outputShape p shape => exact attributes?_writeOut _
      | outputValue p value => exact attributes?_writeOut _
      | outputUnknown p => exact attributes?_writeOut _
    refine (ih fun p => ?_).trans hw
    rw [feeder?_of_skeleton (skeleton_absorb w)]
    exact hf p

/-! ### Agreement -/

/-- The graphs have the same links, labels, attributes and facts. -/
structure Agrees (g h : Graph) : Prop where
  skeleton : g.skeleton = h.skeleton
  attributes : ∀ id, g.attributes? id = h.attributes? id
  fact : ∀ d, g.fact? d = h.fact? d

lemma Agrees.refl (g : Graph) : g.Agrees g := ⟨rfl, fun _ => rfl, fun _ => rfl⟩

lemma Agrees.symm (ha : g.Agrees h) : h.Agrees g :=
  ⟨ha.skeleton.symm, fun id => (ha.attributes id).symm, fun d => (ha.fact d).symm⟩

lemma Agrees.trans (ha : g.Agrees h) (hb : h.Agrees k) : g.Agrees k :=
  ⟨ha.skeleton.trans hb.skeleton, fun id => (ha.attributes id).trans (hb.attributes id),
    fun d => (ha.fact d).trans (hb.fact d)⟩

instance : Trans Agrees Agrees Agrees := ⟨Agrees.trans⟩

lemma Alike.agrees (hl : g.Alike h) : g.Agrees h :=
  ⟨hl.skeleton, fun id => attributes?_congr (hl.op? id), hl.fact?⟩

lemma agrees_unmark (g : Graph) (id : NodeId) : (g.unmark id).Agrees g :=
  ⟨skeleton_unmark g id, fun _ => attributes?_unmark id, fun _ => fact?_unmark ..⟩

lemma agrees_flagOps (g : Graph) (l : List NodeId) : (g.flagOps l).Agrees g :=
  ⟨skeleton_flagOps, fun _ => attributes?_flagOps, fun _ => fact?_flagOps⟩

/-- Graphs that agree take up writes alike. -/
lemma Agrees.settle (ha : g.Agrees h) (ws : List Write) :
    (g.settle op ws).Agrees (h.settle op ws) where
  skeleton := by rw [skeleton_settle, skeleton_settle, ha.skeleton]
  attributes j := attributes?_settle_congr ha.skeleton (ha.attributes j) ws
  fact d := fact?_settle_congr ha.skeleton (ha.fact d) ws

/-- An operation of one graph is one of the other, with the same name and kind. -/
lemma exists_op_of_label (hs : h.skeleton = g.skeleton) {name : String}
    (hn : g.node? id = some ⟨name, .op o⟩) :
    ∃ o', h.node? id = some ⟨name, .op o'⟩ ∧ o'.kind = o.kind := by
  obtain ⟨⟨name', o' | f⟩, hn', hlabel⟩ := exists_of_skeleton hs hn
  · simp only [Node.label, Node.operation?, Option.map_some, Prod.mk.injEq, Option.some.injEq]
      at hlabel
    obtain ⟨rfl, hkind, -⟩ := hlabel
    exact ⟨o', hn', hkind⟩
  · simp [Node.label, Node.operation?] at hlabel

/-- An operation of one graph is one of the other, with the same name, kind and attributes. -/
lemma exists_op_of_skeleton (hs : h.skeleton = g.skeleton)
    (ha : h.attributes? id = g.attributes? id) {name : String}
    (hn : g.node? id = some ⟨name, .op o⟩) : ∃ o', h.node? id = some ⟨name, .op o'⟩ ∧
      o'.kind = o.kind ∧ o'.attributes = o.attributes := by
  obtain ⟨o', hn', hkind⟩ := exists_op_of_label hs hn
  refine ⟨o', hn', hkind, ?_⟩
  rw [attributes?_of_op? (op?_eq_some.2 ⟨_, hn⟩), attributes?_of_op? (op?_eq_some.2 ⟨_, hn'⟩)] at ha
  exact Option.some.inj ha

lemma Agrees.scene (ha : g.Agrees h) (hg : g.WellFormed) (ho : g.op? op = some o) (name : String)
    (attributes : Attributes) : h.scene op name attributes = g.scene op name attributes :=
  scene_congr hg ha.skeleton.symm ho (fun _ d _ => (ha.fact d).symm) name attributes

end Graph

/-! ### Checking agreement

Equality of tensors says less than that they are the same: floats may differ, and so may the order
in memory. What is checked has to be free of both. -/

lemma Grid.beq_iff {α : Type} [BEq α] [LawfulBEq α] {g g' : Grid α} :
    (g == g') = true ↔ g.shape = g'.shape ∧ g.cells = g'.cells := by
  show (g.shape == g'.shape && g.cells == g'.cells) = true ↔ _
  rw [Bool.and_eq_true, beq_iff_eq, beq_iff_eq]

/-- No element is a float, and the elements lie in memory as they are listed. -/
def Tensor.exact : Tensor → Bool
  | bool g => g.isStandard
  | i64 g => g.isStandard
  | f32 _ => false

lemma Tensor.eq_of_beq {t t' : Tensor} (ht : t.exact = true) (ht' : t'.exact = true)
    (h : (t == t') = true) : t = t' := by
  have hgrid {α : Type} [BEq α] [LawfulBEq α] {g g' : Grid α} (hg : g.isStandard = true)
      (hg' : g'.isStandard = true) (h : (g == g') = true) : g = g' := by
    obtain ⟨hshape, hcells⟩ := Grid.beq_iff.1 h
    exact Grid.ext hshape hcells
      ((Grid.isStandard_iff.1 hg).trans (Grid.isStandard_iff.1 hg').symm)
  cases t' with
  | f32 g => cases ht'
  | bool g => cases t <;> first | cases h | exact congrArg _ (hgrid ht ht' h)
  | i64 g => cases t <;> first | cases h | exact congrArg _ (hgrid ht ht' h)

/-- No part of the attribute is a float, and no tensor in it is laid out by columns. -/
def Attribute.exact : Attribute → Bool
  | float _ => false
  | floats _ => false
  | tensor t => t.exact
  | _ => true

lemma Attribute.eq_of_beq {a a' : Attribute} (ha : a.exact = true) (ha' : a'.exact = true)
    (h : (a == a') = true) : a = a' := by
  cases a' with
  | float x => cases ha'
  | floats l => cases ha'
  | tensor t => cases a <;> first | cases h | exact congrArg _ (Tensor.eq_of_beq ha ha' h)
  | _ => cases a <;> first | cases h | exact congrArg _ (LawfulBEq.eq_of_beq h)

lemma Fact.eq_of_beq {f f' : Fact} (hf : f.value.all (·.exact) = true)
    (hf' : f'.value.all (·.exact) = true) (h : (f == f') = true) : f = f' := by
  obtain ⟨shape, value⟩ := f
  obtain ⟨shape', value'⟩ := f'
  have h' : ((shape == shape') && (value == value')) = true := h
  obtain ⟨hshape, hvalue⟩ := Bool.and_eq_true_iff.1 h'
  obtain rfl := LawfulBEq.eq_of_beq hshape
  rcases value with _ | t <;> rcases value' with _ | t'
  · rfl
  · cases hvalue
  · cases hvalue
  · rw [Tensor.eq_of_beq hf hf' hvalue]

lemma Attributes.eq_of_beq {a a' : Attributes} (ha : a.entries.all (·.2.exact) = true)
    (ha' : a'.entries.all (·.2.exact) = true) (h : (a.entries == a'.entries) = true) : a = a' := by
  obtain ⟨l, hl⟩ := a
  obtain ⟨l', hl'⟩ := a'
  obtain rfl : l = l' := by
    replace ha : l.all (·.2.exact) = true := ha
    replace ha' : l'.all (·.2.exact) = true := ha'
    replace h : (l == l') = true := h
    clear hl hl'
    induction l generalizing l' with
    | nil => cases l' <;> first | rfl | cases h
    | cons e l ih =>
      rcases l' with _ | ⟨e', l'⟩
      · cases h
      · rw [List.all_cons, Bool.and_eq_true] at ha ha'
        have h' : ((e.1 == e'.1 && e.2 == e'.2) && l == l') = true := h
        simp only [Bool.and_eq_true] at h'
        rw [ih l' ha.2 ha'.2 h'.2,
          Prod.ext (LawfulBEq.eq_of_beq h'.1.1) (Attribute.eq_of_beq ha.1 ha'.1 h'.1.2)]
  rfl

namespace Graph

variable {g h : Graph}

/-- The attributes and facts of both graphs are exact, and equal. -/
def sameContents (h g : Graph) : Bool := g.nodeIds.all fun id =>
  (match h.attributes? id, g.attributes? id with
    | some a, some a' => a.entries.all (·.2.exact) && a'.entries.all (·.2.exact) &&
        a.entries == a'.entries
    | none, none => true
    | _, _ => false) &&
  match h.fact? id, g.fact? id with
    | some f, some f' => f.value.all (·.exact) && f'.value.all (·.exact) && f == f'
    | none, none => true
    | _, _ => false

lemma agrees_of_sameContents (hs : h.skeleton = g.skeleton) (hc : h.sameContents g = true) :
    h.Agrees g := by
  have hnone : ∀ {k : Graph} {id : NodeId}, k.node? id = none →
      k.attributes? id = none ∧ k.fact? id = none := by
    intro k id hid
    simp [attributes?, op?, fact?, hid]
  have hid : ∀ id, h.attributes? id = g.attributes? id ∧ h.fact? id = g.fact? id := by
    intro id
    by_cases hlive : id ∈ g.nodeIds
    · have hpair := List.all_eq_true.1 hc id hlive
      rw [Bool.and_eq_true] at hpair
      constructor
      · rcases ha : h.attributes? id with _ | a <;> rcases ha' : g.attributes? id with _ | a' <;>
          simp only [ha, ha', Bool.and_eq_true, reduceCtorEq, false_and] at hpair
        · rfl
        · exact congrArg some (Attributes.eq_of_beq hpair.1.1.1 hpair.1.1.2 hpair.1.2)
      · rcases hf : h.fact? id with _ | f <;> rcases hf' : g.fact? id with _ | f' <;>
          simp only [hf, hf', Bool.and_eq_true, reduceCtorEq, and_false] at hpair
        · rfl
        · exact congrArg some (Fact.eq_of_beq hpair.2.1.1 hpair.2.1.2 hpair.2.2)
    · have hg : g.node? id = none := by simpa [mem_nodeIds] using hlive
      have hh : h.node? id = none := by
        simpa [hg] using isSome_node?_of_skeleton hs id
      rw [(hnone hg).1, (hnone hg).2, (hnone hh).1, (hnone hh).2]
      exact ⟨rfl, rfl⟩
  exact ⟨hs, fun id => (hid id).1, fun d => (hid d).2⟩

end Graph

namespace Edit

/-- A mark changes neither attributes nor facts. -/
lemma keeps_agrees_mark (g : Graph) (id : NodeId) : Keeps (fun k => k.Agrees g) (mark id) := by
  have hop (i : NodeId) : Keeps (fun k => k.Agrees g) (markOp i) := by
    refine keeps_bind (keeps_query _) fun _ => keeps_ite (fun _ => keeps_pure _) fun _ => ?_
    refine keeps_bind (fun k hk => ?_) fun _ => keeps_bind (keeps_query _) fun _ => keeps_pure _
    exact (Graph.Alike.revision _ _).agrees.trans ((Graph.agrees_flagOps k [i]).trans hk)
  refine keeps_bind (keeps_query _) fun _ => keeps_ite (fun _ => hop id) fun _ => ?_
  exact keeps_bind (keeps_query _) fun edges => keeps_forM fun e _ => hop e.dst

end Edit

end TensorGraph
