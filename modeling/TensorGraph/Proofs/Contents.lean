import TensorGraph.Proofs.InferenceFrame
import TensorGraph.Proofs.WellFormed

/-!
What the nodes of a graph hold, told apart from how they are connected.

`Graph.op?` and `Graph.fact?` give what a node holds. `Graph.skeleton` is what inference leaves
alone: the links, the names of the nodes and the kinds of the operations. Two graphs are `Alike`
when they differ in their revision and stage only.
-/

namespace TensorGraph

/-- What a change of an attribute, a mark or a fact leaves of a node. -/
def Node.label (n : Node) : String × Option (String × Option String) :=
  (n.name, n.operation?.map fun o => (o.kind, o.typeName))

/-- The links of a graph, how many nodes there have been, and the labels of the nodes. -/
structure Skeleton where
  links : Slots Link
  next : Nat
  label : NodeId → Option (String × Option (String × Option String))

namespace Graph

variable {g h k : Graph} {id : NodeId}

/-! ### Contents of nodes -/

/-- The operation that a node is, if it is one. -/
def op? (g : Graph) (id : NodeId) : Option Operation := (g.node? id).bind (·.operation?)

/-- What is known of a data node, if the node is one. -/
def fact? (g : Graph) (id : NodeId) : Option Fact := (g.node? id).bind (·.fact?)

@[simp] lemma operation_eq_ok {o : Operation} : g.operation id = .ok o ↔ g.op? id = some o := by
  unfold operation op? node
  rcases g.node? id with _ | ⟨name, c | f⟩
  · simp [bind, Except.bind]
  · simp [bind, Except.bind, pure, Except.pure, Node.operation?]
  · simp [bind, Except.bind, Node.operation?]

@[simp] lemma fact_eq_ok {f : Fact} : g.fact id = .ok f ↔ g.fact? id = some f := by
  unfold fact fact? node
  rcases g.node? id with _ | ⟨name, c | f⟩
  · simp [bind, Except.bind]
  · simp [bind, Except.bind, Node.fact?]
  · simp [bind, Except.bind, pure, Except.pure, Node.fact?]

lemma op?_eq_some {o : Operation} :
    g.op? id = some o ↔ ∃ name, g.node? id = some ⟨name, .op o⟩ := by
  unfold op?
  rcases g.node? id with _ | ⟨name, c | f⟩ <;> simp [Node.operation?]

lemma fact?_eq_some {f : Fact} :
    g.fact? id = some f ↔ ∃ name, g.node? id = some ⟨name, .data f⟩ := by
  unfold fact?
  rcases g.node? id with _ | ⟨name, c | f⟩ <;> simp [Node.fact?]

/-- What holds of all nodes is read off the list of entries. -/
lemma forall_node_iff {P : Node → Prop} : (∀ {id : NodeId} {n : Node},
    g.node? id = some n → P n) ↔ ∀ p ∈ g.entries, P p.2 :=
  ⟨fun h p hp => h (mem_entries.1 (show (p.1, p.2) ∈ g.entries from hp)),
    fun h id n hn => h (id, n) (mem_entries.2 hn)⟩

lemma forall_op_iff {P : Operation → Prop} : (∀ {id : NodeId} {o : Operation},
    g.op? id = some o → P o) ↔ ∀ p ∈ g.entries, ∀ o ∈ p.2.operation?, P o := by
  rw [← forall_node_iff (P := fun n => ∀ o ∈ n.operation?, P o)]
  constructor
  · exact fun h id n hn o ho => h (Option.bind_eq_some_iff.2 ⟨n, hn, ho⟩)
  · intro h id o ho
    obtain ⟨n, hn, ho⟩ := Option.bind_eq_some_iff.1 ho
    exact h hn o ho

lemma forall_fact_iff {P : Fact → Prop} : (∀ {d : NodeId} {f : Fact},
    g.fact? d = some f → P f) ↔ ∀ p ∈ g.entries, ∀ f ∈ p.2.fact?, P f := by
  rw [← forall_node_iff (P := fun n => ∀ f ∈ n.fact?, P f)]
  constructor
  · exact fun h id n hn f hf => h (Option.bind_eq_some_iff.2 ⟨n, hn, hf⟩)
  · intro h id f hf
    obtain ⟨n, hn, hf⟩ := Option.bind_eq_some_iff.1 hf
    exact h hn f hf

lemma isSome_op? : (g.op? id).isSome ↔ ∃ n, g.node? id = some n ∧ n.isOp = true := by
  unfold op?
  rcases g.node? id with _ | ⟨name, c | f⟩ <;> simp [Node.operation?, Node.isOp, Content.isOp]

lemma isSome_fact? : (g.fact? id).isSome ↔ ∃ n, g.node? id = some n ∧ n.isOp = false := by
  unfold fact?
  rcases g.node? id with _ | ⟨name, c | f⟩ <;> simp [Node.fact?, Node.isOp, Content.isOp]

lemma fact?_eq_none_of_op {o : Operation} (ho : g.op? id = some o) : g.fact? id = none := by
  obtain ⟨name, hn⟩ := op?_eq_some.1 ho
  simp [fact?, hn, Node.fact?]

lemma op?_eq_none_of_fact {f : Fact} (hf : g.fact? id = some f) : g.op? id = none := by
  obtain ⟨name, hn⟩ := fact?_eq_some.1 hf
  simp [op?, hn, Node.operation?]

@[simp] lemma op?_modifyOp (i j : NodeId) (f : Operation → Operation) :
    (g.modifyOp i f).op? j = if j = i then (g.op? i).map f else g.op? j := by
  unfold op?
  rw [node?_modifyOp]
  split
  · rcases g.node? i with _ | ⟨name, o | d⟩ <;> rfl
  · rfl

@[simp] lemma fact?_modifyOp (i j : NodeId) (f : Operation → Operation) :
    (g.modifyOp i f).fact? j = g.fact? j := by
  unfold fact?
  rw [node?_modifyOp]
  split
  · next hj =>
    subst hj
    rcases g.node? j with _ | ⟨name, o | d⟩ <;> rfl
  · rfl

@[simp] lemma op?_modifyFact (i j : NodeId) (f : Fact → Fact) :
    (g.modifyFact i f).op? j = g.op? j := by
  unfold op?
  rw [node?_modifyFact]
  split
  · next hj =>
    subst hj
    rcases g.node? j with _ | ⟨name, o | d⟩ <;> rfl
  · rfl

@[simp] lemma fact?_modifyFact (i j : NodeId) (f : Fact → Fact) :
    (g.modifyFact i f).fact? j = if j = i then (g.fact? i).map f else g.fact? j := by
  unfold fact?
  rw [node?_modifyFact]
  split
  · rcases g.node? i with _ | ⟨name, o | d⟩ <;> rfl
  · rfl

/-- What an operation does. -/
def kind? (g : Graph) (id : NodeId) : Option String := (g.op? id).map (·.kind)

lemma kind?_eq_some {kind : String} :
    g.kind? id = some kind ↔ ∃ o, g.op? id = some o ∧ o.kind = kind := Option.map_eq_some_iff

lemma isOpOf_iff {n : Node} (hn : g.node? id = some n) {kind : String} :
    n.isOpOf kind = true ↔ g.kind? id = some kind := by
  obtain ⟨name, o | f⟩ := n
  · simp [Node.isOpOf, kind?, op?, hn, Node.operation?]
  · simp [Node.isOpOf, kind?, op?, hn, Node.operation?]

lemma mem_opNodes : id ∈ g.opNodes ↔ (g.op? id).isSome := by
  rw [isSome_op?]
  constructor
  · intro hid
    obtain ⟨⟨i, n⟩, hmem, rfl⟩ := List.mem_map.1 hid
    obtain ⟨hmem, hop⟩ := List.mem_filter.1 hmem
    exact ⟨n, mem_entries.1 hmem, hop⟩
  · rintro ⟨n, hn, hop⟩
    exact List.mem_map.2 ⟨(id, n), List.mem_filter.2 ⟨mem_entries.2 hn, hop⟩, rfl⟩

lemma mem_opNodesOf {kind : String} : id ∈ g.opNodesOf kind ↔ g.kind? id = some kind := by
  constructor
  · intro hid
    obtain ⟨⟨i, n⟩, hmem, rfl⟩ := List.mem_map.1 hid
    obtain ⟨hmem, hkind⟩ := List.mem_filter.1 hmem
    exact (isOpOf_iff (mem_entries.1 hmem)).1 hkind
  · intro hkind
    obtain ⟨o, ho, -⟩ := kind?_eq_some.1 hkind
    obtain ⟨name, hn⟩ := op?_eq_some.1 ho
    exact List.mem_map.2
      ⟨(id, _), List.mem_filter.2 ⟨mem_entries.2 hn, (isOpOf_iff hn).2 hkind⟩, rfl⟩

/-! ### Skeletons -/

/-- What inference leaves of a graph. -/
def skeleton (g : Graph) : Skeleton := ⟨g.links, g.nodes.next, fun id => (g.node? id).map (·.label)⟩

lemma skeleton_revision (r : Nat) : Graph.skeleton { g with revision := r } = g.skeleton := rfl

lemma skeleton_stage (g : Graph) (s : Stage) :
    Graph.skeleton { g with stage := s } = g.skeleton := rfl

lemma skeleton_modifyOp (id : NodeId) {f : Operation → Operation}
    (hk : ∀ o, (f o).kind = o.kind) (ht : ∀ o, (f o).typeName = o.typeName) :
    (g.modifyOp id f).skeleton = g.skeleton := by
  unfold skeleton
  rw [nodes_modifyOp, Slots.next_modify]
  refine congrArg (Skeleton.mk g.links g.nodes.next) (funext fun j => ?_)
  rw [node?_modifyOp]
  split
  · next hj =>
    subst hj
    rcases g.node? j with _ | ⟨name, o | d⟩
    · rfl
    · simp [Node.mapOperation, Node.label, Node.operation?, hk, ht]
    · rfl
  · rfl

lemma skeleton_modifyFact (id : NodeId) (f : Fact → Fact) :
    (g.modifyFact id f).skeleton = g.skeleton := by
  unfold skeleton
  rw [nodes_modifyFact, Slots.next_modify]
  refine congrArg (Skeleton.mk g.links g.nodes.next) (funext fun j => ?_)
  rw [node?_modifyFact]
  split
  · next hj =>
    subst hj
    rcases g.node? j with _ | ⟨name, o | d⟩ <;> rfl
  · rfl

lemma unaffected_skeleton (s : Skeleton) : Unaffected fun k => k.skeleton = s where
  attr id name value r hk := by
    rw [skeleton_revision]
    exact Eq.trans (skeleton_modifyOp id (by intro o; rfl) (by intro o; rfl)) hk
  flag id b r hk := by
    rw [skeleton_revision]
    exact Eq.trans (skeleton_modifyOp id (by intro o; rfl) (by intro o; rfl)) hk
  fact id f r hk := by
    rw [skeleton_revision, skeleton_modifyFact, hk]

section

variable (hs : h.skeleton = g.skeleton)

include hs

lemma links_of_skeleton : h.links = g.links := congrArg Skeleton.links hs

lemma next_of_skeleton : h.nodes.next = g.nodes.next := congrArg Skeleton.next hs

lemma label_of_skeleton (id : NodeId) :
    (h.node? id).map (·.label) = (g.node? id).map (·.label) :=
  congrFun (congrArg Skeleton.label hs) id

lemma edges_of_skeleton : h.edges = g.edges := edges_congr (links_of_skeleton hs)

lemma incoming_of_skeleton (id : NodeId) : h.incoming id = g.incoming id :=
  incoming_congr (links_of_skeleton hs)

lemma outgoing_of_skeleton (id : NodeId) : h.outgoing id = g.outgoing id :=
  outgoing_congr (links_of_skeleton hs)

/-- A node of one graph has a node of the same label in the other. -/
lemma exists_of_skeleton {n : Node} (hn : g.node? id = some n) :
    ∃ m, h.node? id = some m ∧ m.label = n.label := by
  have hlabel := label_of_skeleton hs id
  rw [hn] at hlabel
  exact Option.map_eq_some_iff.1 hlabel

lemma isSome_node?_of_skeleton (id : NodeId) : (h.node? id).isSome = (g.node? id).isSome := by
  have hlabel := label_of_skeleton hs id
  rcases hh : h.node? id with _ | m <;> rcases hg : g.node? id with _ | n <;>
    rw [hh, hg] at hlabel <;> simp_all

lemma kind?_of_skeleton (id : NodeId) : h.kind? id = g.kind? id := by
  have hlabel := label_of_skeleton hs id
  unfold kind? op?
  rcases hh : h.node? id with _ | ⟨a, b | c⟩ <;> rcases hg : g.node? id with _ | ⟨a', b' | c'⟩ <;>
    rw [hh, hg] at hlabel <;> simp_all [Node.label, Node.operation?]

lemma frame_of_skeleton (id : NodeId) : h.frame id = g.frame id := by
  have hlabel := label_of_skeleton hs id
  unfold frame
  rcases hh : h.node? id with _ | ⟨a, b | c⟩ <;> rcases hg : g.node? id with _ | ⟨a', b' | c'⟩ <;>
    rw [hh, hg] at hlabel <;> simp_all [Node.label, Node.operation?, Node.isOp, Content.isOp]

lemma WellFormed.of_skeleton (hg : g.WellFormed) : h.WellFormed :=
  hg.congr (frame_of_skeleton hs) (edges_of_skeleton hs)

lemma isSome_fact?_of_skeleton (id : NodeId) : (h.fact? id).isSome = (g.fact? id).isSome := by
  have hlabel := label_of_skeleton hs id
  unfold fact?
  rcases hh : h.node? id with _ | ⟨a, b | c⟩ <;> rcases hg : g.node? id with _ | ⟨a', b' | c'⟩ <;>
    rw [hh, hg] at hlabel <;> simp_all [Node.label, Node.operation?, Node.fact?]

lemma isSome_op?_of_skeleton (id : NodeId) : (h.op? id).isSome = (g.op? id).isSome := by
  have hkind := kind?_of_skeleton hs id
  unfold kind? at hkind
  rcases hh : h.op? id with _ | o <;> rcases hg : g.op? id with _ | o' <;> simp_all

lemma exists_op?_of_skeleton {o : Operation} (ho : g.op? id = some o) :
    ∃ o', h.op? id = some o' := by
  rw [← Option.isSome_iff_exists, isSome_op?_of_skeleton hs, ho]
  rfl

lemma op?_eq_none_of_skeleton (hnone : g.op? id = none) : h.op? id = none := by
  rw [← Option.not_isSome_iff_eq_none, isSome_op?_of_skeleton hs, hnone]
  exact Bool.false_ne_true

end

/-! ### Graphs that differ in revision and stage only -/

/-- The graphs have the same nodes and the same links. -/
def Alike (g h : Graph) : Prop := g.nodes = h.nodes ∧ g.links = h.links

lemma Alike.refl (g : Graph) : g.Alike g := ⟨rfl, rfl⟩

lemma Alike.symm (hl : g.Alike h) : h.Alike g := ⟨hl.1.symm, hl.2.symm⟩

lemma Alike.trans (hgh : g.Alike h) (hhk : h.Alike k) : g.Alike k :=
  ⟨hgh.1.trans hhk.1, hgh.2.trans hhk.2⟩

lemma Alike.revision (g : Graph) (r : Nat) : Graph.Alike { g with revision := r } g := ⟨rfl, rfl⟩

lemma Alike.node? (hl : g.Alike h) (id : NodeId) : g.node? id = h.node? id :=
  congrFun (node?_congr hl.1) id

lemma Alike.op? (hl : g.Alike h) (id : NodeId) : g.op? id = h.op? id := by
  unfold Graph.op?
  rw [hl.node?]

lemma Alike.fact? (hl : g.Alike h) (id : NodeId) : g.fact? id = h.fact? id := by
  unfold Graph.fact?
  rw [hl.node?]

lemma Alike.skeleton (hl : g.Alike h) : g.skeleton = h.skeleton := by
  unfold Graph.skeleton
  rw [hl.1, hl.2, node?_congr hl.1]

lemma modifyOp_congr {f f' : Operation → Operation}
    (hf : ∀ o, g.op? id = some o → f o = f' o) : g.modifyOp id f = g.modifyOp id f' := by
  refine eq_of_views (Slots.ext_get? (by simp) fun i => ?_) rfl rfl rfl
  rw [nodes_modifyOp, nodes_modifyOp, Slots.get?_modify, Slots.get?_modify, ← node?_eq_get?]
  split
  · rcases hn : g.node? id with _ | ⟨name, o | d⟩
    · rfl
    · have : f o = f' o := hf o (op?_eq_some.2 ⟨name, hn⟩)
      simp [Node.mapOperation, this]
    · rfl
  · rfl

lemma modifyOp_eq_self {f : Operation → Operation} (hf : ∀ o, g.op? id = some o → f o = o) :
    g.modifyOp id f = g := by
  refine (modifyOp_congr hf : g.modifyOp id f = g.modifyOp id fun o => o).trans ?_
  refine eq_of_views (Slots.ext_get? (by simp) fun i => ?_) rfl rfl rfl
  rw [nodes_modifyOp, Slots.get?_modify]
  split
  · next hi =>
    subst hi
    rcases g.nodes.get? id.index with _ | ⟨name, o | d⟩ <;> rfl
  · rfl

lemma modifyFact_congr {f f' : Fact → Fact} (hf : ∀ d, g.fact? id = some d → f d = f' d) :
    g.modifyFact id f = g.modifyFact id f' := by
  refine eq_of_views (Slots.ext_get? (by simp) fun i => ?_) rfl rfl rfl
  rw [nodes_modifyFact, nodes_modifyFact, Slots.get?_modify, Slots.get?_modify, ← node?_eq_get?]
  split
  · rcases hn : g.node? id with _ | ⟨name, o | d⟩
    · rfl
    · rfl
    · have : f d = f' d := hf d (fact?_eq_some.2 ⟨name, hn⟩)
      simp [Node.mapFact, this]
  · rfl

lemma modifyFact_eq_self {f : Fact → Fact} (hf : ∀ d, g.fact? id = some d → f d = d) :
    g.modifyFact id f = g := by
  refine (modifyFact_congr hf : g.modifyFact id f = g.modifyFact id fun d => d).trans ?_
  refine eq_of_views (Slots.ext_get? (by simp) fun i => ?_) rfl rfl rfl
  rw [nodes_modifyFact, Slots.get?_modify]
  split
  · next hi =>
    subst hi
    rcases g.nodes.get? id.index with _ | ⟨name, o | d⟩ <;> rfl
  · rfl

lemma Alike.modifyOp (hl : g.Alike h) (id : NodeId) (f : Operation → Operation) :
    (g.modifyOp id f).Alike (h.modifyOp id f) := by
  refine ⟨?_, hl.2⟩
  rw [nodes_modifyOp, nodes_modifyOp, hl.1]

lemma Alike.modifyFact (hl : g.Alike h) (id : NodeId) (f : Fact → Fact) :
    (g.modifyFact id f).Alike (h.modifyFact id f) := by
  refine ⟨?_, hl.2⟩
  rw [nodes_modifyFact, nodes_modifyFact, hl.1]

lemma alike_of_contents (hs : h.skeleton = g.skeleton) (ho : ∀ i, h.op? i = g.op? i)
    (hf : ∀ i, h.fact? i = g.fact? i) : h.Alike g := by
  refine ⟨Slots.ext_get? (next_of_skeleton hs) fun i => ?_, links_of_skeleton hs⟩
  have hlabel := label_of_skeleton hs ⟨i⟩
  have hop := ho ⟨i⟩
  have hfact := hf ⟨i⟩
  unfold op? at hop
  unfold fact? at hfact
  clear ho hf
  refine Eq.trans node?_eq_get?.symm (Eq.trans (?_ : h.node? ⟨i⟩ = g.node? ⟨i⟩) node?_eq_get?)
  rcases hh : h.node? ⟨i⟩ with _ | ⟨a, b | c⟩ <;> rcases hg : g.node? ⟨i⟩ with _ | ⟨a', b' | c'⟩ <;>
    rw [hh, hg] at hlabel hop hfact <;> simp_all [Node.label, Node.operation?, Node.fact?]

/-! ### The nodes at the ends of an edge -/

lemma ends_of_op_src (hg : g.WellFormed) {e : Edge} (he : e ∈ g.edges) {o : Operation}
    (ho : g.op? e.src = some o) : ∃ f, g.fact? e.dst = some f := by
  obtain ⟨s, d, hs, hd, hne⟩ := hg.ends he
  obtain ⟨name, hn⟩ := op?_eq_some.1 ho
  rw [hs, Option.some.injEq] at hn
  subst hn
  refine Option.isSome_iff_exists.1 (isSome_fact?.2 ⟨d, hd, ?_⟩)
  simpa [Node.isOp, Content.isOp] using hne.symm

lemma ends_of_op_dst (hg : g.WellFormed) {e : Edge} (he : e ∈ g.edges) {o : Operation}
    (ho : g.op? e.dst = some o) : ∃ f, g.fact? e.src = some f := by
  obtain ⟨s, d, hs, hd, hne⟩ := hg.ends he
  obtain ⟨name, hn⟩ := op?_eq_some.1 ho
  rw [hd, Option.some.injEq] at hn
  subst hn
  refine Option.isSome_iff_exists.1 (isSome_fact?.2 ⟨s, hs, ?_⟩)
  simpa [Node.isOp, Content.isOp] using hne

lemma ends_of_fact_dst (hg : g.WellFormed) {e : Edge} (he : e ∈ g.edges) {f : Fact}
    (hf : g.fact? e.dst = some f) : ∃ o, g.op? e.src = some o := by
  obtain ⟨s, d, hs, hd, hne⟩ := hg.ends he
  obtain ⟨name, hn⟩ := fact?_eq_some.1 hf
  rw [hd, Option.some.injEq] at hn
  subst hn
  refine Option.isSome_iff_exists.1 (isSome_op?.2 ⟨s, hs, ?_⟩)
  simpa [Node.isOp, Content.isOp] using hne

lemma ends_of_fact_src (hg : g.WellFormed) {e : Edge} (he : e ∈ g.edges) {f : Fact}
    (hf : g.fact? e.src = some f) : ∃ o, g.op? e.dst = some o := by
  obtain ⟨s, d, hs, hd, hne⟩ := hg.ends he
  obtain ⟨name, hn⟩ := fact?_eq_some.1 hf
  rw [hs, Option.some.injEq] at hn
  subst hn
  refine Option.isSome_iff_exists.1 (isSome_op?.2 ⟨d, hd, ?_⟩)
  simpa [Node.isOp, Content.isOp] using hne.symm

lemma inputs_eq_ok {f : Fact} (hf : g.fact? id = some f) :
    g.inputs id = .ok ((g.incoming id).map (·.src)) := by
  obtain ⟨name, hn⟩ := fact?_eq_some.1 hf
  rw [inputs, inEdges_eq, node, hn]
  rfl

lemma producer_eq {f : Fact} (hf : g.fact? id = some f) :
    g.producer id = .ok ((g.incoming id).head?.map (·.src)) := by
  unfold producer
  rw [inputs_eq_ok hf]
  show Except.ok ((g.incoming id).map (·.src)).head? = _
  rw [List.head?_map]

end Graph

end TensorGraph
