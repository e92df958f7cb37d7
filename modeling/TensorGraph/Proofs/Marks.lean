import TensorGraph.Proofs.Verdicts

/-!
Marks for inference.

`Graph.flag?` is the mark of an operation. The writes of a rule leave all marks; `Graph.flagOps`
puts them on operations and changes nothing else, which is what `Edit.mark` does.
-/

namespace TensorGraph

open Edit

namespace Graph

variable {g h : Graph} {id op d : NodeId}

/-- The mark of an operation. -/
def flag? (g : Graph) (id : NodeId) : Option Bool := (g.op? id).map (·.needsInference)

lemma flag?_of_op? {o : Operation} (ho : g.op? id = some o) :
    g.flag? id = some o.needsInference := by
  rw [flag?, ho]
  rfl

lemma flag?_modifyOp (op : NodeId) {f : Operation → Operation}
    (hf : ∀ o, (f o).needsInference = o.needsInference) :
    (g.modifyOp op f).flag? id = g.flag? id := by
  unfold flag?
  rw [op?_modifyOp]
  split
  · next h =>
    subst h
    rw [Option.map_map]
    exact congrArg (fun u => Option.map u (g.op? id)) (funext hf)
  · rfl

lemma flag?_modifyFact (d : NodeId) (f : Fact → Fact) :
    (g.modifyFact d f).flag? id = g.flag? id := by
  unfold flag?
  rw [op?_modifyFact]

lemma store_needsInference (o : Operation) (name : String) (value : Attribute) :
    (o.store name value).needsInference = o.needsInference := by
  unfold Operation.store
  split <;> rfl

lemma flag?_writeOut (p : Nat) (f : Fact) : (g.writeOut op p f).flag? id = g.flag? id := by
  unfold flag?
  rw [op?_writeOut]

lemma flag?_storeProducer (value : Tensor) : (g.storeProducer d value).flag? id = g.flag? id := by
  unfold storeProducer
  split
  · refine flag?_modifyOp _ fun o => ?_
    split
    · exact store_needsInference ..
    · rfl
  · rfl

lemma flag?_absorb (w : Write) : (g.absorb op w).flag? id = g.flag? id := by
  cases w with
  | attr name value => exact flag?_modifyOp op (store_needsInference · name value)
  | inputValue p value =>
    show (g.writeIn op p value).flag? id = g.flag? id
    unfold writeIn
    split
    · split
      · rfl
      · rw [flag?_modifyFact, flag?_storeProducer]
    · rfl
  | outputShape p shape => exact flag?_writeOut p _
  | outputValue p value => exact flag?_writeOut p _
  | outputUnknown p => exact flag?_writeOut p _

lemma flag?_settle (ws : List Write) : (g.settle op ws).flag? id = g.flag? id := by
  induction ws generalizing g with
  | nil => rfl
  | cons w ws ih => exact ih.trans (flag?_absorb w)

lemma flag?_unmark (g : Graph) (op id : NodeId) :
    (g.unmark op).flag? id = if id = op then (g.flag? op).map fun _ => false else g.flag? id := by
  unfold flag? unmark
  rw [op?_modifyOp]
  split
  · rw [Option.map_map, Option.map_map]
    rfl
  · rfl

lemma isSome_op?_of_flag? {b : Bool} (hf : g.flag? id = some b) : (g.op? id).isSome := by
  unfold flag? at hf
  rcases ho : g.op? id with _ | o
  · rw [ho] at hf
    cases hf
  · rfl

lemma Alike.flag? (hl : g.Alike h) (id : NodeId) : g.flag? id = h.flag? id := by
  unfold Graph.flag?
  rw [hl.op?]

end Graph

namespace Graph

variable {g h : Graph} {id d : NodeId} {l : List NodeId}

/-- The graph with the mark of an operation put on. -/
def flagOp (g : Graph) (id : NodeId) : Graph :=
  g.modifyOp id fun o => { o with needsInference := true }

/-- The graph with marks put on the operations of a list. -/
def flagOps (g : Graph) (l : List NodeId) : Graph := l.foldl flagOp g

lemma Alike.flagOps (hl : g.Alike h) (l : List NodeId) : (g.flagOps l).Alike (h.flagOps l) := by
  induction l generalizing g h with
  | nil => exact hl
  | cons i l ih => exact ih (hl.modifyOp i _)

lemma skeleton_flagOps : (g.flagOps l).skeleton = g.skeleton := by
  induction l generalizing g with
  | nil => rfl
  | cons i l ih => exact ih.trans (skeleton_modifyOp i (fun _ => rfl) fun _ => rfl)

@[simp] lemma fact?_flagOps : (g.flagOps l).fact? d = g.fact? d := by
  induction l generalizing g with
  | nil => rfl
  | cons i l ih => exact ih.trans (fact?_modifyOp ..)

lemma op?_flagOps : (g.flagOps l).op? id =
    if id ∈ l then (g.op? id).map fun o => { o with needsInference := true } else g.op? id := by
  induction l generalizing g with
  | nil => rfl
  | cons i l ih =>
    show ((g.flagOp i).flagOps l).op? id = _
    rw [ih, flagOp, op?_modifyOp]
    by_cases hid : id = i
    · subst hid
      rcases g.op? id with _ | o <;> simp
    · by_cases hmem : id ∈ l <;> simp [hid, hmem]

lemma node?_flagOps : (g.flagOps l).node? id =
    if id ∈ l then (g.node? id).map (·.mapOperation fun o => { o with needsInference := true })
    else g.node? id := by
  induction l generalizing g with
  | nil => rfl
  | cons i l ih =>
    show ((g.flagOp i).flagOps l).node? id = _
    rw [ih, flagOp, node?_modifyOp]
    by_cases hid : id = i
    · subst hid
      rcases g.node? id with _ | ⟨name, o | f⟩ <;> simp [Node.mapOperation]
    · by_cases hmem : id ∈ l <;> simp [hid, hmem]

lemma flag?_flagOps : (g.flagOps l).flag? id =
    if id ∈ l then (g.flag? id).map fun _ => true else g.flag? id := by
  unfold flag?
  rw [op?_flagOps]
  split
  · rw [Option.map_map, Option.map_map]
    rfl
  · rfl

/-- Marks are not put on twice. -/
lemma alike_flagOps (hl : ∀ i ∈ l, g.flag? i ≠ some false) : (g.flagOps l).Alike g := by
  induction l with
  | nil => exact .refl g
  | cons i l ih =>
    have hflag : g.flagOp i = g := modifyOp_eq_self fun o ho => by
      have hmark : o.needsInference = true := by
        simpa [flag?_of_op? ho] using hl i (List.mem_cons_self ..)
      cases o
      simp_all
    show ((g.flagOp i).flagOps l).Alike g
    rw [hflag]
    exact ih fun j hj => hl j (List.mem_cons_of_mem i hj)

end Graph

namespace Edit

variable {g : Graph} {id : NodeId} {o : Operation} {f : Fact}

lemma gives_markOp (ho : g.op? id = some o) :
    ∃ h, Gives (markOp id) g () h ∧ h.Alike (g.flagOp id) := by
  unfold markOp
  simp only [gives_bind, gives_query, Graph.operation_eq_ok]
  by_cases hm : o.needsInference = true
  · refine ⟨g, ⟨o, g, ⟨ho, rfl⟩, ?_⟩, ?_⟩
    · rw [if_pos hm]
      exact ⟨rfl, rfl⟩
    · unfold Graph.flagOp
      rw [Graph.modifyOp_eq_self]
      · exact .refl g
      · intro o' ho'
        rw [ho, Option.some.injEq] at ho'
        rw [← ho']
        cases o
        simp_all
  · refine ⟨{ g.flagOp id with revision := g.revision + 1 }, ⟨o, g, ⟨ho, rfl⟩, ?_⟩, .revision _ _⟩
    rw [if_neg hm]
    exact gives_modifyOp ho _

/-- An edit that puts the mark on an operation, done with the operations of a list. -/
lemma gives_flagOps {x : NodeId → Edit Unit}
    (hx : ∀ {g : Graph} {id : NodeId} {o : Operation}, g.op? id = some o →
      ∃ h, Gives (x id) g () h ∧ h.Alike (g.flagOp id))
    {l : List NodeId} (hl : ∀ i ∈ l, (g.op? i).isSome) :
    ∃ h, Gives (l.forM x) g () h ∧ h.Alike (g.flagOps l) := by
  induction l generalizing g with
  | nil => exact ⟨g, ⟨rfl, rfl⟩, .refl g⟩
  | cons i l ih =>
    obtain ⟨o, ho⟩ := Option.isSome_iff_exists.1 (hl i (List.mem_cons_self ..))
    obtain ⟨k, hk, hkl⟩ := hx ho
    have hskel : k.skeleton = g.skeleton :=
      hkl.skeleton.trans (Graph.skeleton_flagOps (l := [i]))
    obtain ⟨h, hh, hhl⟩ := ih (g := k) fun j hj => by
      rw [Graph.isSome_op?_of_skeleton hskel]
      exact hl j (List.mem_cons_of_mem i hj)
    refine ⟨h, ?_, hhl.trans (hkl.flagOps l)⟩
    show Gives (x i >>= fun _ => l.forM x) g () h
    rw [gives_bind]
    exact ⟨(), k, hk, hh⟩

lemma gives_mark_op (ho : g.op? id = some o) :
    ∃ h, Gives (mark id) g () h ∧ h.Alike (g.flagOp id) := by
  obtain ⟨name, hn⟩ := Graph.op?_eq_some.1 ho
  obtain ⟨h, hx, hl⟩ := gives_markOp ho
  refine ⟨h, ?_, hl⟩
  unfold mark
  rw [gives_bind]
  refine ⟨_, g, ⟨Graph.node_eq_ok.2 hn, rfl⟩, ?_⟩
  rw [if_pos (by rfl)]
  exact hx

lemma gives_mark_data (hg : g.WellFormed) (hf : g.fact? id = some f) :
    ∃ h, Gives (mark id) g () h ∧ h.Alike (g.flagOps (g.targets id)) := by
  obtain ⟨name, hn⟩ := Graph.fact?_eq_some.1 hf
  obtain ⟨h, hx, hl⟩ := gives_flagOps gives_markOp (g := g) (l := g.targets id) fun i hi => by
    obtain ⟨e, he, rfl, rfl⟩ := Graph.mem_targets.1 hi
    obtain ⟨o, ho⟩ := Graph.ends_of_fact_src hg he hf
    rw [ho]
    rfl
  refine ⟨h, ?_, hl⟩
  unfold mark
  rw [gives_bind]
  refine ⟨_, g, ⟨Graph.node_eq_ok.2 hn, rfl⟩, ?_⟩
  rw [if_neg (by simp [Node.isOp, Content.isOp]), gives_bind]
  refine ⟨_, g, ⟨Graph.consumers_eq hf, rfl⟩, ?_⟩
  have hforM : (g.outgoing id).forM (fun e => markOp e.dst) = (g.targets id).forM markOp := by
    unfold Graph.targets
    generalize g.outgoing id = es
    induction es with
    | nil => rfl
    | cons e es ih =>
      show (markOp e.dst >>= fun _ => es.forM fun e => markOp e.dst) =
        (markOp e.dst >>= fun _ => (es.map (·.dst)).forM markOp)
      rw [ih]
  rw [hforM]
  exact hx

end Edit

end TensorGraph
