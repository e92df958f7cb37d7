import TensorGraph.Proofs.Calm

/-!
Inference in another order.

Two operations neither of which feeds the other have nothing in common that one of them writes: an
input that both of them read is shared and is left alone, and a constant with one output feeds one
of them. So they can change places (`Unrelated.visit`), and any topological order of the operations
can be brought into any other. Inferring the operations in such an order meets inference of all
operations (`inferEach_meets_inferAll`).
-/

namespace TensorGraph

open Edit

namespace Graph

variable {g h k : Graph} {a b d id j : NodeId} {o : Operation} {ws : List Write}

/-! ### The same verdict -/

/-- What an operation writes depends on its attributes and on what is known of its inputs. -/
lemma visit_congr {r : Registry} (hg : g.WellFormed) (hs : h.skeleton = g.skeleton)
    (ha : h.attributes? id = g.attributes? id)
    (hin : ∀ d ∈ g.sources id, h.fact? d = g.fact? d) (hk : r.visit g id = .ok k) :
    ∃ ws, k.Agrees (g.settle id ws) ∧ ∃ k', r.visit h id = .ok k' ∧ k'.Agrees (h.settle id ws) := by
  rcases Registry.visit_eq_ok.1 hk with ⟨hnone, rfl⟩ | ⟨name, o, ws, hn, hv, rfl⟩
  · have hnone' := op?_eq_none_of_skeleton hs hnone
    exact ⟨[], .refl k, h, Registry.visit_eq_ok.2 (.inl ⟨hnone', rfl⟩), .refl h⟩
  · obtain ⟨o', hn', hkind, hattr⟩ := exists_op_of_skeleton hs ha hn
    have hscene : h.scene id name o'.attributes = g.scene id name o.attributes := by
      rw [hattr]
      refine scene_congr hg hs (op?_eq_some.2 ⟨name, hn⟩) (fun p d hd => hin d ?_) name _
      obtain ⟨e, he, hdst, -, hsrc⟩ := (inSource_eq_some hg).1 hd
      exact mem_sources.2 ⟨e, he, hdst, hsrc⟩
    have hv' : r.verdict o'.kind (h.scene id name o'.attributes) = .ok ws := by
      rw [hkind, hscene, hv]
    exact ⟨ws, agrees_unmark _ id, _, Registry.visit_eq_ok.2 (.inr ⟨name, o', ws, hn', hv', rfl⟩),
      agrees_unmark _ id⟩

lemma visit_of_agrees {r : Registry} (hg : g.WellFormed) (hh : h.Agrees g)
    (hk : r.visit g id = .ok k) : ∃ k', r.visit h id = .ok k' ∧ k'.Agrees k := by
  obtain ⟨ws, hws, k', hk', hws'⟩ :=
    visit_congr hg hh.skeleton (hh.attributes id) (fun d _ => hh.fact d) hk
  exact ⟨k', hk', hws'.trans ((hh.settle ws).trans hws.symm)⟩

lemma sweep_of_agrees {r : Registry} {l : List NodeId} (hg : g.WellFormed) (hh : h.Agrees g)
    (hk : r.sweep g l = .ok k) : ∃ k', r.sweep h l = .ok k' ∧ k'.Agrees k := by
  induction l generalizing g h with
  | nil =>
    cases hk
    exact ⟨h, rfl, hh⟩
  | cons id l ih =>
    obtain ⟨m, hm, hk⟩ := Registry.sweep_cons_eq_ok.1 hk
    obtain ⟨m', hm', hagree⟩ := visit_of_agrees hg hh hm
    obtain ⟨k', hk', hagree'⟩ := ih (hg.of_skeleton (Registry.skeleton_visit hm)) hagree hk
    exact ⟨k', Registry.sweep_cons_eq_ok.2 ⟨m', hm', hk'⟩, hagree'⟩

/-! ### Unrelated operations -/

/-- Data that come from one operation are read by the other one. -/
def Feeds (g : Graph) (a b : NodeId) : Prop :=
  ∃ e ∈ g.edges, ∃ e' ∈ g.edges, e.src = a ∧ e.dst = e'.src ∧ e'.dst = b

instance : DecidableRel g.Feeds := fun a b => inferInstanceAs (Decidable
  (∃ e ∈ g.edges, ∃ e' ∈ g.edges, e.src = a ∧ e.dst = e'.src ∧ e'.dst = b))

lemma feeds_of_skeleton (hs : h.skeleton = g.skeleton) : h.Feeds a b ↔ g.Feeds a b := by
  unfold Feeds
  rw [edges_of_skeleton hs]

/-- Two operations neither of which feeds the other. -/
structure Unrelated (g : Graph) (a b : NodeId) : Prop where
  left : (g.op? a).isSome
  right : (g.op? b).isSome
  ne : a ≠ b
  before : ¬g.Feeds a b
  after : ¬g.Feeds b a

/-- In no graph with these links and labels does inferring the operation change the fact. -/
def LeavesFact (g : Graph) (op d : NodeId) : Prop :=
  ∀ (k : Graph) (ws : List Write), k.skeleton = g.skeleton → (k.settle op ws).fact? d = k.fact? d

/-- In no graph with these links and labels does inferring the operation change the attributes. -/
def LeavesAttributes (g : Graph) (op j : NodeId) : Prop :=
  ∀ (k : Graph) (ws : List Write), k.skeleton = g.skeleton →
    (k.settle op ws).attributes? j = k.attributes? j

namespace Unrelated

lemma symm (hu : g.Unrelated a b) : g.Unrelated b a :=
  ⟨hu.right, hu.left, hu.ne.symm, hu.after, hu.before⟩

lemma of_skeleton (hs : h.skeleton = g.skeleton) (hu : g.Unrelated a b) : h.Unrelated a b where
  left := (isSome_op?_of_skeleton hs a).trans hu.left
  right := (isSome_op?_of_skeleton hs b).trans hu.right
  ne := hu.ne
  before hf := hu.before ((feeds_of_skeleton hs).1 hf)
  after hf := hu.after ((feeds_of_skeleton hs).1 hf)

variable (hu : g.Unrelated a b) (hg : Registry.Runnable g)

include hu hg

/-- Data on an output of one of the operations are at a distance from the other one. -/
lemma fact?_output (hd : ∃ e ∈ g.edges, e.src = a ∧ e.dst = d) (ws : List Write) :
    (g.settle b ws).fact? d = g.fact? d := by
  obtain ⟨o, ho⟩ := Option.isSome_iff_exists.1 hu.right
  obtain ⟨oa, hoa⟩ := Option.isSome_iff_exists.1 hu.left
  obtain ⟨e, he, hsrc, rfl⟩ := hd
  obtain ⟨f, hf⟩ := ends_of_op_src hg.wellFormed he (hsrc ▸ hoa)
  refine fact?_settle_of_forall hg.wellFormed ho (fun e' he' hsrc' hdst' => ?_)
    (fun e' he' hdst' hsrc' => ?_) ws
  · obtain rfl := eq_of_dst_eq hg.wellFormed he he' hdst'.symm hf
    exact hu.ne (hsrc.symm.trans hsrc')
  · exact hu.before ⟨e, he, e', he', hsrc, hsrc'.symm, hdst'⟩

/-- What one of the operations reads is left by the other one: it is not made there, and if it is
read there it is shared. -/
lemma fact?_input (hd : d ∈ g.sources b) (ws : List Write) :
    (g.settle a ws).fact? d = g.fact? d := by
  obtain ⟨o, ho⟩ := Option.isSome_iff_exists.1 hu.left
  obtain ⟨e, he, hdst, rfl⟩ := mem_sources.1 hd
  refine fact?_settle_of_reader hg.wellFormed ho (fun e' he' hsrc' hdst' => ?_) he rfl
    (hdst.trans_ne hu.ne.symm) ws
  exact hu.before ⟨e', he', e, he, hsrc', hdst', hdst⟩

/-- Only what feeds an operation can be changed with it, not an operation unrelated to it. -/
lemma not_feeder (p : Nat) : g.feeder? a p ≠ some b := by
  obtain ⟨o, ho⟩ := Option.isSome_iff_exists.1 hu.left
  intro hf
  obtain ⟨e, he, hdst, -, -, -, e', he', hdst', hsrc'⟩ := (feeder?_eq_some hg.wellFormed ho).1 hf
  exact hu.after ⟨e', he', e, he, hsrc', hdst', hdst⟩

lemma attributes?_right (ws : List Write) : (g.settle a ws).attributes? b = g.attributes? b :=
  attributes?_settle_of_not_feeding hu.ne.symm (hu.not_feeder hg) ws

/-- One of the operations leaves the data as they are. -/
lemma leavesFact (d : NodeId) : g.LeavesFact a d ∨ g.LeavesFact b d := by
  have hin : ∀ {a b : NodeId}, g.Unrelated a b → d ∈ g.sources b → g.LeavesFact a d :=
    fun hu hd k ws hs => (hu.of_skeleton hs).fact?_input (hg.of_skeleton hs)
      (by rwa [sources_of_skeleton hs]) ws
  by_cases hout : ∃ e ∈ g.edges, e.src = a ∧ e.dst = d
  · refine .inr fun k ws hs => (hu.of_skeleton hs).fact?_output (hg.of_skeleton hs) ?_ ws
    rwa [edges_of_skeleton hs]
  by_cases hb : d ∈ g.sources b
  · exact .inl (hin hu hb)
  by_cases ha : d ∈ g.sources a
  · exact .inr (hin hu.symm ha)
  -- the data are on no port of the first operation
  refine .inl fun k ws hs => ?_
  obtain ⟨o, ho⟩ := Option.isSome_iff_exists.1 (hu.of_skeleton hs).left
  refine fact?_settle_of_forall (hg.of_skeleton hs).wellFormed ho ?_ ?_ ws
  · rw [edges_of_skeleton hs]
    exact fun e he hsrc hdst => hout ⟨e, he, hsrc, hdst⟩
  · rw [edges_of_skeleton hs]
    exact fun e he hdst hsrc => ha (mem_sources.2 ⟨e, he, hdst, hsrc⟩)

/-- One of the operations leaves the attributes as they are: a constant with one output feeds an
unshared input of one operation only. -/
lemma leavesAttributes (hconst : g.Lone "Const") (j : NodeId) :
    g.LeavesAttributes a j ∨ g.LeavesAttributes b j := by
  have hleave : ∀ {op : NodeId}, j ≠ op → (∀ p, g.feeder? op p ≠ some j) →
      g.LeavesAttributes op j := fun hj hf k ws hs => attributes?_settle_of_not_feeding hj
      (fun p => feeder?_of_skeleton hs _ p ▸ hf p) ws
  by_cases hja : j = a
  · subst hja
    exact .inr (hleave hu.ne (hu.symm.not_feeder hg))
  by_cases hjb : j = b
  · subst hjb
    exact .inl (hleave hu.ne.symm (hu.not_feeder hg))
  by_cases hf : ∃ p, g.feeder? a p = some j
  · obtain ⟨oa, hoa⟩ := Option.isSome_iff_exists.1 hu.left
    obtain ⟨ob, hob⟩ := Option.isSome_iff_exists.1 hu.right
    obtain ⟨p, hp⟩ := hf
    obtain ⟨e, he, hdst, -, hl, hkind, c, hc, hcd, hcs⟩ := (feeder?_eq_some hg.wellFormed hoa).1 hp
    refine .inr (hleave hjb fun q hq => ?_)
    obtain ⟨e', he', hdst', -, -, -, c', hc', hcd', hcs'⟩ :=
      (feeder?_eq_some hg.wellFormed hob).1 hq
    obtain rfl := hconst c hc c' hc' (hcs ▸ hkind) (hcs.trans hcs'.symm)
    obtain rfl := eq_of_unshared hl he' he (hcd'.symm.trans hcd) rfl
    exact hu.ne (hdst.symm.trans hdst')
  · exact .inl (hleave hja fun p hp => hf ⟨p, hp⟩)

/-- The writes of unrelated operations can be taken up in either order. -/
lemma settle (hconst : g.Lone "Const") (ws vs : List Write) :
    ((g.settle a ws).settle b vs).Agrees ((g.settle b vs).settle a ws) where
  skeleton := by simp only [skeleton_settle]
  attributes j := by
    rcases hu.leavesAttributes hg hconst j with hleft | hright
    · rw [hleft _ ws (skeleton_settle vs)]
      exact attributes?_settle_congr (skeleton_settle ws) (hleft g ws rfl) vs
    · rw [hright _ vs (skeleton_settle ws)]
      exact (attributes?_settle_congr (skeleton_settle vs) (hright g vs rfl) ws).symm
  fact d := by
    rcases hu.leavesFact hg d with hleft | hright
    · rw [hleft _ ws (skeleton_settle vs)]
      exact fact?_settle_congr (skeleton_settle ws) (hleft g ws rfl) vs
    · rw [hright _ vs (skeleton_settle ws)]
      exact (fact?_settle_congr (skeleton_settle vs) (hright g vs rfl) ws).symm

/-- **Independence**: unrelated operations can be visited in either order. -/
theorem visit {r : Registry} (hconst : g.Lone "Const") (hh : r.visit g a = .ok h)
    (hk : r.visit h b = .ok k) :
    ∃ h' k', r.visit g b = .ok h' ∧ r.visit h' a = .ok k' ∧ k'.Agrees k := by
  have hwf := hg.wellFormed
  have hs := Registry.skeleton_visit hh
  obtain ⟨ws, hws, -⟩ := visit_congr hwf rfl rfl (fun _ _ => rfl) hh
  -- the second operation finds in `g` what it finds after the first one
  have hb : ∀ d ∈ h.sources b, g.fact? d = h.fact? d := fun d hd => by
    rw [hws.fact, hu.fact?_input hg (by rwa [sources_of_skeleton hs] at hd)]
  have hb' : g.attributes? b = h.attributes? b := by
    rw [hws.attributes, hu.attributes?_right hg]
  obtain ⟨vs, hvs, h', hh', hvs'⟩ := visit_congr (hwf.of_skeleton hs) hs.symm hb' hb hk
  have ha : ∀ d ∈ g.sources a, h'.fact? d = g.fact? d := fun d hd => by
    rw [hvs'.fact, hu.symm.fact?_input hg hd]
  have ha' : h'.attributes? a = g.attributes? a := by
    rw [hvs'.attributes, hu.symm.attributes?_right hg]
  obtain ⟨ws', hws', k', hk', hvs''⟩ := visit_congr hwf (Registry.skeleton_visit hh') ha' ha hh
  refine ⟨h', k', hh', hk', ?_⟩
  calc
    Agrees k' (h'.settle a ws') := hvs''
    Agrees _ ((g.settle b vs).settle a ws') := hvs'.settle ws'
    Agrees _ ((g.settle a ws').settle b vs) := (hu.settle hg hconst ws' vs).symm
    Agrees _ (h.settle b vs) := hws'.symm.settle vs
    Agrees _ k := hvs.symm

end Unrelated

/-! ### Topological orders -/

/-- The list holds every operation once, none after one that it feeds. -/
structure Topological (g : Graph) (l : List NodeId) : Prop where
  nodup : l.Nodup
  mem : ∀ {id : NodeId}, id ∈ l ↔ (g.op? id).isSome
  pairwise : l.Pairwise fun a b => ¬g.Feeds b a

lemma topological_iff {l : List NodeId} : g.Topological l ↔ l.Nodup ∧
    (∀ id ∈ l, (g.op? id).isSome) ∧ (∀ id ∈ g.opNodes, id ∈ l) ∧
      l.Pairwise fun a b => ¬g.Feeds b a :=
  ⟨fun ⟨hnodup, hmem, hp⟩ => ⟨hnodup, fun _ => hmem.1, fun _ hid => hmem.2 (mem_opNodes.1 hid), hp⟩,
    fun ⟨hnodup, hops, hall, hp⟩ =>
      ⟨hnodup, fun {id} => ⟨hops id, fun hop => hall id (mem_opNodes.2 hop)⟩, hp⟩⟩

instance {l : List NodeId} : Decidable (g.Topological l) := decidable_of_iff' _ topological_iff

lemma Ready.pairwise {done l : List NodeId} (hl : g.Ready done l)
    (hclosed : ∀ i ∈ done, g.sources i ⊆ done) : l.Pairwise fun a b => ¬g.Feeds b a := by
  induction l generalizing done with
  | nil => exact .nil
  | cons id l ih =>
    refine List.pairwise_cons.2 ⟨fun j hj => ?_, ih hl.2.2 ?_⟩
    · rintro ⟨e, he, e', he', hsrc, hdst, hdst'⟩
      exact not_feeding_of_later hl hclosed hj e' he' hdst' e he hdst hsrc
    · intro i hi
      rcases List.mem_cons.1 hi with rfl | hi
      · exact List.subset_cons_of_subset _ hl.2.1
      · exact List.subset_cons_of_subset _ (hclosed i hi)

/-- The operations of an evaluation order are in topological order. -/
lemma Ordered.topological {l : List NodeId} (hl : g.Ordered l) :
    g.Topological (l.filter fun id => (g.op? id).isSome) where
  nodup := hl.ready.nodup.filter _
  mem := by
    intro id
    rw [List.mem_filter]
    refine ⟨And.right, fun hop => ⟨hl.mem.2 ?_, hop⟩⟩
    obtain ⟨n, hn, -⟩ := isSome_op?.1 hop
    exact hn ▸ rfl
  pairwise := (hl.ready.pairwise (by simp)).filter _

end Graph

namespace Registry

variable {r : Registry} {g h k : Graph} {id a : NodeId} {l l' : List NodeId}

/-- Data nodes are passed over. -/
lemma sweep_filter_ops {p : NodeId → Bool} (hp : ∀ id, p id = (g.op? id).isSome) :
    r.sweep g (l.filter p) = .ok k ↔ r.sweep g l = .ok k := by
  induction l generalizing g with
  | nil => rfl
  | cons id l ih =>
    rw [sweep_cons_eq_ok]
    by_cases hid : p id = true
    · rw [List.filter_cons_of_pos hid, sweep_cons_eq_ok]
      refine exists_congr fun h => and_congr_right fun hh => ih fun j => ?_
      rw [hp, Graph.isSome_op?_of_skeleton (skeleton_visit hh)]
    · rw [List.filter_cons_of_neg hid, ih hp]
      have hnone : g.op? id = none := by
        rw [← Option.not_isSome_iff_eq_none, ← hp]
        exact hid
      have hvisit : r.visit g id = .ok g := visit_eq_ok.2 (.inl ⟨hnone, rfl⟩)
      simp [hvisit]

/-- An operation unrelated to those before it can be visited first. -/
lemma sweep_front {pre post : List NodeId} (hg : Runnable g) (hconst : g.Lone "Const")
    (hpre : ∀ x ∈ pre, g.Unrelated x a) (hk : r.sweep g (pre ++ a :: post) = .ok k) :
    ∃ k', r.sweep g (a :: (pre ++ post)) = .ok k' ∧ k'.Agrees k := by
  induction pre generalizing g with
  | nil => exact ⟨k, hk, .refl k⟩
  | cons x pre ih =>
    obtain ⟨h, hh, hk⟩ := sweep_cons_eq_ok.1 hk
    have hs := skeleton_visit hh
    obtain ⟨k₁, hk₁, hagree⟩ := ih (hg.of_skeleton hs) (hconst.of_skeleton hs)
      (fun y hy => (hpre y (List.mem_cons_of_mem x hy)).of_skeleton hs) hk
    obtain ⟨m, hm, hk₁⟩ := sweep_cons_eq_ok.1 hk₁
    obtain ⟨h', m', hh', hm', hagree'⟩ := (hpre x (List.mem_cons_self ..)).visit hg hconst hh hm
    have hwf := hg.wellFormed.of_skeleton ((skeleton_visit hm).trans hs)
    obtain ⟨k₂, hk₂, hagree₂⟩ := Graph.sweep_of_agrees hwf hagree' hk₁
    exact ⟨k₂, sweep_cons_eq_ok.2 ⟨h', hh', sweep_cons_eq_ok.2 ⟨m', hm', hk₂⟩⟩,
      hagree₂.trans hagree⟩

/-- Orders in which nothing feeds what stands before it come to the same. By induction on the second
order, whose first operation is brought to the front of the first one. -/
lemma sweep_perm (hg : Runnable g) (hconst : g.Lone "Const") (hperm : l.Perm l')
    (hops : ∀ id ∈ l, (g.op? id).isSome) (hnodup : l.Nodup)
    (hl : l.Pairwise fun a b => ¬g.Feeds b a) (hl' : l'.Pairwise fun a b => ¬g.Feeds b a)
    (hk : r.sweep g l = .ok k) : ∃ k', r.sweep g l' = .ok k' ∧ k'.Agrees k := by
  induction l' generalizing g l k with
  | nil =>
    obtain rfl := hperm.eq_nil
    exact ⟨k, hk, .refl k⟩
  | cons a l' ih =>
    have hmem : a ∈ l := hperm.mem_iff.2 (List.mem_cons_self ..)
    obtain ⟨pre, post, rfl⟩ := List.append_of_mem hmem
    have hmiddle : (a :: (pre ++ post)).Perm (a :: l') := List.perm_middle.symm.trans hperm
    have hnodup' := List.perm_middle.nodup_iff.1 hnodup
    obtain ⟨ha, hrest⟩ := List.pairwise_cons.1 hl'
    have hpre : ∀ x ∈ pre, g.Unrelated x a := fun x hx => by
      have hx' : x ∈ l' := hmiddle.cons_inv.mem_iff.1 (List.mem_append_left _ hx)
      refine ⟨hops x (List.mem_append_left _ hx), hops a hmem, ?_, ha x hx', ?_⟩
      · rintro rfl
        exact (List.nodup_cons.1 hnodup').1 (List.mem_append_left _ hx)
      · exact (List.pairwise_append.1 hl).2.2 x hx a (List.mem_cons_self ..)
    obtain ⟨k₁, hk₁, hagree⟩ := sweep_front hg hconst hpre hk
    obtain ⟨h, hh, hk₁⟩ := sweep_cons_eq_ok.1 hk₁
    have hs := skeleton_visit hh
    have hfeeds {l : List NodeId} (hl : l.Pairwise fun a b => ¬g.Feeds b a) :
        l.Pairwise fun a b => ¬h.Feeds b a :=
      hl.imp fun hab hf => hab ((Graph.feeds_of_skeleton hs).1 hf)
    have hsub : (pre ++ post).Sublist (pre ++ a :: post) :=
      List.Sublist.append_left (List.sublist_cons_self a post) pre
    obtain ⟨k₂, hk₂, hagree₂⟩ := ih (hg.of_skeleton hs) (hconst.of_skeleton hs) hmiddle.cons_inv
      (fun x hx => (Graph.isSome_op?_of_skeleton hs x).trans (hops x (hsub.subset hx)))
      (List.nodup_cons.1 hnodup').2 (hfeeds (hl.sublist hsub)) (hfeeds hrest) hk₁
    exact ⟨k₂, sweep_cons_eq_ok.2 ⟨h, hh, hk₂⟩, hagree₂.trans hagree⟩

lemma sweep_of_topological (hg : Runnable g) (hconst : g.Lone "Const") (hl : g.Topological l)
    (hl' : g.Topological l') (hk : r.sweep g l = .ok k) :
    ∃ k', r.sweep g l' = .ok k' ∧ k'.Agrees k := by
  have hperm : l.Perm l' := (List.perm_ext_iff_of_nodup hl.nodup hl'.nodup).2 fun id => by
    rw [hl.mem, hl'.mem]
  exact sweep_perm hg hconst hperm (fun id => hl.mem.1) hl.nodup hl.pairwise hl'.pairwise hk

lemma sweep_of_inferEach (hr : r.Local) (hg : Runnable g) (hl : ∀ id ∈ l, (g.op? id).isSome)
    (hx : Gives (l.forM fun id => discard (r.inferNode id)) g () h) :
    ∃ k, r.sweep g l = .ok k ∧ h.Alike k := by
  induction l generalizing g with
  | nil =>
    obtain ⟨-, rfl⟩ := gives_pure.1 hx
    exact ⟨g, rfl, .refl g⟩
  | cons id l ih =>
    obtain ⟨_, g', hx, hrest⟩ := gives_bind.1 hx
    obtain ⟨changed, hx⟩ := gives_discard.1 hx
    obtain ⟨o, ho⟩ := Option.isSome_iff_exists.1 (hl id (List.mem_cons_self ..))
    obtain ⟨m, hm, halike, -⟩ := Gives.visit hr hg.wellFormed ho (hg.apart id) hx
    have hs : g'.skeleton = g.skeleton := halike.skeleton.trans (skeleton_visit hm)
    obtain ⟨k, hk, halike'⟩ := ih (hg.of_skeleton hs)
      (fun j hj => (Graph.isSome_op?_of_skeleton hs j).trans (hl j (List.mem_cons_of_mem id hj)))
      hrest
    obtain ⟨k', hk', hkk'⟩ := sweep_of_alike halike hk
    exact ⟨k', sweep_cons_eq_ok.2 ⟨m, hm, hk'⟩, halike'.trans hkk'⟩

lemma inferEach_of_sweep (hr : r.Local) (hg : Runnable g) (hl : ∀ id ∈ l, (g.op? id).isSome)
    (hk : r.sweep g l = .ok k) :
    ∃ h, Gives (l.forM fun id => discard (r.inferNode id)) g () h ∧ h.Alike k := by
  induction l generalizing g k with
  | nil =>
    cases hk
    exact ⟨g, gives_pure.2 ⟨rfl, rfl⟩, .refl g⟩
  | cons id l ih =>
    obtain ⟨m, hm, hk⟩ := sweep_cons_eq_ok.1 hk
    obtain ⟨o, ho⟩ := Option.isSome_iff_exists.1 (hl id (List.mem_cons_self ..))
    obtain ⟨changed, g', hx, halike, -⟩ := gives_of_visit hr hg.wellFormed ho (hg.apart id) hm
    have hs : g'.skeleton = g.skeleton := halike.skeleton.trans (skeleton_visit hm)
    obtain ⟨k', hk', hkk'⟩ := sweep_of_alike halike.symm hk
    obtain ⟨h, hrest, halike'⟩ := ih (hg.of_skeleton hs)
      (fun j hj => (Graph.isSome_op?_of_skeleton hs j).trans (hl j (List.mem_cons_of_mem id hj)))
      hk'
    exact ⟨h, gives_bind.2 ⟨(), g', gives_discard.2 ⟨changed, hx⟩, hrest⟩,
      halike'.trans hkk'.symm⟩

/-- Inference of all operations comes to a sweep over them in any topological order. -/
lemma exists_sweep_of_inferAll (hr : r.Local) (hg : g.WellFormed) (hconst : g.Lone "Const")
    (hl : g.Topological l) {n : Nat} (hx : Gives r.inferAll g n h) :
    ∃ k, r.sweep g l = .ok k ∧ h.Agrees k := by
  obtain ⟨m, order, k, hm, horder, hk, hagree⟩ := Graph.sweep_of_inferAll hr hg hx
  have horder := Graph.evalOrder_of_skeleton hm.skeleton.symm horder
  obtain ⟨k₁, hk₁, hagree₁⟩ := Graph.sweep_of_agrees (hg.of_skeleton hm.skeleton) hm.symm hk
  obtain ⟨k₂, hk₂, hagree₂⟩ := sweep_of_topological (runnable_of_evalOrder hg horder) hconst
    (Graph.ordered_of_evalOrder horder).topological hl ((sweep_filter_ops fun _ => rfl).2 hk₁)
  exact ⟨k₂, hk₂, hagree.trans (hagree₁.symm.trans hagree₂.symm)⟩

/-- A sweep in a topological order that succeeds is inference of all operations. -/
lemma exists_inferAll_of_sweep (hr : r.Local) (hg : g.WellFormed) (hacyclic : g.Acyclic)
    (hconst : g.Lone "Const") (hl : g.Topological l) (hk : r.sweep g l = .ok k) :
    ∃ n h, Gives r.inferAll g n h ∧ h.Agrees k := by
  obtain ⟨order, horder⟩ := Graph.exists_evalOrder hg hacyclic
  refine Graph.inferAll_of_sweep hr hg horder fun m hm => ?_
  obtain ⟨k₁, hk₁, hagree₁⟩ := sweep_of_topological (runnable_of_evalOrder hg horder) hconst hl
    (Graph.ordered_of_evalOrder horder).topological hk
  obtain ⟨k₂, hk₂, hagree₂⟩ :=
    Graph.sweep_of_agrees hg hm ((sweep_filter_ops fun _ => rfl).1 hk₁)
  exact ⟨k₂, hk₂, hagree₂.trans hagree₁⟩

end Registry

/-- **Order of inference**: in an acyclic graph whose constants have one output at most, inferring
the operations one after the other in any topological order succeeds exactly when inferring all of
them does, and leaves the same attributes, shapes and values. -/
theorem Graph.inferEach_meets_inferAll {g : Graph} {l : List NodeId} (hg : g.WellFormed)
    (hacyclic : g.Acyclic) (hconst : g.Lone "Const") (hl : g.Topological l) :
    ((∃ h, Gives (l.forM fun id => discard (Registry.standard.inferNode id)) g () h) ↔
        ∃ n k, Gives Registry.standard.inferAll g n k) ∧
      ∀ h n k, Gives (l.forM fun id => discard (Registry.standard.inferNode id)) g () h →
        Gives Registry.standard.inferAll g n k → h.Agrees k := by
  have hlocal := Registry.local_standard
  have hrun : Registry.Runnable g := ⟨hg, hacyclic.apart⟩
  have hops : ∀ id ∈ l, (g.op? id).isSome := fun id => hl.mem.1
  refine ⟨⟨?_, ?_⟩, fun h n k hx hy => ?_⟩
  · rintro ⟨h, hx⟩
    obtain ⟨m, hm, -⟩ := Registry.sweep_of_inferEach hlocal hrun hops hx
    obtain ⟨n, k, hy, -⟩ := Registry.exists_inferAll_of_sweep hlocal hg hacyclic hconst hl hm
    exact ⟨n, k, hy⟩
  · rintro ⟨n, k, hy⟩
    obtain ⟨m, hm, -⟩ := Registry.exists_sweep_of_inferAll hlocal hg hconst hl hy
    obtain ⟨h, hx, -⟩ := Registry.inferEach_of_sweep hlocal hrun hops hm
    exact ⟨h, hx⟩
  · obtain ⟨m, hm, halike⟩ := Registry.sweep_of_inferEach hlocal hrun hops hx
    obtain ⟨m', hm', hagree⟩ := Registry.exists_sweep_of_inferAll hlocal hg hconst hl hy
    cases hm.symm.trans hm'
    exact halike.agrees.trans hagree.symm

/-- Two operations that read one input, one of them with an axis counted from the right. -/
def forked : Edit Unit := do
  let x ← addParameter "x" [2, 3]
  let axes ← addConst "axes" (.ofInts [-1])
  let y ← wire "y" (.ofKind "Unsqueeze") [x, axes]
  let z ← wire "z" (.ofKind "Relu") [x]
  discard (addResult "left" y)
  discard (addResult "right" z)

/-- The operation that reads the shared input goes first, and the one that writes back to its
constant last. -/
theorem inferEach_meets_inferAll_forked :
    let g := (forked.run ∅).graph
    let l : List NodeId := [⟨2⟩, ⟨0⟩, ⟨6⟩, ⟨9⟩, ⟨4⟩, ⟨8⟩]
    let each := l.forM fun id => discard (Registry.standard.inferNode id)
    let h := (each.run g).graph
    let k := (Registry.standard.inferAll.run g).graph
    g.WellFormed ∧ g.Acyclic ∧ g.Lone "Const" ∧ g.Topological l ∧ Gives each g () h ∧
      Gives Registry.standard.inferAll g 6 k ∧ h.Agrees k := by
  intro g l each h k
  have hg : g.WellFormed := by decide +kernel
  have horder : g.evalOrder = .ok [⟨0⟩, ⟨1⟩, ⟨2⟩, ⟨3⟩, ⟨4⟩, ⟨5⟩, ⟨8⟩, ⟨6⟩, ⟨7⟩, ⟨9⟩] :=
    toOption_eq_some.1 (by decide +kernel)
  have hacyclic : g.Acyclic := (Graph.ordered_of_evalOrder horder).acyclic hg
  have hconst : g.Lone "Const" := by decide +kernel
  have hl : g.Topological l := by decide +kernel
  have hx : Gives each g () h := ⟨toOption_eq_some.1 (by decide +kernel), rfl⟩
  have hy : Gives Registry.standard.inferAll g 6 k := ⟨toOption_eq_some.1 (by decide +kernel), rfl⟩
  exact ⟨hg, hacyclic, hconst, hl, hx, hy,
    (Graph.inferEach_meets_inferAll hg hacyclic hconst hl).2 h 6 k hx hy⟩

end TensorGraph
