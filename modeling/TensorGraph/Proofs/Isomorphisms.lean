import TensorGraph.Inference.Standard
import TensorGraph.Proofs.Exchanges
import TensorGraph.Proofs.Floats
import TensorGraph.Proofs.Reach

/-!
Comparison of isomorphic graphs.

`ConeIso a b x y φ` says that `φ` carries the nodes that `x` depends on over to those that `y`
depends on, with what they hold and with every edge. A comparison that starts at such a pair goes
through pairs of this kind only: the inputs of both nodes come in the same order, and inputs that
correspond have the same signature, so that they are paired in this order whether or not it
matters (`matchReport_isomorphic`).

Values have to be finite for this, and floats have to lie in memory as they are listed. Even where
nothing is not a number, a graph does not match itself if a value behind the nodes compared is
infinite or is laid out by columns (`matchReport_self_iff`). Inference itself makes values of the
second kind (`matchReport_self_columnSum`).
-/

namespace TensorGraph

/-! ### Contents -/

/-- Contents that are the same up to the mark for inference, with attributes and values that are the
same or equal. -/
inductive Content.Same : Content → Content → Prop
  | op {x y : Operation} : x.kind = y.kind → x.typeName = y.typeName →
      (∀ name, Option.Rel TensorGraph.Same (x.attributes.find? name) (y.attributes.find? name)) →
      Same (.op x) (.op y)
  | data {x y : Fact} : x.shape = y.shape → Option.Rel TensorGraph.Same x.value y.value →
      Same (.data x) (.data y)

/-- Is nothing in the attributes not a number, and is the value ordinary? -/
def Content.isOrdinary : Content → Bool
  | .op o => o.attributes.entries.all fun e => !e.2.hasNaN
  | .data f => f.value.all Tensor.isOrdinary

def Content.hasNaN : Content → Bool
  | .op o => o.attributes.entries.any fun e => e.2.hasNaN
  | .data f => f.value.any Tensor.hasNaN

/-- Are the contents the same, by the equality of attributes and values? -/
def Content.isSame : Content → Content → Bool
  | .op x, .op y =>
    x.kind == y.kind && x.typeName == y.typeName && x.attributes.entries == y.attributes.entries
  | .data x, .data y => x == y
  | _, _ => false

lemma rel_lookup_of_beq {l l' : List (String × Attribute)} (h : (l == l') = true) (name : String) :
    Option.Rel TensorGraph.Same (Dict.lookup name l) (Dict.lookup name l') := by
  induction l generalizing l' with
  | nil =>
    cases l' with
    | nil => exact .none
    | cons => cases h
  | cons e l ih =>
    cases l' with
    | nil => cases h
    | cons e' l' =>
      obtain ⟨k, v⟩ := e
      obtain ⟨k', v'⟩ := e'
      rw [List.cons_beq_cons, Bool.and_eq_true] at h
      obtain ⟨hk, hv⟩ : (k == k') = true ∧ (v == v') = true := Bool.and_eq_true_iff.1 h.1
      obtain rfl := beq_iff_eq.1 hk
      unfold Dict.lookup
      split
      · exact .some (Or.inr hv)
      · exact ih h.2

lemma Content.same_of_isSame {x y : Content} (h : x.isSame y = true) : x.Same y := by
  cases x with
  | op x =>
    cases y with
    | op y =>
      simp only [Content.isSame, Bool.and_eq_true, beq_iff_eq] at h
      exact .op h.1.1 h.1.2 fun name => rel_lookup_of_beq h.2 name
    | data y => cases h
  | data x =>
    cases y with
    | op y => cases h
    | data y =>
      obtain ⟨hshape, hvalue⟩ : (x.shape == y.shape) = true ∧ (x.value == y.value) = true :=
        Bool.and_eq_true_iff.1 h
      refine .data (beq_iff_eq.1 hshape) ?_
      rcases hu : x.value with _ | u <;> rcases hv : y.value with _ | v <;> rw [hu, hv] at hvalue
      · exact .none
      · cases hvalue
      · cases hvalue
      · exact .some (Or.inr hvalue)

lemma Content.Same.differences {withAttributes : Bool} {x y : Content} (h : x.Same y)
    (hx : x.isOrdinary = true) (hy : y.isOrdinary = true) :
    Content.differences withAttributes x y = [] := by
  cases h with
  | @op x y hkind htype hattr =>
    show x.differences y withAttributes = []
    unfold Operation.differences
    rw [if_pos hkind, if_pos htype, List.nil_append, List.nil_append]
    split
    · refine List.filterMap_eq_nil_iff.2 fun name hname => ?_
      -- a name is listed only if one of the operations has it, and then both have
      have hmem : (x.attributes.find? name).isSome ∨ (y.attributes.find? name).isSome := by
        obtain ⟨⟨_, v⟩, hmem, rfl⟩ := List.mem_map.1 hname
        have hfind := Dict.find?_eq_some_iff.2 hmem
        rw [Dict.find?_union, Option.or_eq_some_iff] at hfind
        rcases hfind with hfind | ⟨-, hfind⟩
        · exact Or.inr (Option.isSome_iff_exists.2 ⟨v, hfind⟩)
        · exact Or.inl (Option.isSome_iff_exists.2 ⟨v, hfind⟩)
      have hrel := hattr name
      rcases hu : x.attributes.find? name with _ | u <;>
        rcases hv : y.attributes.find? name with _ | v <;> rw [hu, hv] at hrel
      · simp [hu, hv] at hmem
      · cases hrel
      · cases hrel
      · cases hrel with
        | some hsame =>
          have hnum := List.all_eq_true.1 hx (name, u) (Dict.find?_eq_some_iff.1 hu)
          exact if_pos (Attribute.beq_of_same (by simpa using hnum) hsame)
    · rfl
  | @data x y hshape hvalue =>
    show x.differences y = []
    have hagree : valuesAgree x.value y.value = true := by
      rcases hu : x.value with _ | u <;> rcases hv : y.value with _ | v <;> rw [hu, hv] at hvalue
      · rfl
      · cases hvalue
      · cases hvalue
      · cases hvalue with
        | some hsame =>
          have hu' : u.isOrdinary = true := by simpa [Content.isOrdinary, hu] using hx
          have hv' : v.isOrdinary = true := by simpa [Content.isOrdinary, hv] using hy
          exact Tensor.isClose_of_same hu' hv' hsame
    unfold Fact.differences
    rw [if_pos hshape, if_pos hagree]
    rfl

lemma Content.same_self (c : Content) : c.Same c := by
  have hrel {α : Type} [BEq α] (o : Option α) : Option.Rel TensorGraph.Same o o := by
    cases o
    · exact .none
    · exact .some (Or.inl rfl)
  cases c with
  | op o => exact .op rfl rfl fun name => hrel _
  | data f => exact .data rfl (hrel _)

/-- Data that are compared with themselves show their value if it is not ordinary. -/
lemma Fact.differences_self {f : Fact} {t : Tensor} (hf : f.value = some t)
    (ht : t.hasNaN = false) :
    f.differences f = if t.isOrdinary then [] else [.value (some t) (some t)] := by
  unfold Fact.differences
  rw [if_pos rfl, List.nil_append, hf]
  show (if t.isClose t = true then [] else _) = _
  rw [Tensor.isClose_of_beq (Tensor.beq_self ht), Bool.and_self]
  rfl

/-- Contents in which everything is a number show no difference to themselves exactly if they are
ordinary. -/
lemma Content.differences_self_iff {withAttributes : Bool} {c : Content} (hc : c.hasNaN = false) :
    Content.differences withAttributes c c = [] ↔ c.isOrdinary = true := by
  refine ⟨fun h => ?_, fun h => c.same_self.differences h h⟩
  cases c with
  | op o => simpa [Content.hasNaN, Content.isOrdinary] using hc
  | data f =>
    show f.value.all Tensor.isOrdinary = true
    rcases hf : f.value with _ | t
    · rfl
    · have ht : t.hasNaN = false := by simpa [Content.hasNaN, hf] using hc
      have hown : f.differences f = [] := h
      rw [Fact.differences_self hf ht] at hown
      by_contra hnot
      rw [Option.all_some] at hnot
      rw [if_neg hnot] at hown
      cases hown

namespace Graph

variable {a b : Graph} {i j x y : NodeId} {φ : NodeId → NodeId} {withAttributes : Bool}

/-! ### Cones -/

/-- The nodes that a node depends on, the node included. -/
def Cone (g : Graph) (x : NodeId) : Set NodeId := {i | g.Reached g.sources [x] i}

/-- `φ` carries the nodes that `x` depends on over to those that `y` depends on, with what they hold
and with the edges between them. -/
structure ConeIso (a b : Graph) (x y : NodeId) (φ : NodeId → NodeId) : Prop where
  bijOn : Set.BijOn φ (a.Cone x) (b.Cone y)
  last : φ x = y
  content : ∀ i ∈ a.Cone x, ∃ m n, a.node? i = some m ∧ b.node? (φ i) = some n ∧
    m.content.Same n.content
  link : ∀ i ∈ a.Cone x, ∀ j ∈ a.Cone x, ∀ out inp, (∃ e ∈ a.edges, e.toLink = ⟨i, j, out, inp⟩) ↔
    ∃ e ∈ b.edges, e.toLink = ⟨φ i, φ j, out, inp⟩

lemma mem_cone_of_edge {g : Graph} (hg : g.WellFormed) {e : Edge} (he : e ∈ g.edges)
    (h : e.dst ∈ g.Cone x) : e.src ∈ g.Cone x := by
  obtain ⟨s, -, hs, -⟩ := hg.ends he
  exact Reached.step h (mem_sources.2 ⟨e, he, rfl, rfl⟩) (by simp [hs])

/-- A link between the nodes that correspond to those of a link. -/
def carry (φ : NodeId → NodeId) (k : Link) : Link := ⟨φ k.src, φ k.dst, k.out, k.inp⟩

namespace ConeIso

/-- Whether `φ` carries the nodes over, with contents and edges, can be told from the lists of both
cones and of all links. -/
lemma of_lists {l l' : List NodeId} {ks ks' : List Link} (hl : a.ancestors [x] = l)
    (hl' : b.ancestors [y] = l') (hks : a.edges.map (·.toLink) = ks)
    (hks' : b.edges.map (·.toLink) = ks') (hlast : φ x = y) (hperm : (l.map φ).Perm l')
    (hinj : (l.map φ).Nodup)
    (hnodes : (l.all fun i => (a.node? i).any fun m => (b.node? (φ i)).any fun n =>
      m.content.isSame n.content) = true)
    (hlinks : ∀ k ∈ ks, carry φ k ∈ ks')
    (hlinks' : ∀ k' ∈ ks', ∃ k ∈ ks, (k.src ∈ l ∧ k.dst ∈ l) ∧ carry φ k = k') :
    a.ConeIso b x y φ := by
  subst hl hl' hks hks'
  have hmem (i : NodeId) : i ∈ a.Cone x ↔ i ∈ a.ancestors [x] := mem_ancestors.symm
  have hinjOn : ∀ i ∈ a.Cone x, ∀ j ∈ a.Cone x, φ i = φ j → i = j := fun i hi j hj =>
    List.inj_on_of_nodup_map hinj ((hmem i).1 hi) ((hmem j).1 hj)
  refine ⟨⟨fun i hi => ?_, fun i hi j hj => hinjOn i hi j hj, fun k hk => ?_⟩, hlast,
    fun i hi => ?_, fun i hi j hj out inp => ⟨?_, ?_⟩⟩
  · exact mem_ancestors.1 (hperm.mem_iff.1 (List.mem_map_of_mem ((hmem i).1 hi)))
  · obtain ⟨i, hi, heq⟩ := List.mem_map.1 (hperm.mem_iff.2 (mem_ancestors.2 hk))
    exact ⟨i, (hmem i).2 hi, heq⟩
  · obtain ⟨m, hm, hn⟩ := (Option.any_eq_true ..).1 (List.all_eq_true.1 hnodes i ((hmem i).1 hi))
    obtain ⟨n, hn, hsame⟩ := (Option.any_eq_true ..).1 hn
    exact ⟨m, n, hm, hn, Content.same_of_isSame hsame⟩
  · rintro ⟨e, he, hlink⟩
    obtain ⟨e', he', heq⟩ := List.mem_map.1 (hlinks _ (List.mem_map_of_mem he))
    exact ⟨e', he', by rw [heq, hlink, carry]⟩
  · rintro ⟨e', he', hlink⟩
    obtain ⟨k, hk, ⟨hsrc, hdst⟩, heq⟩ := hlinks' _ (List.mem_map_of_mem he')
    obtain ⟨e, he, rfl⟩ := List.mem_map.1 hk
    rw [hlink, carry, Link.mk.injEq] at heq
    obtain rfl := hinjOn _ ((hmem _).2 hsrc) i hi heq.1
    obtain rfl := hinjOn _ ((hmem _).2 hdst) j hj heq.2.1
    exact ⟨e, he, by rw [← heq.2.2.1, ← heq.2.2.2]⟩

/-- The inputs of corresponding nodes correspond, port for port. -/
lemma incoming (h : a.ConeIso b x y φ) (ha : a.WellFormed) (hb : b.WellFormed)
    (hi : i ∈ a.Cone x) : List.Forall₂ (fun e e' : Edge => φ e.src = e'.src ∧ e.out = e'.out ∧
      e.inp = e'.inp) (a.incoming i) (b.incoming (φ i)) := by
  have hlinks : (b.incoming (φ i)).map (·.toLink) =
      (a.incoming i).map fun e => carry φ e.toLink := by
    refine incoming_eq_of_mem_iff ha hb (fun _ => rfl) fun l => ?_
    simp only [mem_incoming]
    constructor
    · rintro ⟨e', ⟨he', hdst⟩, rfl⟩
      obtain ⟨k, hk, hsrc⟩ := h.bijOn.surjOn (mem_cone_of_edge hb he' (hdst ▸ h.bijOn.mapsTo hi))
      obtain ⟨e, he, hlink⟩ := (h.link k hk i hi e'.out e'.inp).2 ⟨e', he', by rw [hsrc, ← hdst]⟩
      refine ⟨e, ⟨he, congrArg Link.dst hlink⟩, ?_⟩
      simp [carry, hlink, hsrc, ← hdst]
    · rintro ⟨e, ⟨he, rfl⟩, rfl⟩
      obtain ⟨e', he', hlink⟩ :=
        (h.link e.src (mem_cone_of_edge ha he hi) e.dst hi e.out e.inp).1 ⟨e, he, rfl⟩
      exact ⟨e', ⟨he', congrArg Link.dst hlink⟩, hlink⟩
  rw [← List.forall₂_eq_eq_eq, List.forall₂_map_left_iff, List.forall₂_map_right_iff] at hlinks
  refine (hlinks.flip).imp fun e e' hlink => ?_
  have hlink : e'.toLink = carry φ e.toLink := hlink
  simp [hlink, carry]

lemma fact? (h : a.ConeIso b x y φ) (hi : i ∈ a.Cone x) {f : Fact} (hf : a.fact? i = some f) :
    ∃ f', b.fact? (φ i) = some f' ∧ f.shape = f'.shape := by
  obtain ⟨⟨name, c⟩, ⟨name', c'⟩, hm, hn, hsame⟩ := h.content i hi
  obtain ⟨name'', hf⟩ := fact?_eq_some.1 hf
  cases hm.symm.trans hf
  cases hsame with
  | data hshape hvalue => exact ⟨_, fact?_eq_some.2 ⟨name', hn⟩, hshape⟩

lemma op? (h : a.ConeIso b x y φ) (hi : i ∈ a.Cone x) {o : Operation} (ho : a.op? i = some o) :
    ∃ o', b.op? (φ i) = some o' ∧ o.kind = o'.kind := by
  obtain ⟨⟨name, c⟩, ⟨name', c'⟩, hm, hn, hsame⟩ := h.content i hi
  obtain ⟨name'', ho⟩ := op?_eq_some.1 ho
  cases hm.symm.trans ho
  cases hsame with
  | op hkind htype hattr => exact ⟨_, op?_eq_some.2 ⟨name', hn⟩, hkind⟩

/-- Corresponding inputs of an operation have the same signature. -/
lemma signature (h : a.ConeIso b x y φ) (ha : a.WellFormed) (hb : b.WellFormed) {e e' : Edge}
    (he : e ∈ a.edges) (hdst : e.dst ∈ a.Cone x) {o : Operation} (ho : a.op? e.dst = some o)
    (hsrc : φ e.src = e'.src) :
    ∃ s, a.signature e = .ok s ∧ b.signature e' = .ok s := by
  obtain ⟨f, hf⟩ := ends_of_op_dst ha he ho
  have hcone := mem_cone_of_edge ha he hdst
  obtain ⟨f', hf', hshape⟩ := h.fact? hcone hf
  have hins := h.incoming ha hb hcone
  rw [hsrc] at hf' hins
  unfold Graph.signature
  rw [fact_eq_ok.2 hf, fact_eq_ok.2 hf', ok_bind, ok_bind, producer_eq hf, producer_eq hf', ok_bind,
    ok_bind, ← hshape]
  rcases hc : a.incoming e.src with _ | ⟨c, cs⟩
  · rw [hc] at hins
    rw [List.forall₂_nil_left_iff.1 hins]
    exact ⟨none, rfl, rfl⟩
  · rw [hc] at hins
    obtain ⟨c', cs', hcc, -, hc'⟩ := List.forall₂_cons_left_iff.1 hins
    obtain ⟨hmem, hcdst⟩ := mem_incoming.1 (hc ▸ List.mem_cons_self : c ∈ a.incoming e.src)
    obtain ⟨q, hq⟩ := ends_of_fact_dst ha hmem (hcdst ▸ hf)
    obtain ⟨q', hq', hkind⟩ := h.op? (mem_cone_of_edge ha hmem (hcdst ▸ hcone)) hq
    rw [hcc.1] at hq'
    refine ⟨some (q.kind, f.shape), ?_, ?_⟩
    · show (do return some ((← a.operation c.src).kind, f.shape) : Except Error _) = _
      rw [operation_eq_ok.2 hq]
      rfl
    · rw [hc']
      show (do return some ((← b.operation c'.src).kind, f.shape) : Except Error _) = _
      rw [operation_eq_ok.2 hq', hkind]
      rfl

/-- Corresponding nodes show no difference, and lead to corresponding nodes. -/
lemma checked (h : a.ConeIso b x y φ) (ha : a.WellFormed) (hb : b.WellFormed)
    (hplain : ∀ i ∈ a.Cone x, ∀ n, a.node? i = some n → n.content.isOrdinary = true)
    (hplain' : ∀ i ∈ b.Cone y, ∀ n, b.node? i = some n → n.content.isOrdinary = true)
    {S : List (NodeId × NodeId)} (hS : ∀ i ∈ a.Cone x, (i, φ i) ∈ S) (hi : i ∈ a.Cone x) :
    a.Checked b withAttributes S (i, φ i) := by
  obtain ⟨m, n, hm, hn, hsame⟩ := h.content i hi
  have hins := h.incoming ha hb hi
  refine checked_of_pairs ((a.incoming i).zip (b.incoming (φ i))) hm hn
    (hsame.differences (hplain i hi m hm) (hplain' _ (h.bijOn.mapsTo hi) n hn)) hins.length_eq
    (pairInputs_of_forall₂ fun hc => ?_)
    (fun p hp => ?_) (fun p hp => ?_)
  · obtain ⟨o, ho⟩ := op?_of_isCommutative hm hc
    refine List.forall₂_iff_zip.2 ⟨hins.length_eq, fun {e e'} hee => ?_⟩
    obtain ⟨he, rfl⟩ := mem_incoming.1 (List.of_mem_zip hee).1
    exact h.signature ha hb he hi ho ((List.forall₂_iff_zip.1 hins).2 hee).1
  · obtain ⟨-, hout, hinp⟩ := (List.forall₂_iff_zip.1 hins).2 hp
    simp [portsAgree, hout, hinp]
  · obtain ⟨hsrc, -⟩ := (List.forall₂_iff_zip.1 hins).2 hp
    obtain ⟨he, hdst⟩ := mem_incoming.1 (List.of_mem_zip hp).1
    rw [← hsrc]
    exact hS _ (mem_cone_of_edge ha he (hdst ▸ hi))

end ConeIso

/-- **Isomorphic copies match**: if the nodes that `last` depends on are the same in both graphs up
to names and numbers, with ordinary values and no attribute that is not a number, then the
comparison finds no difference. -/
theorem matchReport_isomorphic (ha : a.WellFormed) (hb : b.WellFormed) {last : String}
    (hx : a.find? last = some x) (hy : b.find? last = some y) (h : a.ConeIso b x y φ)
    (hplain : ∀ i ∈ a.Cone x, ∀ n, a.node? i = some n → n.content.isOrdinary = true)
    (hplain' : ∀ i ∈ b.Cone y, ∀ n, b.node? i = some n → n.content.isOrdinary = true)
    (withAttributes : Bool) : a.matchReport b last withAttributes = .ok (true, "") := by
  let S := (a.ancestors [x]).map fun i => (i, φ i)
  have hS : ∀ i ∈ a.Cone x, (i, φ i) ∈ S := fun i hi =>
    List.mem_map_of_mem (mem_ancestors.2 hi)
  have hchecked : ∀ ids ∈ S, a.Checked b withAttributes S ids := by
    intro ids hids
    obtain ⟨i, hi, rfl⟩ := List.mem_map.1 hids
    exact h.checked ha hb hplain hplain' hS (mem_ancestors.1 hi)
  have hlast : x ∈ a.Cone x := by
    obtain ⟨n, hn, -⟩ := find?_eq_some.1 hx
    exact .start (List.mem_singleton.2 rfl) (by simp [hn])
  have hcompare : a.compare b last withAttributes = .ok [] := by
    refine bind_eq_ok.2 ⟨x, nodeId_eq_ok.2 hx, bind_eq_ok.2 ⟨y, nodeId_eq_ok.2 hy, ?_⟩⟩
    refine comparePairs_of_checked hchecked (List.cons_subset.2 ⟨?_, List.nil_subset _⟩)
    exact h.last ▸ hS x hlast
  exact bind_eq_ok.2 ⟨[], hcompare, rfl⟩

end Graph

/-! ### A sum of constants under other names -/

open Edit

/-- The sum of two constants of one shape. -/
def floatSum : Edit Unit := do
  let a ← addConst "a" (.f32 (.vector [1, 0.25]))
  let b ← addConst "b" (.f32 (.vector [3, 4.5]))
  let sum ← wire "sum" (.ofKind "Add") [a, b]
  discard (addResult "out" sum)

/-- The same sum with the constants added in the other order and under other names. -/
def renamedSum : Edit Unit := do
  let d ← addConst "d" (.f32 (.vector [3, 4.5]))
  let c ← addConst "c" (.f32 (.vector [1, 0.25]))
  let total ← wire "total" (.ofKind "Add") [c, d]
  discard (addResult "out" total)

def renamed (i : NodeId) : NodeId := if i.index < 4 then ⟨(i.index + 2) % 4⟩ else i

lemma coneIso_renamedSum :
    (floatSum.run ∅).graph.ConeIso (renamedSum.run ∅).graph ⟨6⟩ ⟨6⟩ renamed := by
  have hcone : (floatSum.run ∅).graph.ancestors [⟨6⟩] = [⟨2⟩, ⟨3⟩, ⟨0⟩, ⟨1⟩, ⟨4⟩, ⟨5⟩, ⟨6⟩] := by
    decide +kernel
  have hcone' : (renamedSum.run ∅).graph.ancestors [⟨6⟩] =
      [⟨0⟩, ⟨1⟩, ⟨2⟩, ⟨3⟩, ⟨4⟩, ⟨5⟩, ⟨6⟩] := by decide +kernel
  have hlinks : (floatSum.run ∅).graph.edges.map (·.toLink) = [⟨⟨0⟩, ⟨1⟩, 0, 0⟩, ⟨⟨2⟩, ⟨3⟩, 0, 0⟩,
      ⟨⟨4⟩, ⟨5⟩, 0, 0⟩, ⟨⟨1⟩, ⟨4⟩, 0, 0⟩, ⟨⟨3⟩, ⟨4⟩, 0, 1⟩, ⟨⟨5⟩, ⟨6⟩, 0, 0⟩] := by decide +kernel
  have hlinks' : (renamedSum.run ∅).graph.edges.map (·.toLink) = [⟨⟨0⟩, ⟨1⟩, 0, 0⟩,
      ⟨⟨2⟩, ⟨3⟩, 0, 0⟩, ⟨⟨4⟩, ⟨5⟩, 0, 0⟩, ⟨⟨3⟩, ⟨4⟩, 0, 0⟩, ⟨⟨1⟩, ⟨4⟩, 0, 1⟩,
        ⟨⟨5⟩, ⟨6⟩, 0, 0⟩] := by
    decide +kernel
  exact .of_lists hcone hcone' hlinks hlinks' (by decide) (by decide) (by decide)
    (by decide +kernel) (by decide) (by decide)

/-- The constants have one signature and are paired with their copies all the same. -/
theorem matchReport_isomorphic_renamedSum :
    let a := (floatSum.run ∅).graph
    let b := (renamedSum.run ∅).graph
    let φ : NodeId → NodeId := fun i => if i.index < 4 then ⟨(i.index + 2) % 4⟩ else i
    a.ConeIso b ⟨6⟩ ⟨6⟩ φ ∧
      (∀ i ∈ a.Cone ⟨6⟩, ∀ n, a.node? i = some n → n.content.isOrdinary = true) ∧
      (∀ i ∈ b.Cone ⟨6⟩, ∀ n, b.node? i = some n → n.content.isOrdinary = true) ∧
      a.matchReport b "out" true = .ok (true, "") ∧
      a.matchReport b "out" false = .ok (true, "") := by
  intro a b φ
  have ha : a.WellFormed := by decide +kernel
  have hb : b.WellFormed := by decide +kernel
  have hiso : a.ConeIso b ⟨6⟩ ⟨6⟩ φ := coneIso_renamedSum
  have hplain : ∀ i ∈ a.Cone ⟨6⟩, ∀ n, a.node? i = some n → n.content.isOrdinary = true :=
    fun _ _ _ => (Graph.forall_node_iff (P := fun n => n.content.isOrdinary = true)).2
      (by decide +kernel)
  have hplain' : ∀ i ∈ b.Cone ⟨6⟩, ∀ n, b.node? i = some n → n.content.isOrdinary = true :=
    fun _ _ _ => (Graph.forall_node_iff (P := fun n => n.content.isOrdinary = true)).2
      (by decide +kernel)
  have hlast : a.find? "out" = some ⟨6⟩ := by decide +kernel
  have hlast' : b.find? "out" = some ⟨6⟩ := by decide +kernel
  have hmatch (w : Bool) := Graph.matchReport_isomorphic ha hb hlast hlast' hiso hplain hplain' w
  exact ⟨hiso, hplain, hplain', hmatch true, hmatch false⟩

/-! ### A graph and itself -/

namespace Graph

variable {g : Graph} {i x : NodeId} {withAttributes : Bool}

lemma ConeIso.refl (g : Graph) (x : NodeId) : g.ConeIso g x x id where
  bijOn := Set.bijOn_id _
  last := rfl
  content i hi := by
    have hnode : (g.node? i).isSome := by cases hi <;> assumption
    obtain ⟨n, hn⟩ := Option.isSome_iff_exists.1 hnode
    exact ⟨n, n, hn, hn, n.content.same_self⟩
  link _ _ _ _ _ _ := Iff.rfl

/-- The nodes that a node depends on are all compared with themselves. -/
lemma mem_of_mem_cone (hg : g.WellFormed) {S : List (NodeId × NodeId)}
    (hS : ∀ ids ∈ S, g.Checked g withAttributes S ids) (hx : (x, x) ∈ S) (hi : i ∈ g.Cone x) :
    (i, i) ∈ S := by
  induction hi with
  | start hmem =>
    obtain rfl := List.mem_singleton.1 hmem
    exact hx
  | step _ hsource _ ih =>
    obtain ⟨e, he, hdst, rfl⟩ := mem_sources.1 hsource
    obtain ⟨-, -, -, hinputs⟩ := mem_of_checked_self hg (hS _ ih)
    exact hinputs e (mem_incoming.2 ⟨he, hdst⟩)

/-- **A graph and itself**: where everything that `last` depends on is a number, the graph matches
itself exactly if the values of these nodes are ordinary. -/
theorem matchReport_self_iff (hg : g.WellFormed) {last : String}
    (hx : g.find? last = some x)
    (hnum : ∀ i ∈ g.Cone x, ∀ n, g.node? i = some n → n.content.hasNaN = false)
    (withAttributes : Bool) :
    g.matchReport g last withAttributes = .ok (true, "") ↔
      ∀ i ∈ g.Cone x, ∀ n, g.node? i = some n → n.content.isOrdinary = true := by
  have hlast : x ∈ g.Cone x := by
    obtain ⟨n, hn, -⟩ := find?_eq_some.1 hx
    exact .start (List.mem_singleton.2 rfl) (by simp [hn])
  rw [matchReport_empty_iff]
  constructor
  · rintro ⟨x₁, x₂, hx₁, hx₂, S, hmem, hS⟩ i hi n hn
    cases hx.symm.trans hx₁
    cases hx.symm.trans hx₂
    obtain ⟨n', hn', hown, -⟩ := mem_of_checked_self hg (hS _ (mem_of_mem_cone hg hS hmem hi))
    cases hn.symm.trans hn'
    exact (Content.differences_self_iff (hnum i hi n hn)).1 hown
  · intro hplain
    have hmem {i : NodeId} : (i, i) ∈ (g.ancestors [x]).map (fun i => (i, i)) ↔ i ∈ g.Cone x := by
      rw [List.mem_map_of_injective fun _ _ h => (Prod.mk.inj h).1]
      exact mem_ancestors
    refine ⟨x, x, hx, hx, _, hmem.2 hlast, fun ids hids => ?_⟩
    obtain ⟨i, hi, rfl⟩ := List.mem_map.1 hids
    exact (ConeIso.refl g x).checked hg hg hplain hplain (fun i => hmem.2) (mem_ancestors.1 hi)

end Graph

/-! ### A mask of infinities -/

/-- A mask that takes the second of two elements out, as it is added to scores before a softmax. -/
def infiniteMask : Edit Unit := do
  let mask ← addConst "mask" (.f32 (.vector [0, -1 / 0]))
  discard (addResult "out" mask)

/-- The mask does not match itself, though all its elements are numbers. -/
theorem matchReport_self_infiniteMask :
    let g := (infiniteMask.run ∅).graph
    (∀ i ∈ g.Cone ⟨2⟩, ∀ n, g.node? i = some n → n.content.hasNaN = false) ∧
      g.matchReport g "out" true ≠ .ok (true, "") ∧
      g.matchReport g "out" false ≠ .ok (true, "") := by
  intro g
  have hg : g.WellFormed := by decide +kernel
  have hlast : g.find? "out" = some ⟨2⟩ := by decide +kernel
  have hnum : ∀ i ∈ g.Cone ⟨2⟩, ∀ n, g.node? i = some n → n.content.hasNaN = false :=
    fun _ _ _ => (Graph.forall_node_iff (P := fun n => n.content.hasNaN = false)).2
      (by decide +kernel)
  have hmask : ⟨1⟩ ∈ g.Cone ⟨2⟩ :=
    Graph.mem_ancestors.1 (by decide +kernel : ⟨1⟩ ∈ g.ancestors [⟨2⟩])
  have hinf : ¬∀ i ∈ g.Cone ⟨2⟩, ∀ n, g.node? i = some n → n.content.isOrdinary = true := by
    intro h
    have hvalue : ∃ n, g.node? ⟨1⟩ = some n ∧ n.content.isOrdinary = false := ⟨_, rfl, by decide⟩
    obtain ⟨n, hn, hn'⟩ := hvalue
    exact Bool.false_ne_true (hn'.symm.trans (h _ hmask n hn))
  exact ⟨hnum, (Graph.matchReport_self_iff hg hlast hnum true).not.2 hinf,
    (Graph.matchReport_self_iff hg hlast hnum false).not.2 hinf⟩

/-! ### A sum laid out by columns -/

/-- A sum of constants that are stretched along different axes, with what is inferred of it. -/
def columnSum : Edit Unit := do
  let a ← addConst "a" (.f32 ⟨[2, 1, 1], #[1, 2], .rows, rfl, rfl, rfl⟩)
  let b ← addConst "b" (.f32 ⟨[1, 3, 1], #[10, 20, 30], .rows, rfl, rfl, rfl⟩)
  let sum ← wire "sum" (.ofKind "Add") [a, b]
  let _ ← addResult "out" sum
  discard Registry.standard.inferAll

/-- The sum does not match itself, though all elements are finite. -/
theorem matchReport_self_columnSum :
    let g := (columnSum.run ∅).graph
    g.WellFormed ∧ g.find? "out" = some ⟨6⟩ ∧ g.ConeIso g ⟨6⟩ ⟨6⟩ id ∧
      (∀ i ∈ g.Cone ⟨6⟩, ∀ n, g.node? i = some n → n.content.hasNaN = false) ∧
      (∀ d f, g.fact? d = some f → f.value.all Tensor.isFinite = true) ∧
      g.matchReport g "out" true ≠ .ok (true, "") ∧
      g.matchReport g "out" false ≠ .ok (true, "") := by
  intro g
  have hg : g.WellFormed := by decide +kernel
  have hlast : g.find? "out" = some ⟨6⟩ := by decide +kernel
  have hnum : ∀ i ∈ g.Cone ⟨6⟩, ∀ n, g.node? i = some n → n.content.hasNaN = false :=
    fun _ _ _ => (Graph.forall_node_iff (P := fun n => n.content.hasNaN = false)).2
      (by decide +kernel)
  have hfinite : ∀ d f, g.fact? d = some f → f.value.all Tensor.isFinite = true :=
    fun _ _ => (Graph.forall_fact_iff (P := fun f => f.value.all Tensor.isFinite = true)).2
      (by decide +kernel)
  have hsum : ⟨5⟩ ∈ g.Cone ⟨6⟩ :=
    Graph.mem_ancestors.1 (by decide +kernel : ⟨5⟩ ∈ g.ancestors [⟨6⟩])
  have hcolumns : ¬∀ i ∈ g.Cone ⟨6⟩, ∀ n, g.node? i = some n → n.content.isOrdinary = true := by
    intro h
    have hvalue : (g.node? ⟨5⟩).any (fun n => n.content.isOrdinary) = false := by decide +kernel
    rcases hn : g.node? ⟨5⟩ with _ | n
    · exact absurd hn (by decide +kernel)
    · rw [hn] at hvalue
      exact Bool.false_ne_true (hvalue.symm.trans (h _ hsum n hn))
  exact ⟨hg, hlast, .refl g _, hnum, hfinite,
    (Graph.matchReport_self_iff hg hlast hnum true).not.2 hcolumns,
    (Graph.matchReport_self_iff hg hlast hnum false).not.2 hcolumns⟩

end TensorGraph
