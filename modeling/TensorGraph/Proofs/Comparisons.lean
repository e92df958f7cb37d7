import Mathlib.Data.Set.Function
import TensorGraph.Edit.Builder
import TensorGraph.Graph.Compare
import TensorGraph.Proofs.Contents

/-!
What it means that a comparison finds no difference.

`Graph.Bisimulation a b R` says that nodes related by `R` agree in what they hold, and that the
edges into them correspond one to one, with sources that are related again. A comparison without
findings has gone through such a relation (`matchReport_sound`): whatever pair it has seen is free
of differences, and the pairs that this one leads to have been seen or wait in the queue.
-/

namespace TensorGraph

/-! ### Nodes that agree -/

/-- Two attributes, either of which may be missing, are both missing or equal. -/
def attributesAgree : Option Attribute → Option Attribute → Prop
  | none, none => True
  | some x, some y => (x == y) = true
  | _, _ => False

/-- Operations of one kind and one type name, and on demand with equal attributes of the same
names. -/
structure Operation.Agrees (withAttributes : Bool) (a b : Operation) : Prop where
  kind : a.kind = b.kind
  typeName : a.typeName = b.typeName
  attributes : withAttributes = true → ∀ name,
    attributesAgree (a.attributes.find? name) (b.attributes.find? name)

structure Fact.Agrees (a b : Fact) : Prop where
  shape : a.shape = b.shape
  value : (a.value = none ∧ b.value = none) ∨
    ∃ x y, a.value = some x ∧ b.value = some y ∧ x.isClose y = true

inductive Content.Agrees (withAttributes : Bool) : Content → Content → Prop
  | op {x y : Operation} : x.Agrees withAttributes y → Agrees withAttributes (.op x) (.op y)
  | data {x y : Fact} : x.Agrees y → Agrees withAttributes (.data x) (.data y)

namespace Graph

variable {a b : Graph} {withAttributes commutative : Bool}

/-- The edges into two nodes correspond one to one. The ports agree, except that edges into a node
that does not depend on the order of its inputs may stand on other input ports. -/
def EdgesMatch (a b : Graph) (commutative : Bool) (R : NodeId → NodeId → Prop) (x y : NodeId) :
    Prop :=
  ∃ φ : Edge → Edge, Set.BijOn φ {e | e ∈ a.edges ∧ e.dst = x} {e | e ∈ b.edges ∧ e.dst = y} ∧
    ∀ e ∈ a.edges, e.dst = x → e.out = (φ e).out ∧ (commutative = false → e.inp = (φ e).inp) ∧
      R e.src (φ e).src

/-- Related nodes agree, and so do the edges into them and where these come from. -/
def Bisimulation (a b : Graph) (withAttributes : Bool) (R : NodeId → NodeId → Prop) : Prop :=
  ∀ x y, R x y → ∃ m n, a.node? x = some m ∧ b.node? y = some n ∧
    m.content.Agrees withAttributes n.content ∧
    (a.incoming x).length = (b.incoming y).length ∧ a.EdgesMatch b m.isCommutative R x y

/-! ### No differences between contents -/

lemma mem_keys_of_find? {α : Type} {d : Dict α} {name : String} {v : α}
    (h : d.find? name = some v) : name ∈ d.keys :=
  List.mem_map.2 ⟨(name, v), Dict.find?_eq_some_iff.1 h, rfl⟩

lemma mem_attributeNames {x y : Attributes} {name : String}
    (h : (x.find? name).isSome ∨ (y.find? name).isSome) : name ∈ attributeNames x y := by
  obtain ⟨v, hv⟩ : ∃ v, (x.union y).find? name = some v := by
    rw [← Option.isSome_iff_exists, Dict.find?_union, Option.isSome_or, Bool.or_eq_true]
    exact h.symm
  exact mem_keys_of_find? hv

lemma agrees_of_differences_op {x y : Operation} (h : x.differences y withAttributes = []) :
    x.Agrees withAttributes y := by
  unfold Operation.differences at h
  rw [List.append_eq_nil_iff, List.append_eq_nil_iff] at h
  obtain ⟨⟨hkind, htype⟩, hattrs⟩ := h
  refine ⟨by_contra fun hne => ?_, by_contra fun hne => ?_, fun hw name => ?_⟩
  · rw [if_neg hne] at hkind
    cases hkind
  · rw [if_neg hne] at htype
    cases htype
  · rw [if_pos hw, List.filterMap_eq_nil_iff] at hattrs
    by_cases hname : name ∈ attributeNames x.attributes y.attributes
    · have := hattrs name hname
      revert this
      rcases x.attributes.find? name with _ | u <;> rcases y.attributes.find? name with _ | v <;>
        simp [attributesAgree]
    · obtain ⟨hx, hy⟩ := not_or.1 fun h => hname (mem_attributeNames h)
      rw [Option.not_isSome_iff_eq_none.1 hx, Option.not_isSome_iff_eq_none.1 hy]
      trivial

lemma agrees_of_differences_data {x y : Fact} (h : x.differences y = []) : x.Agrees y := by
  unfold Fact.differences at h
  rw [List.append_eq_nil_iff] at h
  obtain ⟨hshape, hvalue⟩ := h
  refine ⟨by_contra fun hne => ?_, ?_⟩
  · rw [if_neg hne] at hshape
    cases hshape
  · revert hvalue
    rcases x.value with _ | u <;> rcases y.value with _ | v <;> simp [valuesAgree]
    by_cases hclose : u.isClose v = true <;> simp [hclose]

lemma agrees_of_differences {x y : Content} (h : Content.differences withAttributes x y = []) :
    x.Agrees withAttributes y := by
  rcases x with o | f <;> rcases y with p | f'
  · exact .op (agrees_of_differences_op h)
  · cases h
  · cases h
  · exact .data (agrees_of_differences_data h)

/-! ### Pairs of inputs -/

lemma takeSigned_perm {sig : Option (String × Option Shape)} {es rest : List Edge} {f : Edge}
    (h : b.takeSigned sig es = .ok (some (f, rest))) : (f :: rest).Perm es := by
  induction es generalizing rest with
  | nil => cases h
  | cons e es ih =>
    rw [takeSigned, bind_eq_ok] at h
    obtain ⟨s, -, h⟩ := h
    split at h
    · cases h
      exact .refl _
    · obtain ⟨r, hr, h⟩ := bind_eq_ok.1 h
      obtain ⟨⟨f', rest'⟩, rfl, heq⟩ := Option.map_eq_some_iff.1 (Except.ok.inj h)
      cases heq
      exact (List.Perm.swap ..).trans ((ih hr).cons e)

/-- What is paired and what is left make up the edges on either side. -/
lemma pairSigned_perm {es free left rest : List Edge} {pairs : List (Edge × Edge)}
    (h : a.pairSigned b es free = .ok (pairs, left, rest)) :
    (pairs.map (·.1) ++ left).Perm es ∧ (pairs.map (·.2) ++ rest).Perm free := by
  induction es generalizing free left rest pairs with
  | nil =>
    cases h
    exact ⟨.refl _, .refl _⟩
  | cons e es ih =>
    rw [pairSigned, bind_eq_ok] at h
    obtain ⟨s, -, h⟩ := h
    obtain ⟨taken, htaken, h⟩ := bind_eq_ok.1 h
    rcases taken with _ | ⟨f, free'⟩
    · obtain ⟨⟨pairs', left', rest'⟩, hrec, h⟩ := bind_eq_ok.1 h
      cases h
      obtain ⟨hleft, hright⟩ := ih hrec
      exact ⟨List.perm_middle.trans (hleft.cons e), hright⟩
    · obtain ⟨⟨pairs', left', rest'⟩, hrec, h⟩ := bind_eq_ok.1 h
      cases h
      obtain ⟨hleft, hright⟩ := ih hrec
      exact ⟨hleft.cons e, (hright.cons f).trans (takeSigned_perm htaken)⟩

/-- Inputs that are as many on both sides are all paired. -/
lemma pairInputs_perm {insA insB : List Edge} {pairs : List (Edge × Edge)}
    (hlen : insA.length = insB.length) (h : a.pairInputs b commutative insA insB = .ok pairs) :
    (pairs.map (·.1)).Perm insA ∧ (pairs.map (·.2)).Perm insB := by
  cases commutative with
  | false =>
    cases h
    rw [List.map_fst_zip (Nat.le_of_eq hlen), List.map_snd_zip (Nat.le_of_eq hlen.symm)]
    exact ⟨.refl _, .refl _⟩
  | true =>
    obtain ⟨⟨signed, left, rest⟩, hsigned, heq⟩ := bind_eq_ok.1 h
    cases heq
    obtain ⟨hleft, hright⟩ := pairSigned_perm hsigned
    have hlen' : left.length = rest.length := by
      have h₁ := hleft.length_eq
      have h₂ := hright.length_eq
      simp only [List.length_append, List.length_map] at h₁ h₂
      omega
    rw [List.map_append, List.map_append, List.map_fst_zip (Nat.le_of_eq hlen'),
      List.map_snd_zip (Nat.le_of_eq hlen'.symm)]
    exact ⟨hleft, hright⟩

def partner (pairs : List (Edge × Edge)) (e : Edge) : Edge :=
  ((pairs.find? fun p => p.1 == e).map (·.2)).getD e

lemma partner_eq {pairs : List (Edge × Edge)} (hnodup : (pairs.map (·.1)).Nodup) {p : Edge × Edge}
    (hp : p ∈ pairs) : partner pairs p.1 = p.2 := by
  unfold partner
  induction pairs with
  | nil => cases hp
  | cons q pairs ih =>
    obtain ⟨hq, hnodup⟩ := List.nodup_cons.1 hnodup
    rcases List.mem_cons.1 hp with rfl | hp
    · simp
    · have hne : q.1 ≠ p.1 := fun heq => hq (List.mem_map.2 ⟨p, hp, heq.symm⟩)
      rw [List.find?_cons_of_neg (by simpa using hne)]
      exact ih hnodup hp

/-- Pairs that hold every edge into two nodes once make a correspondence. -/
lemma edgesMatch_of_pairs {R : NodeId → NodeId → Prop} {x y : NodeId}
    {pairs : List (Edge × Edge)} (hleft : (pairs.map (·.1)).Perm (a.incoming x))
    (hright : (pairs.map (·.2)).Perm (b.incoming y))
    (hports : ∀ p ∈ pairs, portsAgree commutative p = true)
    (hR : ∀ p ∈ pairs, R p.1.src p.2.src) : a.EdgesMatch b commutative R x y := by
  have hnodup : (pairs.map (·.1)).Nodup := hleft.nodup_iff.2 (a.nodup_incoming x)
  have hnodup' : (pairs.map (·.2)).Nodup := hright.nodup_iff.2 (b.nodup_incoming y)
  -- every edge into the first node is the first part of a pair
  have hpair : ∀ {e : Edge}, e ∈ a.edges → e.dst = x → ∃ p ∈ pairs, p.1 = e := fun he hdst =>
    List.mem_map.1 (hleft.mem_iff.2 (mem_incoming.2 ⟨he, hdst⟩))
  refine ⟨partner pairs, ⟨?_, ?_, ?_⟩, ?_⟩
  · rintro e ⟨he, hdst⟩
    obtain ⟨p, hp, rfl⟩ := hpair he hdst
    rw [partner_eq hnodup hp]
    exact mem_incoming.1 (hright.mem_iff.1 (List.mem_map_of_mem hp))
  · rintro e ⟨he, hdst⟩ e' ⟨he', hdst'⟩ heq
    obtain ⟨p, hp, rfl⟩ := hpair he hdst
    obtain ⟨q, hq, rfl⟩ := hpair he' hdst'
    rw [partner_eq hnodup hp, partner_eq hnodup hq] at heq
    rw [List.inj_on_of_nodup_map hnodup' hp hq heq]
  · rintro f ⟨hf, hdst⟩
    obtain ⟨p, hp, rfl⟩ := List.mem_map.1 (hright.mem_iff.2 (mem_incoming.2 ⟨hf, hdst⟩))
    refine ⟨p.1, mem_incoming.1 (hleft.mem_iff.1 (List.mem_map_of_mem hp)), ?_⟩
    exact partner_eq hnodup hp
  · intro e he hdst
    obtain ⟨p, hp, rfl⟩ := hpair he hdst
    have hagree := hports p hp
    rw [portsAgree, Bool.and_eq_true, Bool.or_eq_true, beq_iff_eq, beq_iff_eq] at hagree
    rw [partner_eq hnodup hp]
    refine ⟨hagree.1, fun hc => hagree.2.resolve_left ?_, hR p hp⟩
    simp [hc]

/-! ### The search -/

/-- Inputs are without differences exactly when they are paired with ports that agree; the pairs of
their sources are to be compared next. -/
lemma compareInputs_eq_nil {insA insB : List Edge} {next : List (NodeId × NodeId)} :
    a.compareInputs b commutative insA insB = .ok ([], next) ↔
      insA.length = insB.length ∧ ∃ pairs, a.pairInputs b commutative insA insB = .ok pairs ∧
        (∀ p ∈ pairs, portsAgree commutative p = true) ∧
        next = pairs.map fun p => (p.1.src, p.2.src) := by
  have hfaults (pairs : List (Edge × Edge)) :
      (pairs.filter fun p => !portsAgree commutative p).map
        (fun p => Difference.ports p.1 p.2) = [] ↔
        ∀ p ∈ pairs, portsAgree commutative p = true := by
    simp [List.map_eq_nil_iff, List.filter_eq_nil_iff]
  unfold compareInputs
  constructor
  · intro h
    split at h
    · cases h
    · next hlen =>
      obtain ⟨pairs, hpairs, heq⟩ := bind_eq_ok.1 h
      obtain ⟨hnone, hnext⟩ := Prod.mk.inj (Except.ok.inj heq)
      exact ⟨not_not.1 hlen, pairs, hpairs, (hfaults pairs).1 hnone, hnext.symm⟩
  · rintro ⟨hlen, pairs, hpairs, hports, rfl⟩
    rw [if_neg (not_not.2 hlen)]
    have hnone := (hfaults pairs).2 hports
    exact bind_eq_ok.2 ⟨pairs, hpairs, congrArg (fun ds => Except.ok (ds, _)) hnone⟩

lemma comparePair_eq_nil {ids : NodeId × NodeId} {x y : Node} {next : List (NodeId × NodeId)} :
    a.comparePair b withAttributes ids x y = .ok ([], next) ↔
      Content.differences withAttributes x.content y.content = [] ∧
      a.compareInputs b x.isCommutative (a.incoming ids.1) (b.incoming ids.2) = .ok ([], next) := by
  unfold comparePair
  constructor
  · intro h
    obtain ⟨⟨inputs, next'⟩, hinputs, heq⟩ := bind_eq_ok.1 h
    obtain ⟨hnone, rfl⟩ := Prod.mk.inj (Except.ok.inj heq)
    obtain ⟨hown, rfl⟩ := List.append_eq_nil_iff.1 (List.map_eq_nil_iff.1 hnone)
    exact ⟨hown, hinputs⟩
  · rintro ⟨hown, hinputs⟩
    refine bind_eq_ok.2 ⟨([], next), hinputs, ?_⟩
    rw [hown]
    rfl

/-- A pair without differences, all of whose successors are in a set. -/
def Checked (a b : Graph) (withAttributes : Bool) (S : List (NodeId × NodeId))
    (ids : NodeId × NodeId) : Prop :=
  ∃ x y next, a.node? ids.1 = some x ∧ b.node? ids.2 = some y ∧
    a.comparePair b withAttributes ids x y = .ok ([], next) ∧ next ⊆ S

lemma Checked.mono {S T : List (NodeId × NodeId)} (hST : S ⊆ T) {ids : NodeId × NodeId}
    (h : a.Checked b withAttributes S ids) : a.Checked b withAttributes T ids := by
  obtain ⟨x, y, next, hx, hy, hstep, hnext⟩ := h
  exact ⟨x, y, next, hx, hy, hstep, List.Subset.trans hnext hST⟩

/-- A pair that was compared: its findings are among those of a list, its successors in a set. -/
def Compared (a b : Graph) (withAttributes : Bool) (found : List Finding)
    (S : List (NodeId × NodeId)) (ids : NodeId × NodeId) : Prop :=
  ∃ x y findings next, a.node? ids.1 = some x ∧ b.node? ids.2 = some y ∧
    a.comparePair b withAttributes ids x y = .ok (findings, next) ∧ findings ⊆ found ∧ next ⊆ S

/-- A search ends with a set of pairs that holds what was seen and what was waiting, and in which
what was not seen before is compared. -/
lemma exists_compared {seen queue : List (NodeId × NodeId)} {found result : List Finding}
    (h : a.comparePairs b withAttributes seen found queue = .ok result) :
    found ⊆ result ∧ ∃ S, seen ⊆ S ∧ queue ⊆ S ∧
      ∀ ids ∈ S, ids ∈ seen ∨ a.Compared b withAttributes result S ids := by
  fun_induction comparePairs a b withAttributes seen found queue with
  | case1 seen found =>
    cases h
    exact ⟨List.Subset.refl _, seen, List.Subset.refl _, List.nil_subset _,
      fun ids hids => Or.inl hids⟩
  | case2 seen found ids queue hmem ih =>
    obtain ⟨hfound, S, hseen, hqueue, hS⟩ := ih h
    exact ⟨hfound, S, hseen, List.cons_subset.2 ⟨hseen hmem, hqueue⟩, hS⟩
  | case3 seen found ids queue hmem x y hx hy findings next hstep ih =>
    obtain ⟨hfound, S, hseen, hqueue, hS⟩ := ih h
    obtain ⟨hfound, hfindings⟩ := List.append_subset.1 hfound
    obtain ⟨hids, hseen⟩ := List.cons_subset.1 hseen
    obtain ⟨hqueue, hnext⟩ := List.append_subset.1 hqueue
    refine ⟨hfound, S, hseen, List.cons_subset.2 ⟨hids, hqueue⟩, fun p hp => ?_⟩
    rcases hS p hp with hp | hp
    · rcases List.mem_cons.1 hp with rfl | hp
      · exact Or.inr ⟨x, y, findings, next, hx, hy, hstep, hfindings, hnext⟩
      · exact Or.inl hp
    · exact Or.inr hp
  | case4 | case5 | case6 => cases h

/-- A search without findings ends with a set of checked pairs, but for those seen before. -/
lemma exists_checked {seen queue : List (NodeId × NodeId)} {found : List Finding}
    (h : a.comparePairs b withAttributes seen found queue = .ok []) :
    found = [] ∧ ∃ S, seen ⊆ S ∧ queue ⊆ S ∧
      ∀ ids ∈ S, ids ∈ seen ∨ a.Checked b withAttributes S ids := by
  obtain ⟨hfound, S, hseen, hqueue, hS⟩ := exists_compared h
  refine ⟨List.subset_nil.1 hfound, S, hseen, hqueue, fun ids hids => (hS ids hids).imp_right ?_⟩
  rintro ⟨x, y, findings, next, hx, hy, hstep, hnone, hnext⟩
  obtain rfl := List.subset_nil.1 hnone
  exact ⟨x, y, next, hx, hy, hstep, hnext⟩

/-- A search within a set of checked pairs finds nothing. -/
lemma comparePairs_of_checked {S seen queue : List (NodeId × NodeId)}
    (hS : ∀ ids ∈ S, a.Checked b withAttributes S ids) (hqueue : queue ⊆ S) :
    a.comparePairs b withAttributes seen [] queue = .ok [] := by
  generalize hfound : ([] : List Finding) = found
  fun_induction comparePairs a b withAttributes seen found queue with
  | case1 => rfl
  | case2 seen found ids queue hmem ih => exact ih (List.cons_subset.1 hqueue).2 hfound
  | case3 seen found ids queue hmem x y hx hy findings next hstep ih =>
    obtain ⟨hids, hqueue⟩ := List.cons_subset.1 hqueue
    obtain ⟨x', y', next', hx', hy', hstep', hnext⟩ := hS ids hids
    cases hx.symm.trans hx'
    cases hy.symm.trans hy'
    obtain ⟨rfl, rfl⟩ := Prod.mk.inj (Except.ok.inj (hstep.symm.trans hstep'))
    rw [List.append_nil] at ih ⊢
    exact ih (List.append_subset.2 ⟨hqueue, hnext⟩) hfound
  | case4 seen found ids queue hmem x y hx hy e hstep =>
    obtain ⟨x', y', next', hx', hy', hstep', -⟩ := hS ids (hqueue (List.mem_cons_self ..))
    cases hx.symm.trans hx'
    cases hy.symm.trans hy'
    cases hstep.symm.trans hstep'
  | case5 seen found ids queue hmem hx =>
    obtain ⟨x', y', next', hx', -⟩ := hS ids (hqueue (List.mem_cons_self ..))
    cases hx.symm.trans hx'
  | case6 seen found ids queue hmem hy =>
    obtain ⟨x', y', next', -, hy', -⟩ := hS ids (hqueue (List.mem_cons_self ..))
    cases hy.symm.trans hy'

/-- Pairs that are checked within their set make a bisimulation. -/
lemma bisimulation_of_checked {S : List (NodeId × NodeId)}
    (hS : ∀ ids ∈ S, a.Checked b withAttributes S ids) :
    a.Bisimulation b withAttributes fun x y => (x, y) ∈ S := by
  intro x y hxy
  obtain ⟨m, n, next, hm, hn, hstep, hnext⟩ := hS (x, y) hxy
  obtain ⟨hown, hinputs⟩ := comparePair_eq_nil.1 hstep
  obtain ⟨hlen, pairs, hpairs, hports, rfl⟩ := compareInputs_eq_nil.1 hinputs
  obtain ⟨hleft, hright⟩ := pairInputs_perm hlen hpairs
  refine ⟨m, n, hm, hn, agrees_of_differences hown, hlen, ?_⟩
  exact edgesMatch_of_pairs hleft hright hports fun p hp => hnext (List.mem_map_of_mem hp)

/-! ### Reports -/

lemma message_ne_empty (f : Finding) : f.message ≠ "" := by
  intro h
  simp only [Finding.message, String.append_eq_empty_iff] at h
  exact absurd h.1.1.1.2 (by decide)

lemma report_eq_empty {found : List Finding} : report found = "" ↔ found = [] := by
  cases found with
  | nil => simp [report, Text.separated]
  | cons f found =>
    rcases found with _ | ⟨f', found⟩
    · simpa [report, Text.separated] using message_ne_empty f
    · simp [report, Text.separated, String.intercalate_cons_cons, message_ne_empty f]

/-- The report is empty exactly if the nodes of the name are in a set of pairs that were all checked
and lead to pairs of the set. -/
lemma matchReport_empty_iff {last : String} :
    a.matchReport b last withAttributes = .ok (true, "") ↔
      ∃ x y, a.find? last = some x ∧ b.find? last = some y ∧ ∃ S : List (NodeId × NodeId),
        (x, y) ∈ S ∧ ∀ ids ∈ S, a.Checked b withAttributes S ids := by
  constructor
  · intro h
    obtain ⟨found, hfound, heq⟩ := bind_eq_ok.1 h
    obtain ⟨hnone, -⟩ := Prod.mk.inj (Except.ok.inj heq)
    obtain rfl := List.isEmpty_iff.1 hnone
    obtain ⟨x, hx, hfound⟩ := bind_eq_ok.1 hfound
    obtain ⟨y, hy, hfound⟩ := bind_eq_ok.1 hfound
    obtain ⟨-, S, -, hqueue, hS⟩ := exists_checked hfound
    exact ⟨x, y, nodeId_eq_ok.1 hx, nodeId_eq_ok.1 hy, S, hqueue (List.mem_cons_self ..),
      fun ids hids => (hS ids hids).resolve_left (by simp)⟩
  · rintro ⟨x, y, hx, hy, S, hmem, hS⟩
    have hfound : a.compare b last withAttributes = .ok [] := by
      refine bind_eq_ok.2 ⟨x, nodeId_eq_ok.2 hx, bind_eq_ok.2 ⟨y, nodeId_eq_ok.2 hy, ?_⟩⟩
      exact comparePairs_of_checked hS (List.cons_subset.2 ⟨hmem, List.nil_subset _⟩)
    exact bind_eq_ok.2 ⟨[], hfound, rfl⟩

/-- **Soundness of comparison**: the graphs match exactly when the report is empty, and then the
nodes of the name compared are related by a bisimulation. -/
theorem matchReport_sound {last text : String} {same : Bool}
    (h : a.matchReport b last withAttributes = .ok (same, text)) :
    (same = true ↔ text = "") ∧ (same = true → ∃ R : NodeId → NodeId → Prop,
      (∃ x y, a.find? last = some x ∧ b.find? last = some y ∧ R x y) ∧
      a.Bisimulation b withAttributes R) := by
  obtain ⟨found, hfound, heq⟩ := bind_eq_ok.1 h
  obtain ⟨rfl, rfl⟩ := Prod.mk.inj (Except.ok.inj heq)
  rw [report_eq_empty, List.isEmpty_iff]
  refine ⟨Iff.rfl, ?_⟩
  rintro rfl
  obtain ⟨x, hx, hfound⟩ := bind_eq_ok.1 hfound
  obtain ⟨y, hy, hfound⟩ := bind_eq_ok.1 hfound
  obtain ⟨-, S, -, hqueue, hS⟩ := exists_checked hfound
  refine ⟨fun x y => (x, y) ∈ S, ⟨x, y, nodeId_eq_ok.1 hx, nodeId_eq_ok.1 hy, ?_⟩, ?_⟩
  · exact hqueue (List.mem_cons_self ..)
  · exact bisimulation_of_checked fun ids hids => (hS ids hids).resolve_left (by simp)

end Graph

/-! ### A sum in either order -/

/-- The sum of a parameter and a constant, in either order. -/
def orderedSum (swapped : Bool) : Edit Unit := do
  let x ← Edit.addParameter "x" [2]
  let c ← Edit.addConst "c" (.i64 (.vector [1, 2]))
  let sum ← Edit.wire "sum" (.ofKind "Add") (if swapped then [c, x] else [x, c])
  discard (Edit.addResult "out" sum)

/-- The sums in both orders are related, though their inputs stand on other ports. -/
theorem matchReport_sound_orderedSum :
    let a := ((orderedSum false).run ∅).graph
    let b := ((orderedSum true).run ∅).graph
    a.matchReport b "out" true = .ok (true, "") ∧ ∃ R : NodeId → NodeId → Prop,
      (∃ x y, a.find? "out" = some x ∧ b.find? "out" = some y ∧ R x y) ∧
      a.Bisimulation b true R := by
  intro a b
  have h : a.matchReport b "out" true = .ok (true, "") := toOption_eq_some.1 (by decide +kernel)
  exact ⟨h, (Graph.matchReport_sound h).2 rfl⟩

end TensorGraph
