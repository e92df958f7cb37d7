import Mathlib.Data.Prod.Lex
import Mathlib.Data.Fintype.Order
import Mathlib.Order.WellFounded
import TensorGraph.Pipeline.Schedule
import TensorGraph.Proofs.Edits

/-!
Which order a schedule has.

`Canonical ds l` says that at every place of `l` stands the least transformation, by stage and then
by registration, of those whose predecessors stand before it. Everything else about schedules
follows from it: nothing stands twice, predecessors stand before, and stages never fall. It can be
continued as long as something is left out, unless dependencies go round in a circle
(`exists_ready`).
-/

namespace TensorGraph.Schedule

variable {ds : List Descriptor} {deps : List (Nat × Nat)} {i j n : Nat} {l placed : List Nat}

/-! ### Dependencies -/

/-- The transformation at the first index has to stand before the one at the second: one of them
says so of the id of the other. -/
def Precedes (ds : List Descriptor) (i j : Nat) : Prop :=
  ∃ d e, ds[i]? = some d ∧ ds[j]? = some e ∧ (d.id ∈ e.after ∨ e.id ∈ d.before)

lemma Precedes.lt_left (h : Precedes ds i j) : i < ds.length := by
  obtain ⟨d, e, hd, -⟩ := h
  exact (List.getElem?_eq_some_iff.1 hd).1

lemma Precedes.lt_right (h : Precedes ds i j) : j < ds.length := by
  obtain ⟨d, e, -, he, -⟩ := h
  exact (List.getElem?_eq_some_iff.1 he).1

lemma duplicate?_eq_none {seen : List String} :
    duplicate? seen ds = none ↔ (ds.map (·.id)).Nodup ∧ ∀ d ∈ ds, d.id ∉ seen := by
  induction ds generalizing seen with
  | nil => simp [duplicate?]
  | cons d ds ih =>
    by_cases hd : d.id ∈ seen
    · simp [duplicate?, hd]
    · have hstep : duplicate? seen (d :: ds) = duplicate? (d.id :: seen) ds := by
        simp [duplicate?, hd]
      rw [hstep, ih]
      simp only [List.map_cons, List.nodup_cons, List.mem_map, List.mem_cons, not_or, not_exists,
        not_and, forall_eq_or_imp]
      constructor
      · rintro ⟨hnodup, hseen⟩
        exact ⟨⟨fun e he => (hseen e he).1, hnodup⟩, hd, fun e he => (hseen e he).2⟩
      · rintro ⟨⟨hnot, hnodup⟩, -, hseen⟩
        exact ⟨hnodup, fun e he => ⟨hnot e he, hseen e he⟩⟩

/-- Where ids are distinct, the index of an id is the only one. -/
lemma index?_eq_some (hids : (ds.map (·.id)).Nodup) {id : String} :
    index? ds id = some i ↔ ∃ d, ds[i]? = some d ∧ d.id = id := by
  unfold index?
  rw [List.findIdx?_eq_some_iff_getElem]
  constructor
  · rintro ⟨hi, heq, -⟩
    exact ⟨ds[i], List.getElem?_eq_getElem hi, by simpa using heq⟩
  · rintro ⟨d, hd, rfl⟩
    obtain ⟨hi, rfl⟩ := List.getElem?_eq_some_iff.1 hd
    refine ⟨hi, by simp, fun k hk heq => ?_⟩
    have hi' : i < (ds.map (·.id)).length := by simpa
    have hk' : k < (ds.map (·.id)).length := Nat.lt_trans hk hi'
    have hsame : (ds.map (·.id))[k] = (ds.map (·.id))[i] := by simpa using heq
    have := hids.getElem_inj_iff.1 hsame
    omega

lemma mem_dependencies (hids : (ds.map (·.id)).Nodup) :
    (i, j) ∈ dependencies ds ↔ Precedes ds i j := by
  have hafter : ∀ {e : Descriptor} {k : Nat} {id : String},
      (declareAfter ds e k id).pair? = some (i, j) ↔ index? ds id = some i ∧ k = j := by
    intro e k id
    unfold declareAfter
    rcases index? ds id with _ | m <;> simp [Declared.pair?]
  have hbefore : ∀ {e : Descriptor} {k : Nat} {id : String},
      (declareBefore ds e k id).pair? = some (i, j) ↔ index? ds id = some j ∧ k = i := by
    intro e k id
    unfold declareBefore
    rcases index? ds id with _ | m <;> simp [Declared.pair?, and_comm]
  simp only [dependencies, declared, List.mem_filterMap, List.mem_flatMap, List.mem_append,
    List.mem_map, Prod.exists, List.mk_mem_zipIdx_iff_getElem?]
  constructor
  · rintro ⟨_, ⟨e, k, he, ⟨id, hid, rfl⟩ | ⟨id, hid, rfl⟩⟩, hpair⟩
    · obtain ⟨hindex, rfl⟩ := hafter.1 hpair
      obtain ⟨d, hd, rfl⟩ := (index?_eq_some hids).1 hindex
      exact ⟨d, e, hd, he, Or.inl hid⟩
    · obtain ⟨hindex, rfl⟩ := hbefore.1 hpair
      obtain ⟨d, hd, rfl⟩ := (index?_eq_some hids).1 hindex
      exact ⟨e, d, he, hd, Or.inr hid⟩
  · rintro ⟨d, e, hd, he, hid | hid⟩
    · exact ⟨_, ⟨e, j, he, Or.inl ⟨d.id, hid, rfl⟩⟩,
        hafter.2 ⟨(index?_eq_some hids).2 ⟨d, hd, rfl⟩, rfl⟩⟩
    · exact ⟨_, ⟨d, i, hd, Or.inr ⟨e.id, hid, rfl⟩⟩,
        hbefore.2 ⟨(index?_eq_some hids).2 ⟨e, he, rfl⟩, rfl⟩⟩

/-! ### What may come next -/

/-- The index is not placed, and all its predecessors are. -/
structure Ready (ds : List Descriptor) (placed : List Nat) (i : Nat) : Prop where
  lt : i < ds.length
  fresh : i ∉ placed
  placed : ∀ j, Precedes ds j i → j ∈ placed

/-- The least index, by stage and then by registration, of those that may come next. -/
def Least (ds : List Descriptor) (placed : List Nat) (i : Nat) : Prop :=
  Ready ds placed i ∧
    ∀ j, Ready ds placed j → toLex (stageAt ds i, i) ≤ toLex (stageAt ds j, j)

/-- The dependencies are those declared. -/
def Declares (ds : List Descriptor) (deps : List (Nat × Nat)) : Prop :=
  ∀ i j, (i, j) ∈ deps ↔ Precedes ds i j

/-! ### Canonical orders -/

/-- At every place stands the least index of those that may come next. -/
def Canonical (ds : List Descriptor) (l : List Nat) : Prop :=
  ∀ k (hk : k < l.length), Least ds (l.take k) l[k]

lemma canonical_concat : Canonical ds (l ++ [i]) ↔ Canonical ds l ∧ Least ds l i := by
  constructor
  · intro h
    refine ⟨fun k hk => ?_, ?_⟩
    · have := h k (by simp; omega)
      rwa [List.take_append_of_le_length (by omega), List.getElem_append_left hk] at this
    · have := h l.length (by simp)
      rwa [List.take_left, List.getElem_concat_length rfl] at this
  · rintro ⟨hl, hi⟩ k hk
    rw [List.length_append, List.length_singleton] at hk
    rcases Nat.lt_or_eq_of_le (Nat.le_of_lt_succ hk) with hk' | rfl
    · rw [List.take_append_of_le_length (by omega), List.getElem_append_left hk']
      exact hl k hk'
    · rwa [List.take_left, List.getElem_concat_length rfl]

/-- Where dependencies do not go round, a list that leaves something out can go on. -/
lemma exists_ready (hacyclic : ∀ i, ¬Relation.TransGen (Precedes ds) i i)
    (hlen : l.length < ds.length) : ∃ i, Ready ds l i := by
  let r : Fin ds.length → Fin ds.length → Prop := fun i j => Relation.TransGen (Precedes ds) i j
  have : IsTrans _ r := ⟨fun _ _ _ hij hjk => hij.trans hjk⟩
  have : Std.Irrefl r := ⟨fun i => hacyclic i⟩
  have hne : {i : Fin ds.length | (i : Nat) ∉ l}.Nonempty := by
    by_contra hempty
    have hsub : List.range ds.length ⊆ l := fun i hi => by
      by_contra hi'
      exact hempty ⟨⟨i, List.mem_range.1 hi⟩, hi'⟩
    have := (List.nodup_range.subperm hsub).length_le
    rw [List.length_range] at this
    omega
  obtain ⟨i, hi, hmin⟩ := (Finite.wellFounded_of_trans_of_irrefl r).has_min _ hne
  refine ⟨i, i.isLt, hi, fun j hj => by_contra fun hj' => ?_⟩
  exact hmin ⟨j, hj.lt_left⟩ hj' (Relation.TransGen.single hj)

/-! ### What canonical orders are like -/

namespace Canonical

lemma nodup (h : Canonical ds l) : l.Nodup := by
  induction l using List.reverseRecOn with
  | nil => exact .nil
  | append_singleton l i ih =>
    obtain ⟨hl, hi, -⟩ := canonical_concat.1 h
    exact List.nodup_append_comm.1 (List.nodup_cons.2 ⟨hi.fresh, ih hl⟩)

lemma lt (h : Canonical ds l) (hi : i ∈ l) : i < ds.length := by
  obtain ⟨k, hk, rfl⟩ := List.getElem_of_mem hi
  exact (h k hk).1.lt

/-- Predecessors stand before. -/
lemma idxOf_lt (h : Canonical ds l) (hi : i ∈ l) (hj : Precedes ds j i) :
    l.idxOf j < l.idxOf i := by
  have hlt := List.idxOf_lt_length_of_mem hi
  have hleast := h (l.idxOf i) hlt
  rw [List.getElem_idxOf hlt] at hleast
  have hmem := hleast.1.placed j hj
  calc l.idxOf j = (l.take (l.idxOf i)).idxOf j := by
        conv_lhs => rw [← List.take_append_drop (l.idxOf i) l]
        rw [List.idxOf_append_of_mem hmem]
    _ < (l.take (l.idxOf i)).length := List.idxOf_lt_length_of_mem hmem
    _ ≤ l.idxOf i := List.length_take_le ..

/-- An index that comes right after another one may come next only because of it, or else it would
have come before it; so stages never fall. -/
lemma pairwise_stage (hback : ∀ i j, Precedes ds i j → stageAt ds i ≤ stageAt ds j)
    (h : Canonical ds l) : l.Pairwise fun i j => stageAt ds i ≤ stageAt ds j := by
  induction l using List.reverseRecOn with
  | nil => exact .nil
  | append_singleton l i ih =>
    obtain ⟨hl, hi, -⟩ := canonical_concat.1 h
    refine List.pairwise_append.2 ⟨ih hl, List.pairwise_singleton .., fun j hj k hk => ?_⟩
    cases List.mem_singleton.1 hk
    rcases List.eq_nil_or_concat' l with rfl | ⟨l, m, rfl⟩
    · cases hj
    have hm : stageAt ds m ≤ stageAt ds i := by
      by_cases hready : ∀ j, Precedes ds j i → j ∈ l
      · have hfresh : i ∉ l := fun hmem => hi.fresh (List.mem_append_left _ hmem)
        rcases Prod.Lex.toLex_le_toLex.1
          ((canonical_concat.1 hl).2.2 i ⟨hi.lt, hfresh, hready⟩) with
          hlt | heq
        · exact Nat.le_of_lt hlt
        · exact Nat.le_of_eq heq.1
      · obtain ⟨j, hj, hnot⟩ : ∃ j, Precedes ds j i ∧ j ∉ l := by simpa using hready
        have hjm : j = m := by simpa [hnot] using hi.placed j hj
        exact hback m i (hjm ▸ hj)
    rcases List.mem_append.1 hj with hj | hj
    · exact Nat.le_trans ((List.pairwise_append.1 (ih hl)).2.2 j hj m (List.mem_singleton.2 rfl)) hm
    · exact List.mem_singleton.1 hj ▸ hm

/-- A canonical order that leaves nothing out lists all indices. -/
lemma perm_range (h : Canonical ds l) (hlen : ds.length ≤ l.length) :
    l.Perm (List.range ds.length) := by
  have hsub : l ⊆ List.range ds.length := fun i hi => List.mem_range.2 (h.lt hi)
  exact (h.nodup.subperm hsub).perm_of_length_le (by simpa using hlen)

/-- Whatever has to stand before a member stands before it. -/
lemma of_transGen (h : Canonical ds l) (hj : j ∈ l) (hij : Relation.TransGen (Precedes ds) i j) :
    i ∈ l ∧ l.idxOf i < l.idxOf j := by
  have hstep : ∀ {i j}, j ∈ l → Precedes ds i j → i ∈ l ∧ l.idxOf i < l.idxOf j := fun hj hp =>
    have hlt := h.idxOf_lt hj hp
    ⟨List.idxOf_lt_length_iff.1 (hlt.trans (List.idxOf_lt_length_of_mem hj)), hlt⟩
  induction hij with
  | single hp => exact hstep hj hp
  | tail _ hp ih =>
    obtain ⟨hmem, hlt⟩ := hstep hj hp
    exact ⟨(ih hmem).1, (ih hmem).2.trans hlt⟩

/-- An order of everything shows that dependencies do not go round. -/
lemma acyclic (h : Canonical ds l) (hlen : ds.length ≤ l.length) (i : Nat) :
    ¬Relation.TransGen (Precedes ds) i i := by
  intro hii
  obtain ⟨j, -, hji⟩ := Relation.TransGen.tail'_iff.1 hii
  have hi : i ∈ l := (h.perm_range hlen).mem_iff.2 (List.mem_range.2 hji.lt_right)
  exact Nat.lt_irrefl _ (h.of_transGen hi hii).2

end Canonical

end TensorGraph.Schedule
