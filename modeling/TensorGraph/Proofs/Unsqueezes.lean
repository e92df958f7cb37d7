import Mathlib.Data.List.Induction
import TensorGraph.Proofs.ShapeBounds

/-!
Where unit axes are inserted.

The axes are places in the shape that results, but they are inserted one after the other into a
shape that grows. In ascending order each insertion is in reach of the shape so far
(`Places.insertUnits?_eq_some`), and each unit ends up at its place, since the later ones stand
behind it (`Places.getElem?_foldl`). So an unsqueeze that is given distinct axes in range has units
there and else what it was given (`unsqueeze_inserts`).
-/

namespace TensorGraph.Shape

variable {s shape : Shape} {n q : Nat} {ps places : List Nat} {axes : List Int} {rank : Int}

/-! ### Places in ascending order -/

/-- Ascending places in the shape that results when as many dimensions are added to `n`. -/
structure Places (n : Nat) (ps : List Nat) : Prop where
  ascending : ps.Pairwise (· < ·)
  lt : ∀ p ∈ ps, p < n + ps.length

/-- The last place is behind the others and in reach once these are filled. -/
lemma Places.snoc (h : Places n (ps ++ [q])) :
    Places n ps ∧ (∀ p ∈ ps, p < q) ∧ q ≤ n + ps.length := by
  obtain ⟨hps, -, hlt⟩ := List.pairwise_append.1 h.ascending
  have hlast : ∀ p ∈ ps, p < q := fun p hp => hlt p hp q (List.mem_singleton_self q)
  have hq := h.lt q (by simp)
  rw [List.length_append, List.length_singleton] at hq
  refine ⟨⟨hps, fun p hp => ?_⟩, hlast, by omega⟩
  have := hlast p hp
  omega

/-- The shape with a unit at each of the places, one after the other, unless one is past the end. -/
def insertUnits? (s : Shape) (ps : List Nat) : Option Shape :=
  ps.foldlM (fun s p => if p ≤ s.length then some (s.insertIdx p 1) else none) s

/-- The dimensions that do not stand at the places, which are counted from `k`. -/
def outside (ps : List Nat) (k : Nat) (s : Shape) : Shape :=
  ((s.zipIdx k).filter fun d => d.2 ∉ ps).map (·.1)

namespace Places

lemma length_foldl (h : Places s.length ps) :
    (ps.foldl (fun s p => s.insertIdx p 1) s).length = s.length + ps.length :=
  length_foldl_insertIdx h.ascending h.lt

/-- No insertion is past the end. -/
lemma insertUnits?_eq_some (h : Places s.length ps) :
    insertUnits? s ps = some (ps.foldl (fun s p => s.insertIdx p 1) s) := by
  induction ps using List.reverseRecOn with
  | nil => rfl
  | append_singleton ps q ih =>
    obtain ⟨hps, -, hq⟩ := h.snoc
    unfold insertUnits? at ih ⊢
    rw [List.foldlM_append, ih hps, List.foldl_append]
    simp [hps.length_foldl, hq]

/-- A unit is not moved by those behind it. -/
lemma getElem?_foldl (h : Places s.length ps) {p : Nat} (hp : p ∈ ps) :
    (ps.foldl (fun s p => s.insertIdx p 1) s)[p]? = some 1 := by
  induction ps using List.reverseRecOn with
  | nil => cases hp
  | append_singleton ps q ih =>
    obtain ⟨hps, hlt, hq⟩ := h.snoc
    rw [List.foldl_append, List.foldl_cons, List.foldl_nil]
    rcases List.mem_append.1 hp with hp | hp
    · rw [List.getElem?_insertIdx_of_lt (hlt p hp)]
      exact ih hps hp
    · obtain rfl := List.mem_singleton.1 hp
      rw [List.getElem?_insertIdx_self, if_pos (hps.length_foldl ▸ hq)]

end Places

lemma outside_cons (k : Nat) (d : Int) : outside ps k (d :: s) =
    if k ∈ ps then outside ps (k + 1) s else d :: outside ps (k + 1) s := by
  unfold outside
  rw [List.zipIdx_cons, List.filter_cons]
  by_cases hk : k ∈ ps <;> simp [hk]

/-- Dimensions behind the places all stay. -/
lemma outside_of_lt {k : Nat} (hps : ∀ p ∈ ps, p < k) : outside ps k s = s := by
  unfold outside
  rw [List.filter_eq_self.2 fun d hd => ?_, List.zipIdx_map_fst]
  refine decide_eq_true fun hmem => ?_
  have := hps _ hmem
  have := List.le_snd_of_mem_zipIdx hd
  omega

/-- A dimension that is inserted behind the places is taken out again. -/
lemma outside_insertIdx {k : Nat} (hq : q ≤ s.length) (hps : ∀ p ∈ ps, p < k + q) :
    outside (ps ++ [k + q]) k (s.insertIdx q 1) = outside ps k s := by
  induction q generalizing s k with
  | zero =>
    rw [Nat.add_zero] at hps ⊢
    rw [List.insertIdx_zero, outside_cons, if_pos (by simp), outside_of_lt hps,
      outside_of_lt fun p hp => ?_]
    rcases List.mem_append.1 hp with hp | hp
    · exact Nat.lt_succ_of_lt (hps p hp)
    · exact Nat.lt_succ_of_le (Nat.le_of_eq (List.mem_singleton.1 hp))
  | succ q ih =>
    rcases s with _ | ⟨d, s⟩
    · exact absurd hq (by simp)
    have hplace : k + (q + 1) = k + 1 + q := by omega
    have hk : k ∈ ps ++ [k + 1 + q] ↔ k ∈ ps := by
      rw [List.mem_append, List.mem_singleton]
      exact or_iff_left (by omega)
    rw [hplace] at hps ⊢
    rw [List.insertIdx_succ_cons, outside_cons, outside_cons, ih (Nat.le_of_succ_le_succ hq) hps]
    simp only [hk]

lemma outside_congr {k : Nat} (hps : ∀ p, p ∈ ps ↔ p ∈ places) :
    outside ps k s = outside places k s := by
  unfold outside
  simp only [hps]

/-- Without its units the shape is the one they were inserted into. -/
lemma Places.outside_foldl (h : Places s.length ps) :
    outside ps 0 (ps.foldl (fun s p => s.insertIdx p 1) s) = s := by
  induction ps using List.reverseRecOn with
  | nil => exact outside_of_lt (by simp)
  | append_singleton ps q ih =>
    obtain ⟨hps, hlt, hq⟩ := h.snoc
    have hlast := outside_insertIdx (k := 0) (hps.length_foldl ▸ hq) (by simpa using hlt)
    rw [Nat.zero_add] at hlast
    rw [List.foldl_append, List.foldl_cons, List.foldl_nil, hlast]
    exact ih hps

/-! ### Axes -/

lemma repeated?_eq_none_iff (hps : ps.Pairwise (· ≤ ·)) :
    repeated? ps = none ↔ ps.Pairwise (· < ·) := by
  refine ⟨pairwise_of_repeated? hps, fun h => ?_⟩
  clear hps
  induction ps with
  | nil => rfl
  | cons p ps ih =>
    obtain ⟨hp, hps⟩ := List.pairwise_cons.1 h
    rcases ps with _ | ⟨q, ps⟩
    · rfl
    · rw [repeated?, if_neg (Nat.ne_of_lt (hp q (List.mem_cons_self ..)))]
      exact ih hps

lemma pairwise_lt_ascending : (ascending places).Pairwise (· < ·) ↔ places.Nodup := by
  have hperm : (ascending places).Perm places := sortBy_perm ..
  rw [← hperm.nodup_iff]
  refine ⟨fun h => h.imp Nat.ne_of_lt, fun h => ?_⟩
  exact ((pairwise_ascending places).and h).imp fun hlt => Nat.lt_of_le_of_ne hlt.1 hlt.2

lemma normalizeAxis_eq_ok_iff {a : Int} {p : Nat} :
    normalizeAxis a rank = .ok p ↔ (-rank ≤ a ∧ a < rank) ∧ (p : Int) = a % rank := by
  unfold normalizeAxis
  split
  · next h =>
    have hmod : a % rank = if a < 0 then a + rank else a := by
      split
      · rw [← Int.add_emod_right a rank]
        exact Int.emod_eq_of_lt (by omega) (by omega)
      · exact Int.emod_eq_of_lt (by omega) (by omega)
    rw [hmod, Except.ok.injEq]
    refine Iff.trans ?_ (and_iff_right h).symm
    split <;> omega
  · next h => simp [h]

/-- Axes are counted from the left when all are in range. -/
lemma mapM_normalizeAxis_eq_ok : axes.mapM (normalizeAxis · rank) = .ok places ↔
    (∀ a ∈ axes, -rank ≤ a ∧ a < rank) ∧ places.map Int.ofNat = axes.map (· % rank) := by
  induction axes generalizing places with
  | nil => simp [pure, Except.pure, eq_comm]
  | cons a axes ih =>
    rw [List.mapM_cons, bind_eq_ok, List.forall_mem_cons, List.map_cons]
    simp only [bind_eq_ok, ih, normalizeAxis_eq_ok_iff]
    constructor
    · rintro ⟨p, ⟨ha, hp⟩, rest, ⟨haxes, hrest⟩, heq⟩
      obtain rfl := Except.ok.inj heq
      exact ⟨⟨ha, haxes⟩, List.cons_eq_cons.2 ⟨hp, hrest⟩⟩
    · rintro ⟨⟨ha, haxes⟩, heq⟩
      obtain ⟨p, rest, rfl, hp, hrest⟩ := List.map_eq_cons_iff.1 heq
      exact ⟨p, ⟨ha, hp⟩, rest, ⟨haxes, hrest⟩, rfl⟩

/-- Axes counted from the left are counted so again. -/
lemma mapM_normalizeAxis (h : ∀ p ∈ places, (p : Int) < rank) :
    (places.map Int.ofNat).mapM (normalizeAxis · rank) = .ok places := by
  have hplaces : ∀ a ∈ places.map Int.ofNat, 0 ≤ a ∧ a < rank := by
    intro a ha
    obtain ⟨p, hp, rfl⟩ := List.mem_map.1 ha
    exact ⟨Int.natCast_nonneg p, h p hp⟩
  refine mapM_normalizeAxis_eq_ok.2 ⟨fun a ha => ?_, ?_⟩
  · have := hplaces a ha
    omega
  · refine ((List.map_congr_left fun a ha => ?_).trans (List.map_id _)).symm
    exact Int.emod_eq_of_lt (hplaces a ha).1 (hplaces a ha).2

lemma unsqueeze_again (h : unsqueeze s axes = .ok (shape, places)) :
    unsqueeze s (places.map Int.ofNat) = .ok (shape, places) := by
  obtain ⟨hnorm, hrep, hshape⟩ := unsqueeze_eq_ok.1 h
  have hsteps := forall₂_of_mapM hnorm
  refine unsqueeze_eq_ok.2 ⟨?_, hrep, hshape⟩
  rw [List.length_map, ← hsteps.length_eq]
  refine mapM_normalizeAxis fun p hp => ?_
  obtain ⟨axis, -, hstep⟩ := of_forall₂_right hsteps hp
  exact normalizeAxis_lt hstep

/-- The rank of the shape with a dimension for each axis added. -/
def rankWith (input : Shape) (axes : List Int) : Nat := input.length + axes.length

/-- The shape has units at the places that the axes count to, and else the dimensions of the input.
Each unit was inserted in reach, and the places lead to the same shape and the same places. -/
structure Unsqueezed (input : Shape) (axes : List Int) (shape : Shape) (places : List Nat) :
    Prop where
  counted : places.map Int.ofNat = axes.map (· % (rankWith input axes : Int))
  rank : shape.length = rankWith input axes
  unit : ∀ p ∈ places, shape[p]? = some 1
  rest : outside places 0 shape = input
  reached : insertUnits? input (ascending places) = some shape
  again : unsqueeze input (places.map Int.ofNat) = .ok (shape, places)

lemma unsqueeze_eq_ok_iff (hrank : rankWith s axes < 0x8000000000000000) :
    unsqueeze s axes = .ok (shape, places) ↔
      ((∀ a ∈ axes, -(rankWith s axes : Int) ≤ a ∧ a < rankWith s axes) ∧
        places.map Int.ofNat = axes.map (· % (rankWith s axes : Int))) ∧
      places.Nodup ∧ shape = (ascending places).foldl (fun s p => s.insertIdx p 1) s := by
  have hsigned : signed (s.length + axes.length) = rankWith s axes := signed_of_lt hrank
  rw [unsqueeze_eq_ok, hsigned, mapM_normalizeAxis_eq_ok,
    repeated?_eq_none_iff (pairwise_ascending places), pairwise_lt_ascending]

/-- The places of axes in range are those of the shape that results. -/
lemma places_ascending (hcounted : places.map Int.ofNat = axes.map (· % (rankWith s axes : Int)))
    (hnodup : places.Nodup) : Places s.length (ascending places) := by
  refine ⟨pairwise_lt_ascending.2 hnodup, fun p hp => ?_⟩
  have hlen : places.length = axes.length := by simpa using congrArg List.length hcounted
  have hmem : (p : Int) ∈ axes.map (· % (rankWith s axes : Int)) :=
    hcounted ▸ List.mem_map_of_mem (mem_sortBy.1 hp)
  obtain ⟨a, ha, hmod⟩ := List.mem_map.1 hmem
  have hpos : 0 < axes.length := List.length_pos_of_mem ha
  have hlt : a % (rankWith s axes : Int) < rankWith s axes := Int.emod_lt_of_pos _ (by
    unfold rankWith
    omega)
  rw [length_ascending, hlen]
  unfold rankWith at hmod hlt
  omega

lemma nodup_iff_of_counted {r : Int} (hcounted : places.map Int.ofNat = axes.map (· % r)) :
    places.Nodup ↔ axes.Pairwise fun a b => a % r ≠ b % r := by
  rw [← List.nodup_map_iff fun _ _ => Int.ofNat.inj, hcounted, List.Nodup, List.pairwise_map]

/-- **Unit axes are inserted where asked**: for axes of a rank that 63 bits can hold, as those of
all lists in memory are, unsqueezing succeeds exactly when each axis is in range and no two count to
the same place. The units then stand at these places and the rest is what it was; no unit is
inserted past the end, and unsqueezing by the places gives the same. -/
theorem unsqueeze_inserts {input : Shape} {axes : List Int}
    (hrank : rankWith input axes < 0x8000000000000000) :
    ((∃ r, unsqueeze input axes = .ok r) ↔
      (∀ a ∈ axes, -(rankWith input axes : Int) ≤ a ∧ a < rankWith input axes) ∧
      axes.Pairwise fun a b => a % (rankWith input axes : Int) ≠ b % (rankWith input axes : Int)) ∧
    ∀ shape places, unsqueeze input axes = .ok (shape, places) →
      Unsqueezed input axes shape places := by
  refine ⟨⟨?_, ?_⟩, fun shape places h => ?_⟩
  · rintro ⟨⟨shape, places⟩, h⟩
    obtain ⟨⟨hrange, hcounted⟩, hnodup, -⟩ := (unsqueeze_eq_ok_iff hrank).1 h
    exact ⟨hrange, (nodup_iff_of_counted hcounted).1 hnodup⟩
  · rintro ⟨hrange, hdistinct⟩
    have hcounted : (axes.map fun a => (a % (rankWith input axes : Int)).toNat).map Int.ofNat =
        axes.map (· % (rankWith input axes : Int)) := by
      rw [List.map_map]
      refine List.map_congr_left fun a ha => Int.toNat_of_nonneg (Int.emod_nonneg a ?_)
      have := hrange a ha
      omega
    exact ⟨_, (unsqueeze_eq_ok_iff hrank).2
      ⟨⟨hrange, hcounted⟩, (nodup_iff_of_counted hcounted).2 hdistinct, rfl⟩⟩
  · obtain ⟨⟨-, hcounted⟩, hnodup, rfl⟩ := (unsqueeze_eq_ok_iff hrank).1 h
    have hplaces := places_ascending hcounted hnodup
    have hmem (p : Nat) : p ∈ ascending places ↔ p ∈ places := mem_sortBy
    exact ⟨hcounted, length_unsqueeze h, fun p hp => hplaces.getElem?_foldl ((hmem p).2 hp),
      (outside_congr hmem).symm.trans hplaces.outside_foldl, hplaces.insertUnits?_eq_some,
      unsqueeze_again h⟩

/-- Three axes, one of them from the right, come in no order; two that count to the same place are
refused. -/
theorem unsqueeze_inserts_unordered :
    rankWith [2, 3] [3, -5, 2] < 0x8000000000000000 ∧
      unsqueeze [2, 3] [3, -5, 2] = .ok ([1, 2, 1, 1, 3], [3, 0, 2]) ∧
      Unsqueezed [2, 3] [3, -5, 2] [1, 2, 1, 1, 3] [3, 0, 2] ∧
      ∃ e, unsqueeze [2, 3] [3, -1] = .error e := by
  have hrank : rankWith [2, 3] [3, -5, 2] < 0x8000000000000000 := by decide
  have h : unsqueeze [2, 3] [3, -5, 2] = .ok ([1, 2, 1, 1, 3], [3, 0, 2]) := by decide
  exact ⟨hrank, h, (unsqueeze_inserts hrank).2 _ _ h, _, rfl⟩

end TensorGraph.Shape
