import TensorGraph.Proofs.ShapeOrder

/-!
What shapes broadcast to.

`Shape.StretchTo` says which dimension the dimensions on an axis stretch to by what is among them,
so neither their order nor their number matters; the run over an axis, which takes them one by one,
finds just this dimension (`broadcastAxis_eq_ok`). Dimensions may also be taken together first
(`stretchTo_append`). For shapes it follows that broadcasting fails only where two dimensions clash,
and that it does not depend on the order of the shapes or on how they are grouped
(`broadcast_stretches`).
-/

namespace TensorGraph.Shape

variable {l m : List Int} {a b d e z : Int} {shapes shapes' : List Shape} {s t : Shape} {i : Nat}

/-! ### An axis -/

/-- The dimension stretches to no other: it is neither one nor unknown. -/
def Rigid (d : Int) : Prop := d ≠ 1 ∧ d ≠ -1

/-- The dimension that some dimensions stretch to: the rigid one among them; if none is rigid,
unknown if one of them is, else one. -/
inductive StretchTo (l : List Int) : Int → Prop
  | rigid {d : Int} (mem : d ∈ l) (hd : Rigid d) (only : ∀ e ∈ l, Rigid e → e = d) : StretchTo l d
  | unknown (mem : -1 ∈ l) (soft : ∀ e ∈ l, ¬Rigid e) : StretchTo l (-1)
  | one (all : ∀ e ∈ l, e = 1) : StretchTo l 1

/-- Ones do not matter. -/
lemma StretchTo.congr (hl : ∀ d, d ≠ 1 → (d ∈ l ↔ d ∈ m)) (h : StretchTo l z) : StretchTo m z := by
  cases h with
  | rigid mem hd only =>
    exact .rigid ((hl _ hd.1).1 mem) hd fun e he hr => only e ((hl e hr.1).2 he) hr
  | unknown mem soft =>
    exact .unknown ((hl _ (by decide)).1 mem) fun e he hr => soft e ((hl e hr.1).2 he) hr
  | one all =>
    refine .one fun e he => ?_
    by_contra hne
    exact hne (all e ((hl e hne).2 he))

lemma stretchTo_congr (hl : ∀ d, d ≠ 1 → (d ∈ l ↔ d ∈ m)) : StretchTo l z ↔ StretchTo m z :=
  ⟨.congr hl, .congr fun d hd => (hl d hd).symm⟩

/-- Dimensions stretch to one unless two of them are rigid and differ. -/
lemma exists_stretchTo_iff :
    (∃ z, StretchTo l z) ↔ ∀ a ∈ l, ∀ b ∈ l, Rigid a → Rigid b → a = b := by
  constructor
  · rintro ⟨z, ⟨-, -, only⟩ | ⟨-, soft⟩ | ⟨all⟩⟩ a ha b hb hra hrb
    · exact (only a ha hra).trans (only b hb hrb).symm
    · exact absurd hra (soft a ha)
    · exact absurd (all a ha) hra.1
  · intro h
    by_cases hrigid : ∃ d ∈ l, Rigid d
    · obtain ⟨d, hd, hr⟩ := hrigid
      exact ⟨d, .rigid hd hr fun e he hre => h e he d hd hre hr⟩
    · have hsoft : ∀ e ∈ l, ¬Rigid e := fun e he hr => hrigid ⟨e, he, hr⟩
      by_cases hunknown : -1 ∈ l
      · exact ⟨-1, .unknown hunknown hsoft⟩
      · refine ⟨1, .one fun e he => ?_⟩
        by_contra hne
        exact hsoft e he ⟨hne, fun heq => hunknown (heq ▸ he)⟩

/-- What dimensions stretch to tells which rigid dimension is among them, and whether the unknown
one is when none is rigid. -/
lemma stretchTo_iff : StretchTo l z ↔
    (∀ d, Rigid d → (d ∈ l ↔ d = z)) ∧ (¬Rigid z → (-1 ∈ l ↔ z = -1)) := by
  constructor
  · rintro (⟨mem, hd, only⟩ | ⟨mem, soft⟩ | ⟨all⟩)
    · exact ⟨fun e he => ⟨fun h => only e h he, fun h => h ▸ mem⟩, fun h => absurd hd h⟩
    · exact ⟨fun e he => ⟨fun h => absurd he (soft e h), fun h => absurd rfl (h ▸ he).2⟩,
        fun _ => ⟨fun _ => rfl, fun _ => mem⟩⟩
    · exact ⟨fun e he => ⟨fun h => absurd (all e h) he.1, fun h => absurd h he.1⟩,
        fun _ => ⟨fun h => absurd (all _ h) (by decide), fun h => absurd h (by decide)⟩⟩
  · rintro ⟨hrigid, hunknown⟩
    by_cases hz : Rigid z
    · exact .rigid ((hrigid z hz).2 rfl) hz fun e he hr => (hrigid e hr).1 he
    · have hsoft : ∀ e ∈ l, ¬Rigid e := fun e he hr => hz ((hrigid e hr).1 he ▸ hr)
      by_cases heq : z = -1
      · subst heq
        exact .unknown ((hunknown hz).2 rfl) hsoft
      · obtain rfl : z = 1 := by
          by_contra hne
          exact hz ⟨hne, heq⟩
        refine .one fun e he => ?_
        by_contra hne
        exact hsoft e he ⟨hne, fun h => heq ((hunknown hz).1 (h ▸ he))⟩

/-- What dimensions stretch to stands for them beside others. -/
lemma StretchTo.append_iff (h : StretchTo l e) : StretchTo (l ++ m) z ↔ StretchTo (e :: m) z := by
  obtain ⟨hrigid, hunknown⟩ := stretchTo_iff.1 h
  have hmem (d : Int) (hd : Rigid d) : d ∈ l ++ m ↔ d ∈ e :: m := by
    rw [List.mem_append, List.mem_cons, hrigid d hd]
  rw [stretchTo_iff, stretchTo_iff, forall₂_congr fun d hd => by rw [hmem d hd]]
  refine and_congr_right fun hz => forall_congr' fun hsoft => ?_
  -- a rigid `e` would be `z`
  have he : ¬Rigid e := fun hr => hsoft ((hz e hr).1 (List.mem_cons_self ..) ▸ hr)
  rw [List.mem_append, List.mem_cons, hunknown he, eq_comm (a := e)]

lemma stretchTo_append :
    StretchTo (l ++ m) z ↔ ∃ e, StretchTo l e ∧ StretchTo (e :: m) z := by
  refine ⟨fun h => ?_, fun ⟨e, he, h⟩ => he.append_iff.2 h⟩
  have hagree := exists_stretchTo_iff.1 ⟨z, h⟩
  obtain ⟨e, he⟩ := exists_stretchTo_iff.2 fun a ha b hb =>
    hagree a (List.mem_append_left m ha) b (List.mem_append_left m hb)
  exact ⟨e, he, he.append_iff.1 h⟩

lemma broadcastDim_eq_some : broadcastDim a b = some z ↔ StretchTo [a, b] z := by
  -- a rigid dimension has to be compared with these three only
  have hrigid : (∀ d, Rigid d → (d ∈ [a, b] ↔ d = z)) ↔
      (Rigid a → a = z) ∧ (Rigid b → b = z) ∧ (Rigid z → z = a ∨ z = b) := by
    simp only [List.mem_cons, List.not_mem_nil, or_false]
    constructor
    · intro h
      exact ⟨fun ha => (h a ha).1 (.inl rfl), fun hb => (h b hb).1 (.inr rfl),
        fun hz => (h z hz).2 rfl⟩
    · rintro ⟨ha, hb, hz⟩ d hd
      constructor
      · rintro (rfl | rfl)
        · exact ha hd
        · exact hb hd
      · rintro rfl
        exact hz hd
  rw [stretchTo_iff, hrigid]
  simp only [List.mem_cons, List.not_mem_nil, or_false]
  unfold broadcastDim Rigid
  split_ifs <;> simp only [Option.some.injEq, false_iff] <;> omega

lemma stretchTo_singleton : StretchTo [a] z ↔ a = z := by
  have hpair : StretchTo [a] z ↔ StretchTo [a, a] z := stretchTo_congr fun d _ => by simp
  rw [hpair, ← broadcastDim_eq_some, broadcastDim, if_pos rfl, Option.some.injEq]

/-- The run over an axis finds what its dimensions stretch to. -/
lemma broadcastAxis_eq_ok : broadcastAxis shapes a l = .ok z ↔ StretchTo (a :: l) z := by
  induction l generalizing a with
  | nil => simp only [broadcastAxis, Except.ok.injEq, stretchTo_singleton]
  | cons b l ih =>
    have happend : a :: b :: l = [a, b] ++ l := rfl
    rw [broadcastAxis, happend, stretchTo_append]
    simp only [← broadcastDim_eq_some, ← ih]
    rcases broadcastDim a b with _ | e <;> simp

/-! ### All axes -/

/-- The dimensions on the axis `i` from the right of the shapes that have this axis. -/
def onAxis (shapes : List Shape) (i : Nat) : List Int := shapes.filterMap fun s => s.reverse[i]?

/-- Two shapes have dimensions on one axis that are rigid and differ. -/
def Contested (shapes : List Shape) : Prop :=
  ∃ i, ∃ a ∈ onAxis shapes i, ∃ b ∈ onAxis shapes i, Rigid a ∧ Rigid b ∧ a ≠ b

/-- The shape that some shapes stretch to: it has the rank of the longest, and on each axis the
dimension that theirs stretch to. -/
structure Stretched (shapes : List Shape) (s : Shape) : Prop where
  rank_le : ∀ t ∈ shapes, t.length ≤ s.length
  rank_mem : s = [] ∨ ∃ t ∈ shapes, t.length = s.length
  dim : ∀ (i : Nat) (d : Int), s.reverse[i]? = some d → StretchTo (onAxis shapes i) d

lemma mem_onAxis : d ∈ onAxis shapes i ↔ ∃ s ∈ shapes, s.reverse[i]? = some d := List.mem_filterMap

/-- An axis that a shape lacks counts as one. -/
lemma mem_onAxis_of_ne (hd : d ≠ 1) :
    d ∈ onAxis shapes i ↔ d ∈ shapes.map fun s => fromRight s i := by
  rw [mem_onAxis, List.mem_map]
  refine exists_congr fun s => and_congr_right fun _ => ?_
  unfold fromRight
  rw [List.getD_eq_getElem?_getD]
  rcases s.reverse[i]? with _ | e
  · simp [hd.symm]
  · simp

lemma stretchTo_onAxis :
    StretchTo (onAxis shapes i) z ↔ StretchTo (1 :: shapes.map fun s => fromRight s i) z :=
  stretchTo_congr fun d hd => by rw [List.mem_cons, or_iff_right hd, mem_onAxis_of_ne hd]

/-- The greatest rank, with what is there to start from. -/
lemma foldl_max_length (shapes : List Shape) (r : Nat) :
    let n := shapes.foldl (fun r s => max r s.length) r
    r ≤ n ∧ (∀ s ∈ shapes, s.length ≤ n) ∧ (n = r ∨ ∃ s ∈ shapes, s.length = n) := by
  induction shapes generalizing r with
  | nil => simp
  | cons t shapes ih =>
    obtain ⟨hle, hall, hmem⟩ := ih (max r t.length)
    rw [List.foldl_cons]
    refine ⟨by omega, List.forall_mem_cons.2 ⟨by omega, hall⟩, ?_⟩
    rcases hmem with heq | ⟨s, hs, heq⟩
    · rcases Nat.le_total t.length r with h | h
      · exact .inl (by omega)
      · exact .inr ⟨t, List.mem_cons_self .., by omega⟩
    · exact .inr ⟨s, List.mem_cons_of_mem t hs, heq⟩

lemma length_eq_maxRank_iff : s.length = maxRank shapes ↔
    (∀ t ∈ shapes, t.length ≤ s.length) ∧ (s = [] ∨ ∃ t ∈ shapes, t.length = s.length) := by
  obtain ⟨-, hall, hmem⟩ := foldl_max_length shapes 0
  rw [← List.length_eq_zero_iff]
  constructor
  · intro h
    rw [h]
    exact ⟨hall, hmem⟩
  · rintro ⟨hle, hs⟩
    have hle' : maxRank shapes ≤ s.length := by
      rcases hmem with h | ⟨t, ht, h⟩
      · exact Nat.le_trans (Nat.le_of_eq h) (Nat.zero_le _)
      · exact Nat.le_trans (Nat.le_of_eq h.symm) (hle t ht)
    refine Nat.le_antisymm ?_ hle'
    rcases hs with h | ⟨t, ht, h⟩
    · exact h ▸ Nat.zero_le _
    · exact h ▸ hall t ht

lemma stretched_iff : Stretched shapes s ↔
    s.length = maxRank shapes ∧ ∀ i, StretchTo (onAxis shapes i) (fromRight s i) := by
  constructor
  · rintro ⟨hle, hmem, hdim⟩
    refine ⟨length_eq_maxRank_iff.2 ⟨hle, hmem⟩, fun i => ?_⟩
    unfold fromRight
    rw [List.getD_eq_getElem?_getD]
    rcases hi : s.reverse[i]? with _ | d
    · -- no shape has the axis
      refine .one fun e he => ?_
      obtain ⟨t, ht, he⟩ := mem_onAxis.1 he
      have := hle t ht
      have hlt := (List.getElem?_eq_some_iff.1 he).1
      rw [List.getElem?_eq_none_iff] at hi
      rw [List.length_reverse] at hi hlt
      omega
    · exact hdim i d hi
  · rintro ⟨hlen, hdim⟩
    obtain ⟨hle, hmem⟩ := length_eq_maxRank_iff.1 hlen
    refine ⟨hle, hmem, fun i d hi => ?_⟩
    have := hdim i
    rwa [fromRight, List.getD_eq_getElem?_getD, hi] at this

lemma broadcast_eq_ok : broadcast shapes = .ok s ↔ Stretched shapes s := by
  constructor
  · intro h
    obtain ⟨dims, hdims, heq⟩ := bind_eq_ok.1 h
    obtain rfl := Except.ok.inj heq
    have hsteps := forall₂_of_mapM hdims
    have hlen : dims.length = maxRank shapes := by
      rw [← hsteps.length_eq, List.length_range]
    obtain ⟨hle, hmem⟩ := length_eq_maxRank_iff.1 ((List.length_reverse ..).trans hlen)
    refine ⟨hle, hmem, fun i d hi => ?_⟩
    rw [List.reverse_reverse] at hi
    obtain ⟨hlt, rfl⟩ := List.getElem?_eq_some_iff.1 hi
    have haxis := (List.forall₂_iff_get.1 hsteps).2 i (by simpa [hlen] using hlt) hlt
    rw [List.get_eq_getElem, List.get_eq_getElem, List.getElem_range] at haxis
    exact stretchTo_onAxis.2 (broadcastAxis_eq_ok.1 haxis)
  · intro h
    obtain ⟨hlen, hdim⟩ := stretched_iff.1 h
    refine bind_eq_ok.2 ⟨s.reverse, ?_, congrArg Except.ok (List.reverse_reverse s)⟩
    rw [mapM_eq_ok fun i _ => broadcastAxis_eq_ok.2 (stretchTo_onAxis.1 (hdim i)), ← hlen]
    refine congrArg Except.ok (List.ext_getElem (by simp) fun i hi hi' => ?_)
    rw [List.getElem_map, List.getElem_range]
    exact (List.getElem_eq_getD 1).symm

/-- Shapes broadcast when the dimensions on each axis stretch to one. -/
lemma exists_stretched_iff :
    (∃ s, Stretched shapes s) ↔ ∀ i, ∃ z, StretchTo (onAxis shapes i) z := by
  constructor
  · rintro ⟨s, hs⟩ i
    exact ⟨_, (stretched_iff.1 hs).2 i⟩
  · intro h
    choose z hz using h
    have haxis (i : Nat) : broadcastAxis shapes 1 (shapes.map fun s => fromRight s i) = .ok (z i) :=
      broadcastAxis_eq_ok.2 (stretchTo_onAxis.1 (hz i))
    exact ⟨_, broadcast_eq_ok.1 (bind_eq_ok.2 ⟨_, mapM_eq_ok fun i _ => haxis i, rfl⟩)⟩

lemma exists_stretched_iff_not_contested : (∃ s, Stretched shapes s) ↔ ¬Contested shapes := by
  rw [exists_stretched_iff]
  simp only [exists_stretchTo_iff]
  constructor
  · rintro h ⟨i, a, ha, b, hb, hra, hrb, hne⟩
    exact hne (h i a ha b hb hra hrb)
  · intro h i a ha b hb hra hrb
    by_contra hne
    exact h ⟨i, a, ha, b, hb, hra, hrb, hne⟩

/-! ### Orders and groups of shapes -/

lemma Stretched.perm (hp : shapes.Perm shapes') (h : Stretched shapes s) :
    Stretched shapes' s where
  rank_le t ht := h.rank_le t (hp.mem_iff.2 ht)
  rank_mem := h.rank_mem.imp_right fun ⟨t, ht, hlen⟩ => ⟨t, hp.mem_iff.1 ht, hlen⟩
  dim i d hi := (h.dim i d hi).congr fun _ _ => (hp.filterMap _).mem_iff

lemma onAxis_append (shapes shapes' : List Shape) (i : Nat) :
    onAxis (shapes ++ shapes') i = onAxis shapes i ++ onAxis shapes' i := List.filterMap_append

/-- What shapes stretch to stands for them beside others. -/
lemma Stretched.append_iff (h : Stretched shapes t) :
    Stretched (shapes ++ shapes') s ↔ Stretched (t :: shapes') s := by
  obtain ⟨hlen, hdim⟩ := stretched_iff.1 h
  have hrank : maxRank (shapes ++ shapes') = maxRank (t :: shapes') := by
    unfold maxRank at hlen ⊢
    rw [List.foldl_append, List.foldl_cons, ← hlen, Nat.zero_max]
  have haxis (i : Nat) (z : Int) :
      StretchTo (onAxis (shapes ++ shapes') i) z ↔ StretchTo (onAxis (t :: shapes') i) z := by
    rw [onAxis_append, (hdim i).append_iff]
    refine stretchTo_congr fun d hd => ?_
    rw [List.mem_cons, mem_onAxis_of_ne hd, mem_onAxis_of_ne hd, List.map_cons, List.mem_cons]
  rw [stretched_iff, stretched_iff, hrank]
  simp only [haxis]

lemma toOption_eq_of_ok_iff {x y : Except Error Shape} (h : ∀ s, x = .ok s ↔ y = .ok s) :
    x.toOption = y.toOption :=
  Option.ext fun s => by simp only [toOption_eq_some, h]

/-- **Broadcasting is well defined**: shapes fail to broadcast exactly when on some axis from the
right two dimensions are neither one nor unknown and differ. Otherwise the result has the largest
rank, and on each axis the one dimension that is neither one nor unknown; if there is none, unknown
if one of them is, else one. So the order of the shapes does not matter, and any of them may be
broadcast first. -/
theorem broadcast_stretches (shapes : List Shape) :
    ((∃ e, broadcast shapes = .error e) ↔ Contested shapes) ∧
    (∀ s, broadcast shapes = .ok s ↔ Stretched shapes s) ∧
    (∀ shapes', shapes.Perm shapes' →
      (broadcast shapes').toOption = (broadcast shapes).toOption) ∧
    ∀ first rest, shapes.Perm (first ++ rest) →
      ((broadcast first).toOption.bind fun s => (broadcast (s :: rest)).toOption) =
        (broadcast shapes).toOption := by
  have hperm {shapes shapes' : List Shape} (hp : shapes.Perm shapes') :
      (broadcast shapes').toOption = (broadcast shapes).toOption :=
    toOption_eq_of_ok_iff fun s => by
      rw [broadcast_eq_ok, broadcast_eq_ok]
      exact ⟨.perm hp.symm, .perm hp⟩
  refine ⟨?_, fun _ => broadcast_eq_ok, fun _ => hperm, fun first rest hp => ?_⟩
  · rw [← not_iff_not, ← exists_stretched_iff_not_contested]
    simp only [← broadcast_eq_ok]
    rcases broadcast shapes with e | s <;> simp
  · rw [← hperm hp]
    refine Option.ext fun s => ?_
    simp only [Option.bind_eq_some_iff, toOption_eq_some, broadcast_eq_ok]
    constructor
    · rintro ⟨t, ht, hs⟩
      exact ht.append_iff.2 hs
    · intro hs
      obtain ⟨t, ht⟩ := exists_stretched_iff.2 fun i => by
        have haxis := (stretched_iff.1 hs).2 i
        rw [onAxis_append, stretchTo_append] at haxis
        exact haxis.imp fun _ => And.left
      exact ⟨t, ht, ht.append_iff.1 hs⟩

/-- Three shapes of different ranks, of which the last two may be broadcast first; with another last
dimension the first and the last shape clash. -/
theorem broadcast_stretches_threeRanks :
    List.Perm [[-1, 1, 5], [4, -1], [1]] ([[4, -1], [1]] ++ [[-1, 1, 5]]) ∧
      Stretched [[-1, 1, 5], [4, -1], [1]] [-1, 4, 5] ∧ broadcast [[4, -1], [1]] = .ok [4, -1] ∧
      (broadcast [[4, -1], [-1, 1, 5]]).toOption = some [-1, 4, 5] ∧
      Contested [[-1, 1, 5], [4, -1], [3]] := by
  have hp : List.Perm [[-1, 1, 5], [4, -1], [1]] ([[4, -1], [1]] ++ [[-1, 1, 5]]) := by decide
  obtain ⟨-, hstretched, -, hgroup⟩ := broadcast_stretches [[-1, 1, 5], [4, -1], [1]]
  have hall : broadcast [[-1, 1, 5], [4, -1], [1]] = .ok [-1, 4, 5] := by decide
  have hfirst : broadcast [[4, -1], [1]] = .ok [4, -1] := by decide
  have hrest := hgroup _ _ hp
  rw [hfirst, hall] at hrest
  exact ⟨hp, (hstretched _).1 hall, hfirst, hrest,
    (broadcast_stretches [[-1, 1, 5], [4, -1], [3]]).1.1 ⟨_, rfl⟩⟩

end TensorGraph.Shape
