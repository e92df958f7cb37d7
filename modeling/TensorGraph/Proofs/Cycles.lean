import Mathlib.Data.List.Chain
import TensorGraph.Proofs.Countdowns

/-!
Which transformations the error of a schedule names.

A transformation waits when it stands on a cycle of dependencies or behind one; these are the ones
that the countdown leaves out (`mem_countdown_iff`). The walk through them goes from each to one
that it precedes, so it comes back to where it has been unless it runs into a transformation that
precedes none (`order_schedulingCycle`).
-/

namespace TensorGraph.Schedule

variable {ds : List Descriptor} {deps : List (Nat × Nat)} {i j n : Nat}
  {l path placed waiting : List Nat}

/-! ### Transformations that wait -/

/-- The transformation stands on a cycle of dependencies or behind one. -/
def Waits (ds : List Descriptor) (i : Nat) : Prop :=
  ∃ j, Relation.TransGen (Precedes ds) j j ∧ Relation.ReflTransGen (Precedes ds) j i

lemma Waits.tail (h : Waits ds i) (hij : Precedes ds i j) : Waits ds j := by
  obtain ⟨k, hcycle, hpath⟩ := h
  exact ⟨k, hcycle, hpath.tail hij⟩

lemma Canonical.not_waits (h : Canonical ds l) (hi : i ∈ l) : ¬Waits ds i := by
  rintro ⟨j, hcycle, hpath⟩
  have hj : j ∈ l := by
    rcases Relation.reflTransGen_iff_eq_or_transGen.1 hpath with rfl | hpath
    · exact hi
    · exact (h.of_transGen hi hpath).1
  exact Nat.lt_irrefl _ (h.of_transGen hj hcycle).2

/-- What is left when none may come next waits: each one left has a predecessor that is left. -/
lemma waits_of_stuck (hstuck : ∀ i, ¬Ready ds l i) (hlt : i < ds.length) (hi : i ∉ l) :
    Waits ds i := by
  let r : Fin ds.length → Fin ds.length → Prop := fun i j =>
    Relation.TransGen (Precedes ds) i j ∧ ¬Waits ds j
  have : IsTrans _ r := ⟨fun _ _ _ hij hjk => ⟨hij.1.trans hjk.1, hjk.2⟩⟩
  have : Std.Irrefl r := ⟨fun i hii => hii.2 ⟨i, hii.1, .refl⟩⟩
  by_contra hnot
  obtain ⟨m, ⟨hm, hmnot⟩, hmin⟩ := (Finite.wellFounded_of_trans_of_irrefl r).has_min
    {m : Fin ds.length | (m : Nat) ∉ l ∧ ¬Waits ds m} ⟨⟨i, hlt⟩, hi, hnot⟩
  obtain ⟨j, hj, hjl⟩ : ∃ j, Precedes ds j m ∧ j ∉ l := by
    by_contra hall
    push Not at hall
    exact hstuck m ⟨m.isLt, hm, hall⟩
  exact hmin ⟨j, hj.lt_left⟩ ⟨hjl, fun hw => hmnot (hw.tail hj)⟩ ⟨.single hj, hmnot⟩

/-- The countdown leaves out those that wait. -/
lemma mem_countdown_iff (hdeps : Declares ds deps) (hlt : i < ds.length) :
    i ∈ (countdown ds deps).order ↔ ¬Waits ds i := by
  obtain ⟨hc, hstuck⟩ := countdown_counting hdeps
  refine ⟨hc.canonical.not_waits, fun hnot => ?_⟩
  by_contra hi
  exact hnot (waits_of_stuck hstuck hlt hi)

/-- What is left out is blocked. -/
lemma isBlocked_countdown (hdeps : Declares ds deps) (hlt : i < ds.length) :
    isBlocked (countdown ds deps).waiting i = true ↔ i ∉ (countdown ds deps).order := by
  obtain ⟨hc, hstuck⟩ := countdown_counting hdeps
  rw [hc.isBlocked_iff hdeps]
  constructor
  · rintro ⟨j, hj, hnot⟩ hi
    exact hnot (hc.canonical.of_transGen hi (.single hj)).1
  · intro hi
    by_contra hall
    push Not at hall
    exact hstuck i ⟨hlt, hi, hall⟩

/-! ### The walk -/

/-- The blocked indices are those that are not placed. -/
def Blocks (ds : List Descriptor) (waiting placed : List Nat) : Prop :=
  ∀ i < ds.length, isBlocked waiting i = true ↔ i ∉ placed

lemma find?_successors_eq_some (hdeps : Declares ds deps) (hblocks : Blocks ds waiting placed)
    (hi : i < ds.length)
    (h : ((successors ds.length deps).getD i []).find? (isBlocked waiting) = some j) :
    Precedes ds i j ∧ j ∉ placed := by
  have hij := (hdeps i j).1 ((mem_successors hi).1 (List.mem_of_find?_eq_some h))
  exact ⟨hij, (hblocks j hij.lt_right).1 (List.find?_some h)⟩

lemma find?_successors_eq_none (hdeps : Declares ds deps) (hblocks : Blocks ds waiting placed)
    (hi : i < ds.length)
    (h : ((successors ds.length deps).getD i []).find? (isBlocked waiting) = none)
    (hij : Precedes ds i j) : j ∈ placed := by
  by_contra hj
  have hmem := (mem_successors hi).2 ((hdeps i j).2 hij)
  exact List.find?_eq_none.1 h j hmem ((hblocks j hij.lt_right).2 hj)

/-- The walk has gone from each transformation to one that it precedes, and nowhere twice. -/
structure Walked (ds : List Descriptor) (placed path : List Nat) : Prop where
  chain : path.IsChain (Precedes ds)
  lt : ∀ i ∈ path, i < ds.length
  left : ∀ i ∈ path, i ∉ placed
  nodup : path.Nodup

/-- How a walk ends: where it has been, or at a transformation that precedes none of those left. -/
def Ended (ds : List Descriptor) (placed path : List Nat) : Prop :=
  (2 ≤ path.length ∧ path.head? = path.getLast?) ∨
    ∃ i, path.getLast? = some i ∧ ∀ j, Precedes ds i j → j ∈ placed

lemma Walked.concat (h : Walked ds placed (path ++ [i])) (hij : Precedes ds i j)
    (hj : j ∉ placed) (hnew : j ∉ path ++ [i]) : Walked ds placed (path ++ [i] ++ [j]) where
  chain := List.isChain_append.2 ⟨h.chain, .singleton j, by simpa using hij⟩
  lt k hk := (List.mem_append.1 hk).elim (h.lt k) fun hk => List.mem_singleton.1 hk ▸ hij.lt_right
  left k hk := (List.mem_append.1 hk).elim (h.left k) fun hk => List.mem_singleton.1 hk ▸ hj
  nodup := List.nodup_append_comm.1 (List.nodup_cons.2 ⟨hnew, h.nodup⟩)

/-- What is left of a list from the first occurrence of a member on. -/
lemma exists_dropWhile_ne (hmem : j ∈ l) :
    ∃ before rest, l = before ++ j :: rest ∧ l.dropWhile (· != j) = j :: rest := by
  induction l with
  | nil => cases hmem
  | cons k l ih =>
    by_cases hk : k = j
    · exact ⟨[], l, by rw [hk, List.nil_append], by simp [hk]⟩
    · obtain ⟨before, rest, hl, hdrop⟩ := ih ((List.mem_cons.1 hmem).resolve_left (Ne.symm hk))
      exact ⟨k :: before, rest, by rw [hl, List.cons_append], by simp [hk, hdrop]⟩

/-- The part of a path from a member on, closed by that member. -/
lemma Walked.close (h : Walked ds placed (path ++ [i])) (hij : Precedes ds i j)
    (hmem : j ∈ path ++ [i]) :
    let cycle := (path ++ [i]).dropWhile (· != j) ++ [j]
    cycle.IsChain (Precedes ds) ∧ (∀ k ∈ cycle, k ∈ path ++ [i]) ∧ 2 ≤ cycle.length ∧
      cycle.head? = cycle.getLast? := by
  obtain ⟨before, rest, hsplit, hdrop⟩ := exists_dropWhile_ne hmem
  have hlast : (j :: rest).getLast? = some i := by
    rw [← List.getLast?_append_cons before, ← hsplit, List.getLast?_concat]
  have hchain : (j :: rest).IsChain (Precedes ds) := (hsplit ▸ h.chain).right_of_append
  simp only [hdrop]
  refine ⟨List.isChain_append.2 ⟨hchain, .singleton j, ?_⟩, ?_, ?_, ?_⟩
  · intro x hx y hy
    cases hlast.symm.trans hx
    cases hy
    exact hij
  · intro k hk
    rw [hsplit]
    rcases List.mem_append.1 hk with hk | hk
    · exact List.mem_append_right before hk
    · rw [List.mem_singleton.1 hk]
      exact List.mem_append_right before (List.mem_cons_self ..)
  · simp
  · rw [List.getLast?_concat]
    rfl

lemma walk_spec (hdeps : Declares ds deps) (hblocks : Blocks ds waiting placed)
    (h : Walked ds placed (path ++ [i])) (hfuel : ds.length ≤ path.length + n) :
    let r := walk (successors ds.length deps) waiting n path i
    r.IsChain (Precedes ds) ∧ (∀ k ∈ r, k < ds.length ∧ k ∉ placed) ∧ r ≠ [] ∧
      Ended ds placed r := by
  induction n generalizing path i with
  | zero =>
    -- there are not as many transformations as the path has members
    have hle := (h.nodup.subperm fun k hk => List.mem_range.2 (h.lt k hk)).length_le
    rw [List.length_append, List.length_singleton, List.length_range] at hle
    omega
  | succ n ih =>
    have hi := h.lt i (List.mem_append_right path (List.mem_singleton.2 rfl))
    simp only [walk]
    split
    · next hnone =>
      refine ⟨h.chain, fun k hk => ⟨h.lt k hk, h.left k hk⟩, by simp, .inr ⟨i, by simp, ?_⟩⟩
      exact fun j => find?_successors_eq_none hdeps hblocks hi hnone
    · next j hj =>
      obtain ⟨hij, hleft⟩ := find?_successors_eq_some hdeps hblocks hi hj
      split
      · next hagain =>
        obtain ⟨hchain, hsub, hlen, hclosed⟩ := h.close hij (List.contains_iff_mem.1 hagain)
        refine ⟨hchain, fun k hk => ⟨h.lt k (hsub k hk), h.left k (hsub k hk)⟩, ?_,
          .inl ⟨hlen, hclosed⟩⟩
        exact List.ne_nil_of_length_pos (by omega)
      · next hnew =>
        refine ih (h.concat hij hleft fun hin => hnew (List.contains_iff_mem.2 hin)) ?_
        rw [List.length_append, List.length_singleton]
        omega

/-! ### Errors -/

/-- When not all are placed, the walk starts at one that is left. -/
lemma exists_findCycle (table : List (List Nat)) (hblocks : Blocks ds waiting placed)
    (hwaiting : waiting.length = ds.length) (hlen : placed.length < ds.length) :
    ∃ start, start < ds.length ∧ start ∉ placed ∧
      findCycle table waiting = walk table waiting ds.length [] start := by
  rcases hfind : (List.range waiting.length).find? (isBlocked waiting) with _ | start
  · have hall : List.range ds.length ⊆ placed := fun i hi => by
      by_contra hnot
      have hblocked := (hblocks i (List.mem_range.1 hi)).2 hnot
      exact List.find?_eq_none.1 hfind i (hwaiting ▸ hi) hblocked
    have := (List.nodup_range.subperm hall).length_le
    rw [List.length_range] at this
    omega
  · have hlt : start < ds.length :=
      hwaiting ▸ List.mem_range.1 (List.mem_of_find?_eq_some hfind)
    exact ⟨start, hlt, (hblocks start hlt).1 (List.find?_some hfind), by
      rw [findCycle, hfind, hwaiting]⟩

lemma order_eq_error (hids : (ds.map (·.id)).Nodup)
    (hstage : ∀ i j, Precedes ds i j → stageAt ds i ≤ stageAt ds j) {e : Error}
    (h : order ds = .error e) :
    let table := successors ds.length (dependencies ds)
    let c := countdown ds (dependencies ds)
    c.order.length < ds.length ∧
      e = ⟨[], .schedulingCycle ((findCycle table c.waiting).map (idAt ds))⟩ := by
  have hdup : duplicate? [] ds = none := by simpa [duplicate?_eq_none] using hids
  have hback : (dependencies ds).find? (isBackward ds) = none := by
    simpa [List.find?_eq_none, Prod.forall, mem_dependencies hids, isBackward] using hstage
  unfold order at h
  by_cases hlen : ds.length ≤ (countdown ds (dependencies ds)).order.length
  · simp [hdup, hback, ensure, hlen, bind, Except.bind, pure, Except.pure] at h
  · refine ⟨Nat.lt_of_not_le hlen, ?_⟩
    simpa [hdup, hback, ensure, hlen, bind, Except.bind, pure, Except.pure, eq_comm] using h

/-- **Errors of a schedule**: where ids are distinct and no dependency leads back to an earlier
stage, the error names transformations that wait, each of which precedes the next one. They make a
cycle, unless the last one precedes none. -/
theorem order_schedulingCycle (hids : (ds.map (·.id)).Nodup)
    (hstage : ∀ i j, Precedes ds i j → stageAt ds i ≤ stageAt ds j) {e : Error}
    (h : order ds = .error e) :
    ∃ path : List Nat, e = ⟨[], .schedulingCycle (path.map (idAt ds))⟩ ∧ path ≠ [] ∧
      path.IsChain (Precedes ds) ∧ (∀ i ∈ path, Waits ds i) ∧
      ((2 ≤ path.length ∧ path.head? = path.getLast?) ∨
        ∃ i, path.getLast? = some i ∧ ∀ j, ¬Precedes ds i j) := by
  have hdeps : Declares ds (dependencies ds) := fun _ _ => mem_dependencies hids
  obtain ⟨hlen, rfl⟩ := order_eq_error hids hstage h
  have hblocks : Blocks ds (countdown ds (dependencies ds)).waiting
      (countdown ds (dependencies ds)).order := fun i hi => isBlocked_countdown hdeps hi
  obtain ⟨start, hlt, hleft, hcycle⟩ := exists_findCycle (successors ds.length (dependencies ds))
    hblocks (countdown_counting hdeps).1.length hlen
  have hstart : Walked ds (countdown ds (dependencies ds)).order ([] ++ [start]) :=
    ⟨.singleton start, by simpa using hlt, by simpa using hleft, by simp⟩
  obtain ⟨hchain, hmem, hne, hend⟩ := walk_spec hdeps hblocks hstart (Nat.le_add_left ..)
  rw [hcycle]
  have hwaits : ∀ i ∈ walk (successors ds.length (dependencies ds))
      (countdown ds (dependencies ds)).waiting ds.length [] start, Waits ds i := fun i hi => by
    by_contra hnot
    exact (hmem i hi).2 ((mem_countdown_iff hdeps (hmem i hi).1).2 hnot)
  refine ⟨_, rfl, hne, hchain, hwaits, hend.imp_right ?_⟩
  rintro ⟨i, hlast, hplaced⟩
  refine ⟨i, hlast, fun j hij => ?_⟩
  -- what a waiting transformation precedes waits too, so it is not among those placed
  have hj := (hwaits i (List.mem_of_getLast? hlast)).tail hij
  exact (mem_countdown_iff hdeps hij.lt_right).1 (hplaced j hij) hj

/-- Two transformations that wait for each other are not named where the walk starts at one behind
them, which precedes none. -/
example :
    let after (id : String) (ids : List String) : Descriptor :=
      { Descriptor.ofKind .pattern id .back with after := ids }
    order [after "c" ["a"], after "a" ["b"], after "b" ["a"]] =
      .error ⟨[], .schedulingCycle ["c"]⟩ := by
  decide

end TensorGraph.Schedule
