import TensorGraph.Proofs.Schedules

/-!
The countdown finds the canonical order.

An index that is not placed waits for as many predecessors as there are dependencies on indices that
are not placed, and the line holds the keys of those that may come next (`Counting`). Both are kept
when the first in line is placed and taken off its successors (`Counting.place`), so what is placed
is canonical, and when the line is empty nothing may come next any more (`countdown_counting`). A
schedule then comes to an end exactly where dependencies do not go round in a circle
(`order_canonical`).
-/

namespace TensorGraph.Schedule

variable {ds : List Descriptor} {deps : List (Nat × Nat)} {table : List (List Nat)}
  {c : Countdown} {i j n : Nat} {l placed : List Nat} {k m : Nat × Nat}
    {line rest : List (Nat × Nat)}

/-! ### The line -/

lemma isBefore_iff : isBefore k m = true ↔ toLex k < toLex m := by
  simp [isBefore, Prod.Lex.lt_iff]

lemma mem_enqueue : m ∈ enqueue k line ↔ m = k ∨ m ∈ line := by
  induction line with
  | nil => simp [enqueue]
  | cons a line ih =>
    simp only [enqueue]
    split
    · next heq => simp [heq]
    · split
      · simp
      · simp only [List.mem_cons, ih]
        tauto

/-- A line is in order, and nothing stands in it twice. -/
def InLine (line : List (Nat × Nat)) : Prop := line.Pairwise fun k m => toLex k < toLex m

lemma InLine.enqueue (h : InLine line) : InLine (enqueue k line) := by
  induction line with
  | nil => exact List.pairwise_singleton ..
  | cons a line ih =>
    obtain ⟨ha, hline⟩ := List.pairwise_cons.1 h
    simp only [Schedule.enqueue]
    split
    · exact h
    · next hne =>
      split
      · next hk =>
        refine List.pairwise_cons.2 ⟨fun m hm => ?_, h⟩
        rcases List.mem_cons.1 hm with rfl | hm
        · exact isBefore_iff.1 hk
        · exact (isBefore_iff.1 hk).trans (ha m hm)
      · next hk =>
        refine List.pairwise_cons.2 ⟨fun m hm => ?_, ih hline⟩
        rcases mem_enqueue.1 hm with rfl | hm
        · exact lt_of_le_of_ne (not_lt.1 fun hlt => hk (isBefore_iff.2 hlt))
            fun heq => hne (toLex.injective heq.symm)
        · exact ha m hm

lemma mem_foldl_enqueue : k ∈ l.foldl (fun line i => enqueue (keyOf ds i) line) line ↔
    k ∈ line ∨ ∃ i ∈ l, k = keyOf ds i := by
  induction l generalizing line with
  | nil => simp
  | cons i l ih => simp [ih, mem_enqueue, or_comm, or_assoc]

lemma InLine.foldl_enqueue (h : InLine line) :
    InLine (l.foldl (fun line i => Schedule.enqueue (keyOf ds i) line) line) := by
  induction l generalizing line with
  | nil => exact h
  | cons i l ih => exact ih h.enqueue

/-! ### The tables -/

lemma getElem?_successors (hi : i < n) :
    (successors n deps)[i]? = some ((deps.filter (·.1 = i)).map (·.2)) := by
  induction deps using List.reverseRecOn with
  | nil => simp [successors, hi]
  | append_singleton deps p ih =>
    rw [successors, List.foldl_append, ← successors, List.foldl_cons, List.foldl_nil,
      List.getElem?_modify, ih]
    by_cases hp : p.1 = i <;> simp [hp]

lemma length_successors : (successors n deps).length = n := by
  induction deps using List.reverseRecOn with
  | nil => simp [successors]
  | append_singleton deps p ih =>
    rw [successors, List.foldl_append, ← successors, List.foldl_cons, List.foldl_nil,
      List.length_modify, ih]

/-- The successors of an index, as often as they are declared. -/
lemma getD_successors (hi : i < n) :
    (successors n deps).getD i [] = (deps.filter (·.1 = i)).map (·.2) := by
  rw [List.getD_eq_getElem?_getD, getElem?_successors hi, Option.getD_some]

lemma mem_successors (hi : i < n) : j ∈ (successors n deps).getD i [] ↔ (i, j) ∈ deps := by
  rw [getD_successors hi]
  simp

lemma getElem?_foldl_modify {f : Nat → Nat} {counts : List Nat} :
    (l.foldl (fun counts i => counts.modify i f) counts)[i]? =
      counts[i]?.map (f^[l.count i]) := by
  induction l generalizing counts with
  | nil => simp
  | cons j l ih =>
    rw [List.foldl_cons, ih, List.getElem?_modify, Option.map_eq_map, Option.map_map]
    by_cases hj : j = i
    · simp [hj, Function.comp_def]
    · simp [hj, Function.comp_def]

lemma length_foldl_modify {f : Nat → Nat} {counts : List Nat} :
    (l.foldl (fun counts i => counts.modify i f) counts).length = counts.length := by
  induction l generalizing counts with
  | nil => rfl
  | cons j l ih => rw [List.foldl_cons, ih, List.length_modify]

lemma count_flatten_modify (hi : i < table.length) :
    (table.modify i (· ++ [n])).flatten.count j =
      table.flatten.count j + if n = j then 1 else 0 := by
  induction table generalizing i with
  | nil => simp at hi
  | cons l table ih =>
    cases i with
    | zero =>
      simp [List.count_append, List.count_cons]
      omega
    | succ i =>
      simp [List.count_append, ih (Nat.lt_of_succ_lt_succ hi)]
      omega

lemma count_flatten_successors (hdeps : ∀ p ∈ deps, p.1 < n) :
    (successors n deps).flatten.count i = deps.countP (·.2 = i) := by
  induction deps using List.reverseRecOn with
  | nil => simp [successors]
  | append_singleton deps p ih =>
    have hp : p.1 < (successors n deps).length := by
      rw [length_successors]
      exact hdeps p (by simp)
    rw [successors, List.foldl_append, ← successors, List.foldl_cons, List.foldl_nil,
      count_flatten_modify hp, ih fun q hq => hdeps q (List.mem_append_left _ hq)]
    simp [List.countP_append, List.countP_singleton]

lemma getElem?_inDegrees (hdeps : ∀ p ∈ deps, p.1 < n) (hi : i < n) :
    (inDegrees (successors n deps))[i]? = some (deps.countP (·.2 = i)) := by
  rw [inDegrees, ← List.foldl_flatten, getElem?_foldl_modify, length_successors,
    count_flatten_successors hdeps]
  simp [hi]

lemma length_inDegrees : (inDegrees table).length = table.length := by
  rw [inDegrees, ← List.foldl_flatten, length_foldl_modify, List.length_replicate]

/-! ### What an index waits for -/

/-- How many dependencies there are on indices that are not placed. -/
def pending (deps : List (Nat × Nat)) (placed : List Nat) (i : Nat) : Nat :=
  deps.countP fun p => p.2 = i ∧ p.1 ∉ placed

lemma pending_eq_zero (hdeps : Declares ds deps) :
    pending deps placed i = 0 ↔ ∀ j, Precedes ds j i → j ∈ placed := by
  simp only [pending, List.countP_eq_zero, Prod.forall, decide_eq_true_eq, not_and, not_not]
  constructor
  · intro h j hj
    exact h j i ((hdeps j i).2 hj) rfl
  · rintro h j _ hj rfl
    exact h j ((hdeps j _).1 hj)

lemma getElem?_inDegrees_successors (hdeps : Declares ds deps) (hi : i < ds.length) :
    (inDegrees (successors ds.length deps))[i]? = some (pending deps [] i) := by
  rw [getElem?_inDegrees (fun p hp => ((hdeps p.1 p.2).1 hp).lt_left) hi]
  simp [pending]

/-- To place an index takes it off its successors, as often as these are declared. -/
lemma pending_concat (hi : i < n) (hfresh : i ∉ placed) :
    pending deps placed j =
      pending deps (placed ++ [i]) j + ((successors n deps).getD i []).count j := by
  rw [getD_successors hi]
  unfold pending
  induction deps with
  | nil => simp
  | cons p deps ih =>
    by_cases hp : p.1 = i <;> by_cases hj : p.2 = j <;> by_cases hmem : p.1 ∈ placed <;>
      simp_all <;> omega

/-! ### One step -/

lemma getElem?_waiting_release : (c.release ds i).waiting[j]? =
    c.waiting[j]?.map fun n => if i = j then n - 1 else n := by
  show (c.waiting.modify i (· - 1))[j]? = _
  rw [List.getElem?_modify]
  rfl

lemma mem_ready_release : k ∈ (c.release ds i).ready ↔
    k ∈ c.ready ∨ k = keyOf ds i ∧ (c.release ds i).waiting[i]? = some 0 := by
  show k ∈ (if (c.waiting.modify i (· - 1))[i]? = some 0 then _ else _) ↔
    _ ∨ _ ∧ (c.waiting.modify i (· - 1))[i]? = some 0
  split
  · next hzero => simp only [mem_enqueue, hzero, and_true, or_comm]
  · next hzero => simp only [hzero, and_false, or_false]

lemma inLine_release (h : InLine c.ready) : InLine (c.release ds i).ready := by
  show InLine (if (c.waiting.modify i (· - 1))[i]? = some 0 then _ else _)
  split
  · exact h.enqueue
  · exact h

lemma order_place : (c.place ds table i rest).order = c.order ++ [i] := by
  unfold Countdown.place
  generalize table.getD i [] = l
  -- a release places nothing
  suffices h : ∀ c : Countdown, (l.foldl (·.release ds) c).order = c.order from h _
  induction l with
  | nil => exact fun c => rfl
  | cons j l ih => exact fun c => ih (c.release ds j)

/-- What is left of a countdown when one predecessor is taken off each index of a list. -/
structure Released (ds : List Descriptor) (l : List Nat) (c c' : Countdown) : Prop where
  waiting : ∀ i, c'.waiting[i]? = c.waiting[i]?.map (· - l.count i)
  ready : ∀ k, k ∈ c'.ready ↔
    k ∈ c.ready ∨ ∃ i ∈ l, k = keyOf ds i ∧ c'.waiting[i]? = some 0
  inLine : InLine c'.ready
  length : c'.waiting.length = c.waiting.length

/-- No index comes to zero before the last of its predecessors is taken off, so none is put in line
twice. -/
lemma released_foldl (hline : InLine c.ready)
    (hle : ∀ i n, c.waiting[i]? = some n → l.count i ≤ n) :
    Released ds l c (l.foldl (·.release ds) c) := by
  induction l generalizing c with
  | nil => exact ⟨fun i => by simp, fun k => by simp, hline, rfl⟩
  | cons j l ih =>
    have hstep (i : Nat) : (c.release ds j).waiting[i]? =
        c.waiting[i]?.map fun n => if j = i then n - 1 else n := getElem?_waiting_release
    have hrest := ih (c := c.release ds j) (inLine_release hline) fun i n hi => by
      rw [hstep, Option.map_eq_some_iff] at hi
      obtain ⟨n, hn, rfl⟩ := hi
      have hcount := hle i n hn
      rw [List.count_cons] at hcount
      by_cases hj : j = i <;> simp [hj] at hcount ⊢ <;> omega
    refine ⟨fun i => ?_, fun k => ?_, hrest.inLine, hrest.length.trans (List.length_modify ..)⟩
    · rw [List.foldl_cons, hrest.waiting, hstep, Option.map_map]
      congr 1
      funext n
      by_cases hj : j = i
      · simp [hj]
        omega
      · simp [hj]
    · rw [List.foldl_cons, hrest.ready, mem_ready_release]
      -- an index is at zero after its first release only if it is not released again
      have hzero : (c.release ds j).waiting[j]? = some 0 →
          (l.foldl (·.release ds) (c.release ds j)).waiting[j]? = some 0 := fun h => by
        rw [hrest.waiting, h]
        simp
      constructor
      · rintro ((hk | ⟨rfl, h⟩) | ⟨i, hi, rfl, h⟩)
        · exact .inl hk
        · exact .inr ⟨j, List.mem_cons_self .., rfl, hzero h⟩
        · exact .inr ⟨i, List.mem_cons_of_mem j hi, rfl, h⟩
      · rintro (hk | ⟨i, hi, rfl, h⟩)
        · exact .inl (.inl hk)
        · by_cases hmem : i ∈ l
          · exact .inr ⟨i, hmem, rfl, h⟩
          · obtain rfl := (List.mem_cons.1 hi).resolve_right hmem
            refine .inl (.inr ⟨rfl, ?_⟩)
            rwa [hrest.waiting, List.count_eq_zero.2 hmem, Option.map_congr (g := id) (by simp),
              Option.map_id_fun, id] at h

/-- An index waits for the dependencies on what is not placed, and in line are the keys of those
that may come next. -/
structure Counting (ds : List Descriptor) (deps : List (Nat × Nat)) (c : Countdown) : Prop where
  canonical : Canonical ds c.order
  waiting : ∀ i < ds.length, c.waiting[i]? = some (pending deps c.order i)
  length : c.waiting.length = ds.length
  ready : ∀ k, k ∈ c.ready ↔ k = keyOf ds k.2 ∧ Ready ds c.order k.2
  inLine : InLine c.ready

namespace Counting

lemma start (hdeps : Declares ds deps) :
    Counting ds deps (.start ds (inDegrees (successors ds.length deps))) where
  canonical k hk := absurd hk (Nat.not_lt_zero k)
  waiting i hi := getElem?_inDegrees_successors hdeps hi
  length := length_inDegrees.trans length_successors
  ready k := by
    have hzero {i : Nat} (hi : i < ds.length) :
        (inDegrees (successors ds.length deps))[i]? = some 0 ↔ Ready ds [] i := by
      rw [getElem?_inDegrees_successors hdeps hi, Option.some_inj, pending_eq_zero hdeps]
      exact ⟨fun h => ⟨hi, List.not_mem_nil, h⟩, Ready.placed⟩
    show k ∈ List.foldl _ [] _ ↔ k = keyOf ds k.2 ∧ Ready ds [] k.2
    simp only [mem_foldl_enqueue, List.not_mem_nil, false_or, List.mem_filter, List.mem_range,
      beq_iff_eq]
    constructor
    · rintro ⟨i, ⟨hi, hwaits⟩, rfl⟩
      exact ⟨rfl, (hzero hi).1 hwaits⟩
    · rintro ⟨hk, hready⟩
      exact ⟨k.2, ⟨hready.lt, (hzero hready.lt).2 hready⟩, hk⟩
  inLine := InLine.foldl_enqueue .nil

variable (hc : Counting ds deps c)

include hc

/-- An index waits for nothing exactly if its predecessors are placed. -/
lemma isBlocked_iff (hdeps : Declares ds deps) :
    isBlocked c.waiting i = true ↔ ∃ j, Precedes ds j i ∧ j ∉ c.order := by
  by_cases hi : i < ds.length
  · rw [isBlocked, hc.waiting i hi, Option.any_some, decide_eq_true_eq, Nat.pos_iff_ne_zero, ne_eq,
      pending_eq_zero hdeps]
    push Not
    rfl
  · have hnone : c.waiting[i]? = none := by simp [hc.length, Nat.le_of_not_lt hi]
    simp only [isBlocked, hnone, Option.any_none, Bool.false_eq_true, false_iff]
    rintro ⟨j, hj, -⟩
    exact hi hj.lt_right

/-- The first in line is the least of those that may come next. -/
lemma least (hready : c.ready = k :: rest) : k = keyOf ds k.2 ∧ Least ds c.order k.2 := by
  have hk := (hc.ready k).1 (hready ▸ List.mem_cons_self ..)
  refine ⟨hk.1, hk.2, fun j hj => ?_⟩
  have hmem := (hc.ready (keyOf ds j)).2 ⟨rfl, hj⟩
  have hline := hc.inLine
  rw [hready] at hmem hline
  rcases List.mem_cons.1 hmem with heq | hmem
  · exact le_of_eq (congrArg toLex (hk.1.symm.trans heq.symm))
  · have hlt := (List.pairwise_cons.1 hline).1 _ hmem
    rw [hk.1] at hlt
    exact le_of_lt hlt

section

variable (hdeps : Declares ds deps) (hready : c.ready = k :: rest)

include hready

lemma pending_place (j : Nat) : pending deps c.order j = pending deps (c.order ++ [k.2]) j +
    ((successors ds.length deps).getD k.2 []).count j :=
  have hleast := (hc.least hready).2
  pending_concat hleast.1.lt hleast.1.fresh

/-- An index that is a successor of the one placed waits for it, as often as it is one. -/
lemma released : Released ds ((successors ds.length deps).getD k.2 [])
    { c with ready := rest, order := c.order ++ [k.2] }
    (c.place ds (successors ds.length deps) k.2 rest) := by
  refine released_foldl (List.pairwise_cons.1 (hready ▸ hc.inLine)).2 fun j n hj => ?_
  show _ ≤ n
  by_cases hlt : j < ds.length
  · have hn := (hc.waiting j hlt).symm.trans hj
    rw [hc.pending_place hready, Option.some_inj] at hn
    omega
  · simp [hc.length, Nat.le_of_not_lt hlt] at hj

lemma waiting_place (hj : j < ds.length) :
    (c.place ds (successors ds.length deps) k.2 rest).waiting[j]? =
      some (pending deps (c.order ++ [k.2]) j) := by
  refine ((hc.released hready).waiting j).trans ?_
  show c.waiting[j]?.map _ = _
  rw [hc.waiting j hj, Option.map_some, hc.pending_place hready, Nat.add_sub_cancel]

/-- What stands in line behind the one placed may still come next. -/
lemma ready_of_mem_rest (hm : m ∈ rest) : m = keyOf ds m.2 ∧ Ready ds (c.order ++ [k.2]) m.2 := by
  obtain ⟨hm', hnext⟩ := (hc.ready m).1 (hready ▸ List.mem_cons_of_mem k hm)
  refine ⟨hm', hnext.lt, ?_, fun j hj => List.mem_append_left _ (hnext.placed j hj)⟩
  rw [List.mem_append, List.mem_singleton, not_or]
  refine ⟨hnext.fresh, fun heq => ?_⟩
  have hlt := (List.pairwise_cons.1 (hready ▸ hc.inLine)).1 m hm
  rw [hm', heq, ← (hc.least hready).1] at hlt
  exact lt_irrefl _ hlt

include hdeps

/-- A successor of the one placed that waits for nothing more may come next. -/
lemma ready_of_zero (hj : j ∈ (successors ds.length deps).getD k.2 [])
    (hzero : (c.place ds (successors ds.length deps) k.2 rest).waiting[j]? = some 0) :
    Ready ds (c.order ++ [k.2]) j := by
  have hleast := (hc.least hready).2
  have hij : Precedes ds k.2 j := (hdeps k.2 j).1 ((mem_successors hleast.1.lt).1 hj)
  have hplaced := (hc.waiting_place hready hij.lt_right).symm.trans hzero
  rw [Option.some_inj, pending_eq_zero hdeps] at hplaced
  refine ⟨hij.lt_right, fun hmem => ?_, hplaced⟩
  rcases List.mem_append.1 hmem with hmem | hmem
  · exact hleast.1.fresh (hc.canonical.of_transGen hmem (.single hij)).1
  · rw [List.mem_singleton.1 hmem] at hij
    exact hleast.1.fresh (hleast.1.placed _ hij)

/-- What may come next stood in line, or is a successor of the one placed that waits for nothing
more. -/
lemma mem_ready_place : m ∈ (c.place ds (successors ds.length deps) k.2 rest).ready ↔
    m = keyOf ds m.2 ∧ Ready ds (c.order ++ [k.2]) m.2 := by
  refine ((hc.released hready).ready m).trans ⟨?_, ?_⟩
  · rintro (hm | ⟨j, hj, rfl, hzero⟩)
    · exact hc.ready_of_mem_rest hready hm
    · exact ⟨rfl, hc.ready_of_zero hdeps hready hj hzero⟩
  · rintro ⟨hm, hnext⟩
    by_cases hplaced : ∀ j, Precedes ds j m.2 → j ∈ c.order
    · have hfresh : m.2 ∉ c.order := fun hmem => hnext.fresh (List.mem_append_left _ hmem)
      have hmem := (hc.ready m).2 ⟨hm, hnext.lt, hfresh, hplaced⟩
      rw [hready] at hmem
      refine .inl ((List.mem_cons.1 hmem).resolve_left fun heq => hnext.fresh ?_)
      simp [heq]
    · obtain ⟨j, hj, hnot⟩ : ∃ j, Precedes ds j m.2 ∧ j ∉ c.order := by simpa using hplaced
      obtain rfl : j = k.2 := by simpa [hnot] using hnext.placed j hj
      refine .inr ⟨m.2, (mem_successors hj.lt_left).2 ((hdeps _ _).2 hj), hm, ?_⟩
      rw [hc.waiting_place hready hnext.lt, (pending_eq_zero hdeps).2 hnext.placed]

/-- Placing the first in line. -/
lemma place : Counting ds deps (c.place ds (successors ds.length deps) k.2 rest) where
  canonical := order_place ▸ canonical_concat.2 ⟨hc.canonical, (hc.least hready).2⟩
  waiting _ hj := order_place ▸ hc.waiting_place hready hj
  length := (hc.released hready).length.trans hc.length
  ready _ := order_place ▸ hc.mem_ready_place hdeps hready
  inLine := (hc.released hready).inLine

end

end Counting

lemma drain_counting (hdeps : Declares ds deps) (hc : Counting ds deps c)
    (hn : c.order.length + n = ds.length) :
    let c' := c.drain ds (successors ds.length deps) n
    Counting ds deps c' ∧ ∀ i, ¬Ready ds c'.order i := by
  induction n generalizing c with
  | zero =>
    refine ⟨hc, fun i hi => hi.fresh ?_⟩
    exact (hc.canonical.perm_range (Nat.le_of_eq hn.symm)).mem_iff.2 (List.mem_range.2 hi.lt)
  | succ n ih =>
    simp only [Countdown.drain]
    split
    · next hready =>
      refine ⟨hc, fun i hi => ?_⟩
      have hmem := (hc.ready (keyOf ds i)).2 ⟨rfl, hi⟩
      simp [hready] at hmem
    · next k rest hready =>
      refine ih (hc.place hdeps hready) ?_
      rw [order_place, List.length_append, List.length_singleton]
      omega

/-- Counting down comes to a canonical order that cannot go on. -/
theorem countdown_counting (hdeps : Declares ds deps) : Counting ds deps (countdown ds deps) ∧
    ∀ i, ¬Ready ds (countdown ds deps).order i :=
  drain_counting hdeps (.start hdeps) (Nat.zero_add _)

/-! ### Schedules -/

lemma order_eq_ok : order ds = .ok l ↔ duplicate? [] ds = none ∧
    (dependencies ds).find? (isBackward ds) = none ∧
      ds.length ≤ (countdown ds (dependencies ds)).order.length ∧
        (countdown ds (dependencies ds)).order = l := by
  unfold order
  rcases duplicate? [] ds with _ | id
  · rcases hback : (dependencies ds).find? (isBackward ds) with _ | p
    · by_cases hlen : ds.length ≤ (countdown ds (dependencies ds)).order.length <;>
        simp [ensure, hback, hlen, bind, Except.bind, pure, Except.pure]
    · simp [hback, bind, Except.bind]
  · simp [bind, Except.bind]

/-- **Schedules**: there is one exactly when ids are distinct, no dependency leads back to an
earlier stage and dependencies do not go round. It lists all indices, stage by stage and with
predecessors before, and at every place the least index of those that may come next. -/
theorem order_canonical (ds : List Descriptor) :
    ((∃ l, order ds = .ok l) ↔ (ds.map (·.id)).Nodup ∧
      (∀ i j, Precedes ds i j → stageAt ds i ≤ stageAt ds j) ∧
      ∀ i, ¬Relation.TransGen (Precedes ds) i i) ∧
    ∀ l, order ds = .ok l → l.Perm (List.range ds.length) ∧
      (l.Pairwise fun i j => stageAt ds i ≤ stageAt ds j) ∧
      (∀ i j, Precedes ds i j → l.idxOf i < l.idxOf j) ∧ Canonical ds l := by
  have hback : (ds.map (·.id)).Nodup → ((dependencies ds).find? (isBackward ds) = none ↔
      ∀ i j, Precedes ds i j → stageAt ds i ≤ stageAt ds j) := fun hids => by
    simp [List.find?_eq_none, Prod.forall, mem_dependencies hids, isBackward]
  have hids : duplicate? [] ds = none ↔ (ds.map (·.id)).Nodup := by
    simp [duplicate?_eq_none]
  have hcount : (ds.map (·.id)).Nodup → Canonical ds (countdown ds (dependencies ds)).order ∧
      ∀ i, ¬Ready ds (countdown ds (dependencies ds)).order i := fun hids =>
    have hc := countdown_counting fun _ _ => mem_dependencies hids
    ⟨hc.1.canonical, hc.2⟩
  refine ⟨⟨?_, ?_⟩, ?_⟩
  · rintro ⟨l, hl⟩
    obtain ⟨hdup, hnone, hlen, rfl⟩ := order_eq_ok.1 hl
    have hnodup := hids.1 hdup
    exact ⟨hnodup, (hback hnodup).1 hnone, (hcount hnodup).1.acyclic hlen⟩
  · rintro ⟨hnodup, hstage, hacyclic⟩
    refine ⟨_, order_eq_ok.2 ⟨hids.2 hnodup, (hback hnodup).2 hstage, ?_, rfl⟩⟩
    by_contra hlen
    obtain ⟨i, hi⟩ := exists_ready hacyclic (Nat.lt_of_not_le hlen)
    exact (hcount hnodup).2 i hi
  · intro l hl
    obtain ⟨hdup, hnone, hlen, rfl⟩ := order_eq_ok.1 hl
    have hnodup := hids.1 hdup
    have hcan := (hcount hnodup).1
    have hperm := hcan.perm_range hlen
    exact ⟨hperm, hcan.pairwise_stage ((hback hnodup).1 hnone), fun i j hij =>
      hcan.idxOf_lt (hperm.mem_iff.2 (List.mem_range.2 hij.lt_right)) hij, hcan⟩

end TensorGraph.Schedule
