import Mathlib.Data.List.Forall2
import Mathlib.Data.List.GetD
import TensorGraph.Tensor.Grid

/-!
Coordinates of grids, a part at a time.

The dimensions and the coordinates of a stack of matrices are those of the stack and then those of
the matrix. What is said of coordinates, of their place and of stretching can be said of the two
parts (`inside_append`, `offset_append`, `unstretch_append`).
-/

namespace TensorGraph.Grid

variable {α : Type} {s t c d : List Nat}

/-! ### Counts -/

lemma le_count {shape : List Nat} (hpos : ∀ d ∈ shape, d ≠ 0) {d : Nat} (hd : d ∈ shape) :
    d ≤ count shape := by
  induction shape with
  | nil => cases hd
  | cons c shape ih =>
    have hc : 0 < c := Nat.pos_of_ne_zero (hpos c (List.mem_cons_self ..))
    have hcount : 0 < count shape := by
      clear ih hd
      induction shape with
      | nil => exact Nat.one_pos
      | cons b shape ih =>
        have hb : 0 < b := Nat.pos_of_ne_zero (hpos b (by simp))
        refine Nat.mul_pos hb (ih fun x hx => hpos x ?_)
        rcases List.mem_cons.1 hx with rfl | hx
        · exact List.mem_cons_self ..
        · exact List.mem_cons_of_mem _ (List.mem_cons_of_mem _ hx)
    rw [count_cons]
    rcases List.mem_cons.1 hd with rfl | hd
    · exact Nat.le_mul_of_pos_right d hcount
    · have hle := ih (fun x hx => hpos x (List.mem_cons_of_mem c hx)) hd
      exact Nat.le_trans hle (Nat.le_mul_of_pos_left _ hc)

lemma lt_of_indexable {shape : List Nat} (h : indexable shape = true) {d : Nat}
    (hd : d ∈ shape) : d < 0x8000000000000000 := by
  unfold indexable at h
  have hlt := of_decide_eq_true h
  by_cases h0 : d = 0
  · omega
  · refine Nat.lt_of_le_of_lt (le_count (fun x hx => ?_) ?_) hlt
    · simpa using (List.mem_filter.1 hx).2
    · exact List.mem_filter.2 ⟨hd, by simpa using h0⟩

lemma count_le_filter (shape : List Nat) :
    count shape ≤ count (shape.filter (· ≠ 0)) := by
  induction shape with
  | nil => exact Nat.le_refl _
  | cons d shape ih =>
    by_cases hd : d = 0
    · simp [hd]
    · rw [List.filter_cons_of_pos (by simpa using hd), count_cons, count_cons]
      exact Nat.mul_le_mul_left d ih

lemma count_lt_of_indexable {shape : List Nat} (h : indexable shape = true) :
    count shape < 0x8000000000000000 :=
  Nat.lt_of_le_of_lt (count_le_filter shape) (of_decide_eq_true h)

lemma indexable_singleton {n : Nat} (h : n < 0x8000000000000000) : indexable [n] = true := by
  unfold indexable
  rw [decide_eq_true_eq]
  by_cases hn : n = 0
  · simp [hn]
  · simpa [hn] using h

/-! ### Parts -/

lemma inside_iff : Inside s c ↔ List.Forall₂ (fun n i => i < n) s c := by
  induction s generalizing c with
  | nil => cases c <;> simp [Inside]
  | cons n s ih =>
    cases c with
    | nil => simp [Inside]
    | cons i c => rw [List.forall₂_cons, ← ih, Inside]

lemma Inside.length_eq (h : Inside s c) : s.length = c.length := (inside_iff.1 h).length_eq

lemma inside_append (hlen : s.length = c.length) :
    Inside (s ++ t) (c ++ d) ↔ Inside s c ∧ Inside t d := by
  induction s generalizing c with
  | nil =>
    rw [List.length_eq_zero_iff.1 hlen.symm]
    exact ⟨fun h => ⟨trivial, h⟩, And.right⟩
  | cons n s ih =>
    obtain ⟨i, c, rfl⟩ := List.exists_cons_of_length_eq_add_one hlen.symm
    simp only [List.cons_append, Inside, ih (Nat.succ.inj hlen), and_assoc]

lemma exists_of_inside_append (h : Inside (s ++ t) c) :
    ∃ c₁ c₂, c = c₁ ++ c₂ ∧ Inside s c₁ ∧ Inside t c₂ := by
  have hlen := h.length_eq
  rw [List.length_append] at hlen
  have htake : s.length = (c.take s.length).length := by
    rw [List.length_take]
    omega
  refine ⟨c.take s.length, c.drop s.length, (List.take_append_drop ..).symm, ?_⟩
  rw [← inside_append htake, List.take_append_drop]
  exact h

lemma count_append : count (s ++ t) = count s * count t := by
  induction s with
  | nil => simp
  | cons n s ih => rw [List.cons_append, count_cons, count_cons, ih, Nat.mul_assoc]

lemma offset_append (hlen : s.length = c.length) :
    offset (s ++ t) (c ++ d) = offset s c * count t + offset t d := by
  induction s generalizing c with
  | nil =>
    rw [List.length_eq_zero_iff.1 hlen.symm]
    simp [offset]
  | cons n s ih =>
    obtain ⟨i, c, rfl⟩ := List.exists_cons_of_length_eq_add_one hlen.symm
    simp only [List.cons_append, offset, ih (Nat.succ.inj hlen), count_append, Nat.add_mul,
      Nat.mul_assoc, Nat.add_assoc]

@[simp] lemma swapLast_append (s : List Nat) (m n : Nat) :
    swapLast (s ++ [m, n]) = s ++ [n, m] := by
  induction s with
  | nil => rfl
  | cons k s ih =>
    rcases s with _ | ⟨l, s⟩
    · rfl
    · rcases hs : s ++ [m, n] with _ | ⟨x, rest⟩
      · simp at hs
      · rw [List.cons_append, List.cons_append, hs, swapLast, ← hs, ← List.cons_append, ih]
        rfl

/-! ### Stretching -/

/-- A shape stretches to those that end with dimensions its own are equal to, but where it has
one. -/
lemma stretches_iff : stretches s t = true ↔
    ∃ lead rest, t = lead ++ rest ∧ List.Forall₂ (fun m n => m = n ∨ m = 1) s rest := by
  unfold stretches
  rw [Bool.and_eq_true, decide_eq_true_eq, List.all_eq_true]
  constructor
  · rintro ⟨hle, hall⟩
    refine ⟨_, _, (List.take_append_drop (t.length - s.length) t).symm, ?_⟩
    refine List.forall₂_iff_zip.2 ⟨by rw [List.length_drop]; omega, fun hp => ?_⟩
    simpa using hall _ hp
  · rintro ⟨lead, rest, rfl, hrest⟩
    have hlen := hrest.length_eq
    refine ⟨by simp [hlen], ?_⟩
    rw [List.drop_left' (by simp [hlen])]
    rintro ⟨m, n⟩ hp
    simpa using (List.forall₂_iff_zip.1 hrest).2 hp

/-- Compared from the right. -/
lemma stretches_of_getD (hle : s.length ≤ t.length) (h : ∀ i < s.length,
    s.reverse.getD i 1 = t.reverse.getD i 1 ∨ s.reverse.getD i 1 = 1) : stretches s t = true := by
  refine stretches_iff.2 ⟨_, _, (List.take_append_drop (t.length - s.length) t).symm, ?_⟩
  refine List.forall₂_iff_get.2 ⟨by rw [List.length_drop]; omega, fun j hj hj' => ?_⟩
  have hrev := h (s.length - 1 - j) (by omega)
  rw [List.getD_eq_getElem _ _ (by rw [List.length_reverse]; omega),
    List.getD_eq_getElem _ _ (by rw [List.length_reverse]; omega), List.getElem_reverse,
    List.getElem_reverse] at hrev
  simp only [List.get_eq_getElem, List.getElem_drop]
  convert hrev using 3 <;> omega

lemma stretches_append (h : stretches s t = true) (u : List Nat) :
    stretches (s ++ u) (t ++ u) = true := by
  obtain ⟨lead, rest, rfl, hrest⟩ := stretches_iff.1 h
  refine stretches_iff.2 ⟨lead, rest ++ u, List.append_assoc .., ?_⟩
  exact List.rel_append hrest (List.forall₂_same.2 fun _ _ => .inl rfl)

lemma unstretch_append (hle : s.length ≤ c.length) (hlen : t.length = d.length) :
    unstretch (s ++ t) (c ++ d) = unstretch s c ++ unstretch t d := by
  have hdrop : (c ++ d).drop ((c ++ d).length - (s ++ t).length) =
      c.drop (c.length - s.length) ++ d := by
    rw [List.length_append, List.length_append, hlen, Nat.add_sub_add_right,
      List.drop_append_of_le_length (Nat.sub_le ..)]
  have hzip : s.length = (c.drop (c.length - s.length)).length := by
    rw [List.length_drop]
    omega
  unfold unstretch
  rw [hdrop, List.zip_append hzip, List.map_append, hlen, Nat.sub_self, List.drop_zero]

lemma unstretch_cons (hlen : s.length = c.length) (n i : Nat) :
    unstretch (n :: s) (i :: c) = (if n = 1 then 0 else i) :: unstretch s c := by
  simp [unstretch, hlen]

lemma unstretch_of_inside (h : Inside s c) : unstretch s c = c := by
  induction s generalizing c with
  | nil =>
    rw [List.length_eq_zero_iff.1 h.length_eq.symm]
    rfl
  | cons n s ih =>
    obtain ⟨i, c, rfl⟩ := List.exists_cons_of_length_eq_add_one h.length_eq.symm
    obtain ⟨hi, hc⟩ := h
    rw [unstretch_cons hc.length_eq, ih hc]
    by_cases hn : n = 1
    · rw [if_pos hn]
      congr 1
      omega
    · rw [if_neg hn]

lemma inside_unstretch (hs : stretches s t = true) (hc : Inside t c) :
    Inside s (unstretch s c) := by
  obtain ⟨lead, rest, rfl, hrest⟩ := stretches_iff.1 hs
  obtain ⟨c₁, c₂, rfl, -, hc₂⟩ := exists_of_inside_append hc
  have hdrop : unstretch s (c₁ ++ c₂) = unstretch s c₂ :=
    unstretch_append (s := []) (Nat.zero_le _) (hrest.length_eq.trans hc₂.length_eq)
  rw [hdrop]
  clear hs hc hdrop
  induction hrest generalizing c₂ with
  | nil => trivial
  | @cons m n s rest hm hrest ih =>
    obtain ⟨i, c, rfl⟩ := List.exists_cons_of_length_eq_add_one hc₂.length_eq.symm
    obtain ⟨hi, hc⟩ := hc₂
    rw [unstretch_cons (hrest.length_eq.trans hc.length_eq)]
    refine ⟨?_, ih c hc⟩
    rcases hm with rfl | rfl
    · split <;> omega
    · simp

section

variable [Inhabited α] {g : Grid α}

/-- A grid stretches to the shapes that its own stretches to, as far as arrays can have them. -/
lemma exists_stretch (hi : indexable t = true) (hs : stretches g.shape t = true) :
    ∃ k : Grid α, g.stretch? t = some k ∧ k.shape = t ∧
      ∀ c, Inside t c → k.read c = g.read (unstretch g.shape c) := by
  refine ⟨ofFn t hi fun c => g.read (unstretch g.shape c), ?_, rfl, fun c hc => read_ofFn hc⟩
  rw [stretch?, dif_pos ⟨hi, hs⟩]

lemma read_transposeLast {m n i j : Nat} (hg : g.shape = s ++ [m, n])
    (hc : Inside (s ++ [n, m]) (c ++ [i, j])) :
    g.transposeLast.read (c ++ [i, j]) = g.read (c ++ [j, i]) := by
  unfold transposeLast
  rw [read_ofFn (by rwa [hg, swapLast_append]), swapLast_append]

/-! ### Reshaping -/

/-- A shape of as many cells takes the cells over, in their order. -/
lemma exists_reshape (hcount : count t = count g.shape) (hi : indexable t = true) :
    ∃ k : Grid α, g.reshape t = .ok k ∧ k.shape = t ∧
      ∀ c d, offset t c = offset g.shape d → k.read c = g.read d := by
  have hsize : count t = g.size := hcount.trans g.size_cells.symm
  have hlt := count_lt_of_indexable hi
  refine ⟨⟨t, g.cells, .rows, hsize.symm, hi, MemoryOrder.settled_rows t⟩, ?_, rfl,
    fun c d hcd => ?_⟩
  · unfold reshape
    rw [if_neg (by omega), dif_pos ⟨hsize, hi⟩]
  · unfold read
    rw [hcd]

end

end TensorGraph.Grid
