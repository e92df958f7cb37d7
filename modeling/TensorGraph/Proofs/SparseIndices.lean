import Mathlib.Algebra.BigOperators.Group.List.Lemmas
import Mathlib.Algebra.Order.BigOperators.GroupWithZero.List
import Mathlib.Algebra.Order.Ring.Int
import Mathlib.Data.List.Forall2
import Mathlib.Tactic.Ring
import TensorGraph.Proofs.ShapeBounds

/-!
What reshaping does to the indices of a sparse tensor.

`Shape.place` is the row-major place of coordinates. The coordinates of a place below the number of
elements are the one list within the bounds of the shape that has this place (`Shape.within_split`,
`Shape.place_injective`). Where two shapes have the same number of elements (`Shape.Refits`), index
matrices with rows within the one are moved to the other and back (`SparseIndices.exists_reshape`).
-/

namespace TensorGraph

namespace Shape

variable {s t : Shape} {r r' : List Int} {acc : Int}

/-- Coordinates within the bounds of a shape: one for each dimension. -/
def Within (s : Shape) (row : List Int) : Prop := List.Forall₂ (fun d i => 0 ≤ i ∧ i < d) s row

/-- The place of coordinates in row-major order. -/
def place : Shape → List Int → Int
  | _ :: ds, i :: is => i * ds.prod + place ds is
  | _, _ => 0

/-- Two shapes of positive dimensions with the same number of elements, which fits. -/
structure Refits (s t : Shape) : Prop where
  left : ∀ d ∈ s, 0 < d
  right : ∀ d ∈ t, 0 < d
  prod : s.prod = t.prod
  fits : Shape.fits s.prod

lemma Refits.symm (h : Refits s t) : Refits t s := ⟨h.right, h.left, h.prod.symm, h.prod ▸ h.fits⟩

lemma within_iff : Within s r ↔ r.length = s.length ∧ ∀ p ∈ r.zip s, 0 ≤ p.1 ∧ p.1 < p.2 := by
  have hflip : Within s r ↔ List.Forall₂ (fun i d => 0 ≤ i ∧ i < d) r s :=
    ⟨List.Forall₂.flip, List.Forall₂.flip⟩
  rw [hflip, List.forall₂_iff_zip]
  exact and_congr_right fun _ => ⟨fun h p hp => h hp, fun h _ _ hp => h _ hp⟩

/-! ### Places -/

lemma place_bounds (h : Within s r) : 0 ≤ place s r ∧ place s r < s.prod := by
  induction h with
  | nil => simp [place]
  | @cons d i ds is hi hds ih =>
    have hle : (i + 1) * ds.prod ≤ d * ds.prod :=
      Int.mul_le_mul_of_nonneg_right (by omega) (by omega)
    have hnonneg : 0 ≤ i * ds.prod := Int.mul_nonneg hi.1 (by omega)
    rw [Int.add_mul, Int.one_mul] at hle
    rw [place, List.prod_cons]
    omega

/-- Coordinates within a shape are known by their place. -/
lemma place_injective (h : Within s r) (h' : Within s r') (heq : place s r = place s r') :
    r = r' := by
  induction h generalizing r' with
  | nil =>
    cases h'
    rfl
  | @cons d i ds is hi hds ih =>
    cases h' with
    | @cons _ i' _ is' hi' hds' =>
      have hb := place_bounds hds
      have hb' := place_bounds hds'
      have hpos : 0 < ds.prod := by omega
      simp only [place] at heq
      have hi : i = i' := by
        have hdiv := congrArg (· / ds.prod) heq
        simpa [Int.add_ediv_of_dvd_left (Int.dvd_mul_left ..), Int.ediv_eq_zero_of_lt hb.1 hb.2,
          Int.ediv_eq_zero_of_lt hb'.1 hb'.2, Int.mul_ediv_cancel _ hpos.ne'] using hdiv
      subst hi
      rw [ih hds' (by omega)]

/-- A place is split into coordinates within the shape, and what it exceeds the shape by. -/
lemma within_split (hs : ∀ d ∈ s, 0 < d) (p : Int) : Within s (SparseIndices.split p s).1 ∧
    (SparseIndices.split p s).2 = p / s.prod ∧
    place s (SparseIndices.split p s).1 = p % s.prod := by
  induction s with
  | nil => exact ⟨.nil, by simp [SparseIndices.split], by simp [place]⟩
  | cons d ds ih =>
    obtain ⟨hin, hrest, hplace⟩ := ih fun x hx => hs x (List.mem_cons_of_mem d hx)
    have hd := hs d (List.mem_cons_self ..)
    have hpos : 0 < ds.prod := List.prod_pos fun x hx => hs x (List.mem_cons_of_mem d hx)
    have hdiv : p / ds.prod / d = p / (d * ds.prod) := by
      rw [Int.ediv_ediv_of_nonneg hpos.le, Int.mul_comm]
    simp only [SparseIndices.split, hrest]
    refine ⟨.cons ⟨Int.emod_nonneg _ hd.ne', Int.emod_lt_of_pos _ hd⟩ hin, hdiv, ?_⟩
    rw [place, hplace, List.prod_cons, Int.emod_def, Int.emod_def, Int.emod_def, hdiv]
    ring

end Shape

/-- A row of an index matrix. -/
def Grid.row (g : Grid Int64) (k : Nat) : List Int :=
  (List.range (g.shape.getD 1 0)).map fun j => (g.read [k, j]).toInt

namespace SparseIndices

open Shape

variable {s : Shape} {row : List Int} {acc : Int}

/-- A row is within the shape and its place is found, or it is refused for an index that is not in
its dimension: the place never outgrows the number of elements. -/
lemma position_cases (shape : Shape) (hlen : row.length = s.length) (hs : ∀ d ∈ s, 0 < d)
    (hacc : 0 ≤ acc) (hfits : (acc + 1) * s.prod ≤ 0x8000000000000000) :
    Within s row ∧ position shape acc (row.zip s) = .ok (acc * s.prod + place s row) ∨
      ∃ i d, (i, d) ∈ row.zip s ∧ ¬(0 ≤ i ∧ i < d) ∧
        position shape acc (row.zip s) = .error (ShapeFault.sparseIndex i d) := by
  induction s generalizing row acc with
  | nil =>
    obtain rfl := List.length_eq_zero_iff.1 hlen
    exact .inl ⟨.nil, by simp [position, place]⟩
  | cons d ds ih =>
    obtain ⟨i, is, rfl⟩ := List.exists_cons_of_length_eq_add_one hlen
    have hd := hs d (List.mem_cons_self ..)
    have hds : ∀ x ∈ ds, 0 < x := fun x hx => hs x (List.mem_cons_of_mem d hx)
    have hpos : 0 < ds.prod := List.prod_pos hds
    rw [List.zip_cons_cons, position]
    by_cases hi : 0 ≤ i ∧ i < d
    · -- the place so far is below the number of elements so far
      have hnonneg : 0 ≤ acc * d := Int.mul_nonneg hacc hd.le
      have hnext : (acc * d + i + 1) * ds.prod ≤ 0x8000000000000000 := by
        refine le_trans (Int.mul_le_mul_of_nonneg_right ?_ hpos.le)
          (by rwa [List.prod_cons, ← Int.mul_assoc] at hfits)
        rw [Int.add_mul, Int.one_mul]
        omega
      have hlt : acc * d + i + 1 ≤ 0x8000000000000000 :=
        le_trans (le_mul_of_one_le_right (by omega) hpos) hnext
      have hok : fits (acc * d) ∧ fits (acc * d + i) := by
        rw [fits_iff, fits_iff]
        omega
      rw [ensure, if_pos hi, ensure, if_pos hok]
      rcases ih (Nat.succ.inj hlen) hds (by omega) hnext with
        ⟨hin, hrest⟩ | ⟨j, e, hmem, hout, herr⟩
      · refine .inl ⟨.cons hi hin, hrest.trans ?_⟩
        rw [place, List.prod_cons]
        congr 1
        ring
      · exact .inr ⟨j, e, List.mem_cons_of_mem _ hmem, hout, herr⟩
    · rw [ensure, if_neg hi]
      exact .inr ⟨i, d, List.mem_cons_self .., hi, rfl⟩

/-- Splitting a place, unless it would be divided by zero. -/
def split? (place : Int) : Shape → Option (List Int × Int)
  | [] => some ([], place)
  | d :: ds => (split? place ds).bind fun (coords, rest) =>
    if d = 0 then none else some (rest % d :: coords, rest / d)

lemma split?_eq (hs : ∀ d ∈ s, d ≠ 0) (place : Int) : split? place s = some (split place s) := by
  induction s with
  | nil => rfl
  | cons d ds ih =>
    rw [split?, ih fun x hx => hs x (List.mem_cons_of_mem d hx), Option.bind_some]
    exact if_neg (hs d (List.mem_cons_self ..))

/-! ### Rows -/

variable {n w : Nat} {g : Grid Int64}

/-- A list cut into parts of one length. -/
def parts {α : Type} (w n : Nat) (cells : List α) : List (List α) :=
  (List.range n).map fun k => (cells.drop (k * w)).take w

lemma parts_succ {α : Type} (w n : Nat) (cells : List α) :
    parts w (n + 1) cells = cells.take w :: parts w n (cells.drop w) := by
  unfold parts
  rw [List.range_succ_eq_map, List.map_cons, List.map_map, Nat.zero_mul, List.drop_zero]
  congr 1
  refine List.map_congr_left fun k _ => ?_
  show ((cells.drop ((k + 1) * w)).take w) = _
  rw [List.drop_drop, Nat.add_mul, Nat.one_mul, Nat.add_comm]

lemma flatten_parts {α : Type} {cells : List α} (h : cells.length = n * w) :
    (parts w n cells).flatten = cells := by
  induction n generalizing cells with
  | zero => simpa [parts, eq_comm] using h
  | succ n ih =>
    rw [Nat.add_mul, Nat.one_mul] at h
    rw [parts_succ, List.flatten_cons, ih (by rw [List.length_drop]; omega), List.take_append_drop]

lemma parts_flatten {α : Type} {l : List (List α)} (h : ∀ r ∈ l, r.length = w) :
    parts w l.length l.flatten = l := by
  induction l with
  | nil => rfl
  | cons r l ih =>
    have hr := h r (List.mem_cons_self ..)
    rw [List.length_cons, parts_succ, List.flatten_cons, List.take_left' hr, List.drop_left' hr,
      ih fun x hx => h x (List.mem_cons_of_mem r hx)]

lemma rows_eq_parts (hg : g.shape = [n, w]) :
    rows g = (parts w n g.toList).map (·.map Int64.toInt) := by
  unfold rows parts
  rw [List.map_map]
  simp [hg]

lemma length_toList (hg : g.shape = [n, w]) : g.toList.length = n * w := by
  rw [Grid.toList, Array.length_toList, g.size_cells, hg]
  simp

lemma rows_eq (hg : g.shape = [n, w]) : rows g = (List.range n).map g.row := by
  have hsize := length_toList hg
  rw [rows_eq_parts hg, parts, List.map_map]
  refine List.map_congr_left fun k hk => ?_
  have hk := List.mem_range.1 hk
  have hle : k * w + w ≤ n * w := by
    have := Nat.mul_le_mul_right w hk
    rwa [Nat.succ_mul] at this
  refine List.ext_getElem ?_ fun j hj _ => ?_
  · simp [Grid.row, hg, hsize]
    omega
  · have hj' : j < w := by
      rw [Function.comp, List.length_map, List.length_take] at hj
      omega
    have hlt : k * w + j < g.cells.size := by
      rw [Grid.toList, Array.length_toList] at hsize
      omega
    simp [Grid.row, Grid.read, Grid.offset, hg, Grid.toList, Array.getD, hlt]

/-- An index matrix is made of its rows. -/
lemma flatten_rows (hg : g.shape = [n, w]) : (rows g).flatten.map Int64.ofInt = g.toList := by
  rw [rows_eq_parts hg, ← List.map_flatten, flatten_parts (length_toList hg), List.map_map]
  refine (List.map_congr_left fun x _ => ?_).trans (List.map_id _)
  exact Int64.ofInt_toInt x

/-- The index matrix of given rows. -/
lemma exists_ofRows {l : List (List Int)} (hi : Grid.indexable [l.length, w] = true)
    (hl : ∀ r ∈ l, r.length = w) (hfits : ∀ r ∈ l, ∀ x ∈ r, fits x) :
    ∃ out : Grid Int64, Grid.ofCells [l.length, w] (l.flatten.map Int64.ofInt) = .ok out ∧
      out.shape = [l.length, w] ∧ out.order = .rows ∧ rows out = l := by
  have hlen : (l.flatten.map Int64.ofInt).length = l.length * w := by
    rw [List.length_map, List.length_flatten,
      List.sum_eq_card_nsmul (l.map List.length) w (by simpa using hl), List.length_map]
    rfl
  have hcount : (l.flatten.map Int64.ofInt).length = Grid.count [l.length, w] := by
    rw [hlen]
    simp
  have hcells : (l.flatten.map Int64.ofInt).map Int64.toInt = l.flatten := by
    refine Tensor.map_toInt_ofInt fun x hx => ?_
    obtain ⟨r, hr, hx⟩ := List.mem_flatten.1 hx
    exact hfits r hr x hx
  refine ⟨⟨[l.length, w], (l.flatten.map Int64.ofInt).toArray, .rows, by simpa using hcount, hi,
    MemoryOrder.settled_rows _⟩, ?_, rfl, rfl, ?_⟩
  · unfold Grid.ofCells
    rw [dif_pos hi, dif_pos hcount]
  · rw [rows_eq_parts rfl]
    have hmap : (parts w l.length (l.flatten.map Int64.ofInt)).map (·.map Int64.toInt) =
        parts w l.length l.flatten := by
      conv_rhs => rw [← hcells]
      simp only [parts, List.map_map, Function.comp_def, List.map_take, List.map_drop]
    exact hmap.trans (parts_flatten hl)

/-! ### Reshaping -/

section

variable {t : Shape}

/-- The coordinates in `t` of the place that a row of `s` has. -/
def moved (s t : Shape) (row : List Int) : List Int := coordinates t (place s row)

lemma within_moved (h : Refits s t) (hrow : Within s row) : Within t (moved s t row) ∧
    place t (moved s t row) = place s row := by
  obtain ⟨hin, -, hplace⟩ := within_split h.right (place s row)
  obtain ⟨h0, hlt⟩ := place_bounds hrow
  exact ⟨hin, hplace.trans (Int.emod_eq_of_lt h0 (h.prod ▸ hlt))⟩

/-- Moving a row to another shape and back gives it again. -/
lemma moved_moved (h : Refits s t) (hrow : Within s row) : moved t s (moved s t row) = row := by
  obtain ⟨hin, hplace⟩ := within_moved h hrow
  obtain ⟨hin', hplace'⟩ := within_moved h.symm hin
  exact place_injective hin' hrow (hplace'.trans hplace)

/-- Indices within a shape fit, as its number of elements does. -/
lemma fits_of_within (h : Refits s t) (hrow : Within s row) : ∀ i ∈ row, fits i := by
  intro i hi
  obtain ⟨d, hd, h0, hlt⟩ := of_forall₂_right hrow hi
  have hle : d ≤ s.prod := Int.le_of_dvd (List.prod_pos h.left) (List.dvd_prod hd)
  have := fits_iff.1 h.fits
  rw [fits_iff]
  omega

/-- A row of as many indices as dimensions is moved, unless an index is out of bounds. -/
lemma moves_or_fails (h : Refits s t) (hlen : row.length = s.length) :
    let move : Except Error (List Int) := do return coordinates t (← position s 0 (row.zip s))
    (Within s row → move = .ok (moved s t row)) ∧ (¬Within s row → ∃ p ∈ row.zip s,
      ¬(0 ≤ p.1 ∧ p.1 < p.2) ∧ move = .error (ShapeFault.sparseIndex p.1 p.2)) := by
  have hfits : (0 + 1) * s.prod ≤ 0x8000000000000000 := by
    have := fits_iff.1 h.fits
    omega
  rcases position_cases s hlen h.left le_rfl hfits with ⟨hin, hok⟩ | ⟨i, d, hmem, hout, herr⟩
  · refine ⟨fun _ => ?_, fun hnot => absurd hin hnot⟩
    rw [hok, Int.zero_mul, Int.zero_add]
    rfl
  · refine ⟨fun hin => absurd ((within_iff.1 hin).2 _ hmem) hout,
      fun _ => ⟨(i, d), hmem, hout, ?_⟩⟩
    rw [herr]
    rfl

lemma mem_rows (hg : g.shape = [n, w]) : row ∈ rows g ↔ ∃ k < n, g.row k = row := by
  simp [rows_eq hg]

lemma length_row (hg : g.shape = [n, w]) (k : Nat) : (g.row k).length = w := by
  simp [Grid.row, hg]

/-- An index matrix whose rows are within one shape is moved to the other. -/
lemma exists_reshape (h : Refits s t) (hg : g.shape = [n, s.length])
    (hi : Grid.indexable [n, t.length] = true) (hrows : ∀ k < n, Within s (g.row k)) :
    ∃ out : Grid Int64, reshape (.i64 g) s t = .ok (.i64 out) ∧ out.shape = [n, t.length] ∧
      out.order = .rows ∧ ∀ k < n, out.row k = moved s t (g.row k) := by
  have hcount : (rows g).length = n := by
    rw [rows_eq hg, List.length_map, List.length_range]
  have hmoved : (rows g).mapM (fun row => (do
      return coordinates t (← position s 0 (row.zip s)) : Except Error _)) =
      .ok ((rows g).map (moved s t)) := by
    refine mapM_eq_ok fun row hrow => ?_
    obtain ⟨k, hk, rfl⟩ := (mem_rows hg).1 hrow
    exact (moves_or_fails h (length_row hg k)).1 (hrows k hk)
  have hwithin : ∀ r ∈ (rows g).map (moved s t), Within t r := by
    intro _ hr
    obtain ⟨r, hr', rfl⟩ := List.mem_map.1 hr
    obtain ⟨k, hk, rfl⟩ := (mem_rows hg).1 hr'
    exact (within_moved h (hrows k hk)).1
  obtain ⟨out, hout, hshape, horder, hrows'⟩ :=
    exists_ofRows (l := (rows g).map (moved s t)) (w := t.length) (by rwa [List.length_map, hcount])
    (fun r hr => (hwithin r hr).length_eq.symm) fun r hr => fits_of_within h.symm (hwithin r hr)
  rw [List.length_map, hcount] at hout hshape
  refine ⟨out, ?_, hshape, horder, fun k hk => ?_⟩
  · unfold reshape
    simp only [Tensor.toI64]
    rw [hmoved, ok_bind, hcount, hout]
    rfl
  · rw [rows_eq hg, rows_eq hshape, List.map_map] at hrows'
    exact List.map_inj_left.1 hrows' k (List.mem_range.2 hk)

/-- An index matrix with a row out of bounds is refused, for an index that is. -/
lemma exists_reshape_error (h : Refits s t) (hg : g.shape = [n, s.length])
    (hout : ∃ k < n, ¬Within s (g.row k)) : ∃ k < n, ∃ p ∈ (g.row k).zip s,
      ¬(0 ≤ p.1 ∧ p.1 < p.2) ∧
      reshape (.i64 g) s t = .error (ShapeFault.sparseIndex p.1 p.2) := by
  let move (row : List Int) : Except Error (List Int) := do
    return coordinates t (← position s 0 (row.zip s))
  have hmove (k : Nat) := moves_or_fails h (length_row hg k)
  rcases hmoved : (rows g).mapM move with e | ys
  · obtain ⟨r, hr, he⟩ := exists_of_mapM_eq_error hmoved
    obtain ⟨k, hk, rfl⟩ := (mem_rows hg).1 hr
    have hnot : ¬Within s (g.row k) := fun hin => by cases he.symm.trans ((hmove k).1 hin)
    obtain ⟨p, hp, hpout, herr⟩ := (hmove k).2 hnot
    obtain rfl := Except.error.inj (he.symm.trans herr)
    refine ⟨k, hk, p, hp, hpout, ?_⟩
    show ((rows g).mapM move >>= fun moved => _) = _
    rw [hmoved]
    rfl
  · obtain ⟨k, hk, hnot⟩ := hout
    obtain ⟨p, -, -, herr⟩ := (hmove k).2 hnot
    have hsteps : List.Forall₂ (fun y r => move r = .ok y) ys (rows g) :=
      (forall₂_of_mapM hmoved).flip
    obtain ⟨_, -, hy⟩ := of_forall₂_right hsteps ((mem_rows hg).2 ⟨k, hk, rfl⟩)
    cases hy.symm.trans herr

/-- Indices that are accepted are within the shape, whatever it is. -/
lemma position_eq_ok {shape : Shape} {pairs : List (Int × Int)} {v : Int}
    (h : position shape acc pairs = .ok v) : ∀ p ∈ pairs, 0 ≤ p.1 ∧ p.1 < p.2 := by
  induction pairs generalizing acc with
  | nil => simp
  | cons p pairs ih =>
    rw [position] at h
    obtain ⟨_, hin, h⟩ := bind_eq_ok.1 h
    obtain ⟨_, -, h⟩ := bind_eq_ok.1 h
    exact List.forall_mem_cons.2 ⟨Edit.ensure_eq_ok.1 hin, ih h⟩

lemma within_of_reshape {v : Tensor} (hg : g.shape = [n, s.length])
    (h : reshape (.i64 g) s t = .ok v) : ∀ k < n, Within s (g.row k) := by
  intro k hk
  obtain ⟨moved, hmoved, -⟩ := bind_eq_ok.1 h
  obtain ⟨_, -, hy⟩ := of_forall₂_right (forall₂_of_mapM hmoved).flip
    ((mem_rows hg).2 ⟨k, hk, rfl⟩)
  obtain ⟨place, hplace, -⟩ := bind_eq_ok.1 hy
  exact within_iff.2 ⟨length_row hg k, position_eq_ok hplace⟩

/-- Where there are no rows nothing is refused. -/
lemma exists_reshape_nil (hg : g.shape = [0, w]) (hi : Grid.indexable [0, t.length] = true) :
    ∃ v, reshape (.i64 g) s t = .ok v := by
  have hrows : rows g = [] := by
    rw [rows_eq hg]
    rfl
  obtain ⟨out, hout, -⟩ := exists_ofRows (l := []) hi (by simp) (by simp)
  refine ⟨.i64 out, ?_⟩
  unfold reshape
  simp only [Tensor.toI64, hrows]
  exact bind_eq_ok.2 ⟨[], rfl, bind_eq_ok.2 ⟨out, hout, rfl⟩⟩

/-- No index is below an unknown dimension, so a matrix is then only accepted without rows. -/
lemma exists_reshape_iff_of_unknown (hg : g.shape = [n, s.length])
    (hi : Grid.indexable [n, t.length] = true) (hs : -1 ∈ s) :
    (∃ v, reshape (.i64 g) s t = .ok v) ↔ n = 0 := by
  constructor
  · rintro ⟨v, hv⟩
    by_contra hn
    obtain ⟨i, -, h0, hlt⟩ := of_forall₂_right
      (within_of_reshape hg hv 0 (Nat.pos_of_ne_zero hn)).flip hs
    omega
  · rintro rfl
    exact exists_reshape_nil hg hi

/-- Index matrices hold the same when their rows are equal. -/
lemma eq_of_rows {g' : Grid Int64} (hg : g.shape = [n, w]) (hg' : g'.shape = [n, w])
    (horder : g'.order = .rows) (h : ∀ k < n, g'.row k = g.row k) : g' = g.laidOut .rows := by
  have hrows : rows g' = rows g := by
    rw [rows_eq hg, rows_eq hg']
    exact List.map_congr_left fun k hk => h k (List.mem_range.1 hk)
  have hlist : g'.toList = g.toList := by
    rw [← flatten_rows hg, ← flatten_rows hg', hrows]
  refine Grid.ext (hg'.trans hg.symm) (Array.toList_inj.1 hlist) ?_
  rw [horder]
  exact (MemoryOrder.settled_rows g.shape).symm

end

/-- The index matrix `out` of `n` rows has in `t` the places that `indices` has in `s`, and goes
back to it, laid out by rows. -/
structure Moves (s t : Shape) (n : Nat) (indices out : Grid Int64) : Prop where
  shape : out.shape = [n, t.length]
  within : ∀ k < n, Within t (out.row k)
  place : ∀ k < n, Shape.place t (out.row k) = Shape.place s (indices.row k)
  back : reshape (.i64 out) t s = .ok (.i64 (indices.laidOut .rows))

/-- **Reshaping sparse indices**: between shapes with the same number of elements, an index matrix
within the one is moved to the other, entry by entry to the same place, and back. -/
theorem exists_moves {t : Shape} (h : Refits s t) (hg : g.shape = [n, s.length])
    (hi : Grid.indexable [n, t.length] = true) (hrows : ∀ k < n, Within s (g.row k)) :
    ∃ out, reshape (.i64 g) s t = .ok (.i64 out) ∧ Moves s t n g out := by
  obtain ⟨out, hout, hshape, -, hrow⟩ := exists_reshape h hg hi hrows
  have hmoved {k : Nat} (hk : k < n) :
      Within t (out.row k) ∧ Shape.place t (out.row k) = Shape.place s (g.row k) := by
    rw [hrow k hk]
    exact within_moved h (hrows k hk)
  obtain ⟨g', hback, hshape', horder, hrow'⟩ :=
    exists_reshape h.symm hshape (hg ▸ g.fits) fun k hk => (hmoved hk).1
  refine ⟨out, hout, hshape, fun k hk => (hmoved hk).1, fun k hk => (hmoved hk).2, ?_⟩
  rw [hback, eq_of_rows hg hshape' horder fun k hk => ?_]
  rw [hrow' k hk, hrow k hk, moved_moved h (hrows k hk)]

end SparseIndices

end TensorGraph
