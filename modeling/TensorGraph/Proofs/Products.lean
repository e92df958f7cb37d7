import Mathlib.Algebra.BigOperators.Group.Finset.Basic
import TensorGraph.Proofs.Grids
import TensorGraph.Proofs.ShapeBounds

/-!
What products of constants hold.

`Grid.entry` reads an operand as a stack of matrices over the stack of the product: a vector has one
row or one column, the last two coordinates change places when asked, and those of the stack are
dropped or taken at zero as broadcasting has it. The elements of a product are sums over rows and
columns of entries, whatever the accumulation (`Grid.exists_product`); sums of integers are taken
modulo `2 ^ 64` (`Tensor.product_integers`).
-/

namespace TensorGraph

namespace Shape

variable {x y c : List Nat}

/-! ### Stacks of matrices -/

lemma fromRight_map (x : List Nat) (i : Nat) :
    fromRight (x.map Int.ofNat) i = ((x.reverse.getD i 1 : Nat) : Int) := by
  unfold fromRight
  rw [← List.map_reverse, List.getD_eq_getElem?_getD, List.getD_eq_getElem?_getD, List.getElem?_map]
  rcases x.reverse[i]? with _ | d <;> rfl

/-- Known dimensions broadcast to one that both are equal to, but for ones. -/
lemma eq_or_one_of_broadcastDim {m n : Nat} {z : Int} (h : broadcastDim m n = some z) :
    ((m : Int) = z ∨ m = 1) ∧ ((n : Int) = z ∨ n = 1) := by
  unfold broadcastDim at h
  grind

lemma exists_broadcast_nat {s : Shape} (h : broadcast [x.map Int.ofNat, y.map Int.ofNat] = .ok s) :
    ∃ c : List Nat, s = c.map Int.ofNat := by
  have hnonneg : ∀ d ∈ s, 0 ≤ d := by
    refine broadcast_of (P := (0 ≤ ·)) (by decide) ?_ h
    simp
  refine ⟨s.map Int.toNat, ?_⟩
  rw [List.map_map]
  refine ((List.map_congr_left fun d hd => ?_).trans (List.map_id _)).symm
  exact Int.toNat_of_nonneg (hnonneg d hd)

/-- Both of two shapes stretch to the one they broadcast to. -/
lemma stretches_of_broadcast
    (h : broadcast [x.map Int.ofNat, y.map Int.ofNat] = .ok (c.map Int.ofNat)) :
    Grid.stretches x c = true ∧ Grid.stretches y c = true := by
  obtain ⟨dims, hdims, heq⟩ := bind_eq_ok.1 h
  have hdims := forall₂_of_mapM hdims
  have hc : dims = c.reverse.map Int.ofNat := by
    rw [← List.reverse_reverse dims, Except.ok.inj heq, List.map_reverse]
  have hrank : maxRank [x.map Int.ofNat, y.map Int.ofNat] = max x.length y.length := by
    simp [maxRank]
  have hlen : c.length = max x.length y.length := by
    simpa [hc, hrank] using hdims.length_eq.symm
  have haxis (i : Nat) (hi : i < max x.length y.length) :
      (x.reverse.getD i 1 = c.reverse.getD i 1 ∨ x.reverse.getD i 1 = 1) ∧
        (y.reverse.getD i 1 = c.reverse.getD i 1 ∨ y.reverse.getD i 1 = 1) := by
    have hi' : i < dims.length := by simpa [hc, hlen] using hi
    have hz := (List.forall₂_iff_get.1 hdims).2 i (by simpa [hrank] using hi) hi'
    have hd : dims.get ⟨i, hi'⟩ = ((c.reverse.getD i 1 : Nat) : Int) := by
      subst hc
      rw [List.getD_eq_getElem _ _ (by simpa using hi')]
      simp
    rw [hd] at hz
    simp only [List.get_eq_getElem, List.getElem_range, List.map_cons, List.map_nil,
      fromRight_map] at hz
    obtain ⟨hx, hy⟩ := eq_or_one_of_broadcastDim (broadcastAxis_pair.1 hz)
    exact ⟨hx.imp_left Int.ofNat.inj, hy.imp_left Int.ofNat.inj⟩
  exact ⟨Grid.stretches_of_getD (by omega) fun i hi => (haxis i (by omega)).1,
    Grid.stretches_of_getD (by omega) fun i hi => (haxis i (by omega)).2⟩

/-- A product has operands with dimensions, which agree on the dimension summed over. -/
lemma product_eq_ok {a b s : Shape} {tA tB : Bool} (h : product a b tA tB = .ok s) :
    a ≠ [] ∧ b ≠ [] ∧ ∀ {stackA stackB : Shape} {m k k' n : Int},
      matrices? a tA .left = some (stackA, m, k) → matrices? b tB .right = some (stackB, k', n) →
      (k < 0 ∨ k' < 0 ∨ k = k') ∧ ∃ batch, broadcast [stackA, stackB] = .ok batch ∧
        s = batch ++ (if 1 < a.length then [m] else []) ++ if 1 < b.length then [n] else [] := by
  unfold product at h
  refine ⟨?_, ?_, fun hA hB => ?_⟩
  · rintro rfl
    cases h
  · rintro rfl
    split at h
    · next hnone => cases (Prod.mk.inj hnone).2
    · cases h
  · rw [hA, hB] at h
    obtain ⟨_, hinner, h⟩ := bind_eq_ok.1 h
    obtain ⟨batch, hbatch, h⟩ := bind_eq_ok.1 h
    exact ⟨Edit.ensure_eq_ok.1 hinner, batch, hbatch, (Except.ok.inj h).symm⟩

end Shape

namespace Grid

open Shape (Side)

variable {α : Type} {a b g : Grid α} {transpose transposeA transposeB : Bool} {side : Side}

/-! ### Axes of rows and of columns -/

/-- The dimension or coordinate that an operand gives the product besides those of the stack: the
row on the left, the column on the right, and none for a vector. -/
def ownAxis (g : Grid α) (n : Nat) : List Nat := if 1 < g.rank then [n] else []

section

variable {batch β : List Nat} {m n i j : Nat}
variable (hm : ¬1 < a.rank → m = 1) (hn : ¬1 < b.rank → n = 1)

include hm hn

lemma count_ownAxis : count (batch ++ a.ownAxis m ++ b.ownAxis n) = count (batch ++ [m, n]) := by
  unfold ownAxis
  split_ifs <;> simp_all [count_append]

lemma indexable_ownAxis :
    indexable (batch ++ a.ownAxis m ++ b.ownAxis n) = indexable (batch ++ [m, n]) := by
  unfold indexable ownAxis
  by_cases hzero : m = 0 <;> split_ifs <;> simp_all [count_append]

/-- Coordinates among the dimensions that are kept are coordinates among all, at the same place. -/
lemma inside_ownAxis
    (hin : Inside (batch ++ a.ownAxis m ++ b.ownAxis n) (β ++ a.ownAxis i ++ b.ownAxis j)) :
    let i' := if 1 < a.rank then i else 0
    let j' := if 1 < b.rank then j else 0
    Inside (batch ++ [m, n]) (β ++ [i', j']) ∧
      offset (batch ++ a.ownAxis m ++ b.ownAxis n) (β ++ a.ownAxis i ++ b.ownAxis j) =
        offset (batch ++ [m, n]) (β ++ [i', j']) := by
  have hlen : batch.length = β.length := by
    have := hin.length_eq
    unfold ownAxis at this
    split_ifs at this <;> simpa using this
  unfold ownAxis at hin ⊢
  split_ifs at hin ⊢ <;> simp_all [inside_append, offset_append, offset, Inside]

end

lemma map_ownAxis (g : Grid α) (n : Nat) :
    (g.ownAxis n).map Int.ofNat =
      if 1 < (g.shape.map Int.ofNat).length then [(n : Int)] else [] := by
  rw [List.length_map, ownAxis, rank]
  split_ifs <;> rfl

/-! ### Operands -/

lemma stack_eq {s : List Nat} {m n : Nat} (hg : g.shape = s ++ [m, n]) : g.stack = (s, m, n) := by
  simp [stack, rank, hg]

variable [Inhabited α]

/-- The entry in a row and a column of one of the matrices of an operand, by the coordinates of the
stack that it is stretched over. A vector has one row on the left and one column on the right. -/
def entry (g : Grid α) (transpose : Bool) (side : Side) (stack : List Nat) (i j : Nat) : α :=
  match g.rank, side with
  | 1, .left => g.read [j]
  | 1, .right => g.read [i]
  | r, _ => g.read (unstretch (g.shape.take (r - 2)) stack ++ if transpose then [j, i] else [i, j])

/-- The dimension of a left operand that a product sums over. -/
def innerDim (g : Grid α) (transpose : Bool) : Nat :=
  if transpose && 1 < g.rank then g.shape.getD (g.rank - 2) 0 else g.shape.getD (g.rank - 1) 0

/-- A grid as an operand of a product: a stack of matrices of `m` rows and `n` columns. -/
structure Stacked (g : Grid α) (transpose : Bool) (side : Side) (stack : List Nat) (m n : Nat) :
    Prop where
  shape : (g.matrices transpose side).shape = stack ++ [m, n]
  dims : Shape.matrices? (g.shape.map Int.ofNat) transpose side =
    some (stack.map Int.ofNat, (m : Int), (n : Int))
  read : ∀ β i j, Inside (stack ++ [m, n]) (unstretch stack β ++ [i, j]) →
    (g.matrices transpose side).read (unstretch stack β ++ [i, j]) = g.entry transpose side β i j
  row : side = .left → g.rank ≤ 1 → m = 1
  column : side = .right → g.rank ≤ 1 → n = 1
  inner : side = .left → n = g.innerDim transpose

lemma matrices_vector {n : Nat} (hg : g.shape = [n]) (transpose : Bool) (side : Side) :
    (g.matrices transpose side).cells = g.cells ∧
      (g.matrices transpose side).shape = if side = .left then [1, n] else [n, 1] := by
  unfold matrices
  split
  · next k hk =>
    cases hk.symm.trans hg
    cases side <;> exact ⟨rfl, rfl⟩
  · next hne => exact absurd hg (hne n)

lemma matrices_of_ne (hg : ∀ n, g.shape ≠ [n]) (transpose : Bool) (side : Side) :
    g.matrices transpose side = if transpose then g.transposeLast else g := by
  unfold matrices
  split
  · next n hn => exact absurd hn (hg n)
  · rfl

lemma stacked_vector {n : Nat} (hg : g.shape = [n]) :
    g.Stacked transpose .left [] 1 n ∧ g.Stacked transpose .right [] n 1 := by
  have hrank : g.rank = 1 := congrArg List.length hg
  have hmatrices := matrices_vector hg transpose
  constructor
  · refine ⟨(hmatrices .left).2, by simp [hg, Shape.matrices?], fun β i j hij => ?_, by simp,
      by simp, by simp [innerDim, hrank, hg]⟩
    obtain ⟨hi, -, -⟩ : i < 1 ∧ j < n ∧ True := hij
    obtain rfl : i = 0 := by omega
    show (g.matrices transpose .left).read [0, j] = _
    simp [entry, hrank, read, hmatrices, hg, offset]
  · refine ⟨(hmatrices .right).2, by simp [hg, Shape.matrices?], fun β i j hij => ?_, by simp,
      by simp, by simp⟩
    obtain ⟨-, hj, -⟩ : i < n ∧ j < 1 ∧ True := hij
    obtain rfl : j = 0 := by omega
    show (g.matrices transpose .right).read [i, 0] = _
    simp [entry, hrank, read, hmatrices, hg, offset]

lemma stacked_matrices {s : List Nat} {m n : Nat} (hg : g.shape = s ++ [m, n]) :
    g.Stacked transpose side s (if transpose then n else m) (if transpose then m else n) := by
  have hrank : g.rank = s.length + 2 := by simp [rank, hg]
  have hmatrices := matrices_of_ne (g := g) (fun k hk => by
    have := congrArg List.length (hk.symm.trans hg)
    simp at this) transpose side
  have htake : g.shape.take (g.rank - 2) = s := by simp [hrank, hg]
  refine ⟨?_, ?_, fun β i j hij => ?_, by omega, by omega, fun _ => ?_⟩
  · rw [hmatrices]
    cases transpose <;> simp [hg, transposeLast]
  · cases transpose <;> simp [hg, Shape.matrices?]
  · have hentry : g.entry transpose side β i j =
        g.read (unstretch s β ++ if transpose then [j, i] else [i, j]) := by
      unfold entry
      split
      · omega
      · omega
      · rw [htake]
    rw [hmatrices, hentry]
    cases transpose
    · rfl
    · exact read_transposeLast hg hij
  · unfold innerDim
    cases transpose <;> simp [hrank, hg]

lemma exists_stacked (hg : g.shape ≠ []) (transpose : Bool) (side : Side) :
    ∃ stack m n, g.Stacked transpose side stack m n := by
  rcases hrev : g.shape.reverse with _ | ⟨n, _ | ⟨m, rest⟩⟩
  · exact absurd (List.reverse_eq_nil_iff.1 hrev) hg
  · have hn : g.shape = [n] := by simpa using congrArg List.reverse hrev
    cases side
    · exact ⟨_, _, _, (stacked_vector hn).1⟩
    · exact ⟨_, _, _, (stacked_vector hn).2⟩
  · have hmn : g.shape = rest.reverse ++ [m, n] := by simpa using congrArg List.reverse hrev
    exact ⟨_, _, _, stacked_matrices hmn⟩

/-! ### Stretched operands -/

section

variable {stack batch : List Nat} {m n : Nat}

/-- A grid that holds the entries of an operand over a whole stack. -/
def Spreads (g : Grid α) (transpose : Bool) (side : Side) (batch : List Nat) (m n : Nat)
    (h : Grid α) : Prop :=
  ∀ β i j, Inside (batch ++ [m, n]) (β ++ [i, j]) →
    h.read (β ++ [i, j]) = g.entry transpose side β i j

/-- The matrices of an operand, stretched over a stack that its own stretches to. -/
lemma Stacked.exists_stretchFrom (hg : g.Stacked transpose side stack m n)
    (hs : stretches stack batch = true) (hi : indexable (batch ++ [m, n]) = true)
    (shape : List Nat) :
    ∃ h, (g.matrices transpose side).stretchFrom shape (batch ++ [m, n]) = .ok h ∧
      g.Spreads transpose side batch m n h := by
  have hstretches := stretches_append hs [m, n]
  rw [← hg.shape] at hstretches
  obtain ⟨h, hh, -, hread⟩ := exists_stretch hi hstretches
  refine ⟨h, by rw [stretchFrom, hh], fun β i j hij => ?_⟩
  have hinside := inside_unstretch hstretches hij
  have hlen : batch.length = β.length := by simpa using hij.length_eq
  have hle : stack.length ≤ β.length := by
    obtain ⟨lead, rest, rfl, hrest⟩ := stretches_iff.1 hs
    rw [← hlen, List.length_append, hrest.length_eq]
    exact Nat.le_add_left ..
  have hcoords : unstretch (stack ++ [m, n]) (β ++ [i, j]) = unstretch stack β ++ [i, j] := by
    have hmatrix : Inside [m, n] [i, j] := ((inside_append hlen).1 hij).2
    rw [unstretch_append hle hmatrix.length_eq, unstretch_of_inside hmatrix]
  rw [hg.shape, hcoords] at hinside
  rw [hread _ hij, hg.shape, hcoords, hg.read β i j hinside]

/-- A vector has one row on the left, which is not looked at, -/
lemma entry_row (hg : g.shape ≠ []) (β : List Nat) (i k : Nat) :
    g.entry transpose .left β (if 1 < g.rank then i else 0) k =
      g.entry transpose .left β i k := by
  have hrank : g.rank ≠ 0 := mt List.length_eq_zero_iff.1 hg
  split_ifs with h
  · rfl
  · simp [entry, show g.rank = 1 by omega]

/-- and one column on the right. -/
lemma entry_column (hg : g.shape ≠ []) (β : List Nat) (k j : Nat) :
    g.entry transpose .right β k (if 1 < g.rank then j else 0) =
      g.entry transpose .right β k j := by
  have hrank : g.rank ≠ 0 := mt List.length_eq_zero_iff.1 hg
  split_ifs with h
  · rfl
  · simp [entry, show g.rank = 1 by omega]

end

/-! ### Elements -/

/-- The counts of elements fit, of both operands stretched over the stack of the product and of the
product, as arrays count them: dimensions of zero left out. -/
def ProductFits (a b : Grid α) (transposeA transposeB : Bool) : Prop :=
  let (stackA, rows, inner) := (a.matrices transposeA .left).stack
  let (stackB, inner', columns) := (b.matrices transposeB .right).stack
  ∀ batch : List Nat,
    Shape.broadcast [stackA.map Int.ofNat, stackB.map Int.ofNat] = .ok (batch.map Int.ofNat) →
    indexable (batch ++ [rows, inner]) = true ∧ indexable (batch ++ [inner', columns]) = true ∧
      indexable (batch ++ [rows, columns]) = true

/-- An element of a product of stretched operands, from the entries of its row and its column. -/
lemma productAt_eq (acc : Accumulation α) {batch β : List Nat} {m k n i j : Nat}
    {left right : Grid α}
    (hleft : a.Spreads transposeA .left batch m k left)
    (hright : b.Spreads transposeB .right batch k n right)
    (hin : Inside (batch ++ [m, n]) (β ++ [i, j])) :
    productAt acc left right k (β ++ [i, j]) = (List.range k).foldl (fun x l =>
      acc.addProduct x (a.entry transposeA .left β i l) (b.entry transposeB .right β l j))
      acc.zero := by
  have hlen : batch.length = β.length := by simpa using hin.length_eq
  obtain ⟨hβ, hi, hj, -⟩ := (inside_append hlen).1 hin
  have hcoords (l : Nat) : (β ++ [i, j]).set (β.length + 1) l = β ++ [i, l] ∧
      (β ++ [i, j]).set β.length l = β ++ [l, j] := by
    simp
  unfold productAt
  simp only [List.length_append, List.length_cons, List.length_nil, Nat.zero_add,
    Nat.add_sub_cancel, Nat.reduceAdd, Nat.add_succ_sub_one, hcoords]
  refine List.foldl_ext _ _ _ fun x l hl => ?_
  have hl := List.mem_range.1 hl
  rw [hleft β i l ((inside_append hlen).2 ⟨hβ, hi, hl, trivial⟩),
    hright β l j ((inside_append hlen).2 ⟨hβ, hl, hj, trivial⟩)]

lemma toSizes_map {s : List Nat} (hs : ∀ d ∈ s, d < 0x8000000000000000) :
    Shape.toSizes (s.map Int.ofNat) = s := by
  unfold Shape.toSizes
  rw [List.map_map]
  refine (List.map_congr_left fun d hd => ?_).trans (List.map_id _)
  have := hs d hd
  show ((d : Int) % 0x10000000000000000).toNat = d
  omega

/-- **Products**: as far as the counts of elements fit, grids of which the shapes have a product
have one. It has that shape, and its elements are accumulated from the entries of a row and of a
column. -/
theorem exists_product (acc : Accumulation α) (hfits : a.ProductFits b transposeA transposeB)
    {s : Shape} (hs : Shape.product (a.shape.map Int.ofNat) (b.shape.map Int.ofNat) transposeA
      transposeB = .ok s) :
    ∃ c : Grid α, product acc a b transposeA transposeB = .ok c ∧ c.shape.map Int.ofNat = s ∧
      ∀ β i j, Inside c.shape (β ++ a.ownAxis i ++ b.ownAxis j) →
        c.read (β ++ a.ownAxis i ++ b.ownAxis j) =
          (List.range (a.innerDim transposeA)).foldl (fun x k => acc.addProduct x
            (a.entry transposeA .left β i k) (b.entry transposeB .right β k j)) acc.zero := by
  obtain ⟨hneA, hneB, hdims⟩ := Shape.product_eq_ok hs
  replace hneA : a.shape ≠ [] := fun h => hneA (List.map_eq_nil_iff.2 h)
  replace hneB : b.shape ≠ [] := fun h => hneB (List.map_eq_nil_iff.2 h)
  obtain ⟨stackA, m, k, hA⟩ := exists_stacked hneA transposeA .left
  obtain ⟨stackB, k', n, hB⟩ := exists_stacked hneB transposeB .right
  obtain ⟨hinner, _, hbatch, hshape⟩ := hdims hA.dims hB.dims
  obtain ⟨batch, rfl⟩ := Shape.exists_broadcast_nat hbatch
  obtain rfl : k = k' := by omega
  -- both operands stretch over the stack that theirs broadcast to
  simp only [ProductFits, stack_eq hA.shape, stack_eq hB.shape] at hfits
  obtain ⟨hiA, hiB, hi⟩ := hfits batch hbatch
  obtain ⟨hsA, hsB⟩ := Shape.stretches_of_broadcast hbatch
  obtain ⟨left, hleft, hspreadA⟩ := hA.exists_stretchFrom hsA hiA a.shape
  obtain ⟨right, hright, hspreadB⟩ := hB.exists_stretchFrom hsB hiB b.shape
  -- the product leaves out the dimensions that vectors have not
  have hm : ¬1 < a.rank → m = 1 := fun h => hA.row rfl (Nat.le_of_not_lt h)
  have hn : ¬1 < b.rank → n = 1 := fun h => hB.column rfl (Nat.le_of_not_lt h)
  have hkept : indexable (batch ++ a.ownAxis m ++ b.ownAxis n) = true :=
    (indexable_ownAxis hm hn).trans hi
  obtain ⟨c, hc, hcshape, hread⟩ :=
    exists_reshape (g := ofFn (batch ++ [m, n]) hi (productAt acc left right k))
      (count_ownAxis hm hn) hkept
  have hs' : s = (batch ++ a.ownAxis m ++ b.ownAxis n).map Int.ofNat := by
    rw [hshape, List.map_append, List.map_append, map_ownAxis, map_ownAxis]
  refine ⟨c, ?_, by rw [hcshape, hs'], fun β i j hin => ?_⟩
  · unfold product
    rw [hs, ok_bind]
    simp only [stack_eq hA.shape, stack_eq hB.shape]
    rw [hbatch, ok_bind, toSizes_map fun d hd => lt_of_indexable hi (List.mem_append_left _ hd),
      hleft, ok_bind, hright, ok_bind, dif_pos hi, hs',
      toSizes_map fun d hd => lt_of_indexable hkept hd]
    exact hc
  · rw [hcshape] at hin
    obtain ⟨hinside, hoffset⟩ := inside_ownAxis hm hn hin
    rw [hread _ _ hoffset, read_ofFn hinside, productAt_eq acc hspreadA hspreadB hinside,
      ← hA.inner rfl]
    simp only [entry_row hneA, entry_column hneB]

lemma indexable_of_stretchFrom {h : Grid α} {shape target : List Nat}
    (hg : g.stretchFrom shape target = .ok h) : indexable target = true := by
  unfold stretchFrom at hg
  split at hg
  · next k hk => exact shape_of_stretch? hk ▸ k.fits
  · cases hg

/-- The counts of elements of a product fit. -/
lemma productFits_of_product {acc : Accumulation α} {c : Grid α}
    (hc : product acc a b transposeA transposeB = .ok c) :
    a.ProductFits b transposeA transposeB := by
  obtain ⟨s, hs, hc⟩ := bind_eq_ok.1 hc
  obtain ⟨hneA, hneB, hdims⟩ := Shape.product_eq_ok hs
  obtain ⟨stackA, m, k, hA⟩ := exists_stacked (mt List.map_eq_nil_iff.2 hneA) transposeA .left
  obtain ⟨stackB, k', n, hB⟩ := exists_stacked (mt List.map_eq_nil_iff.2 hneB) transposeB .right
  obtain ⟨hinner, -⟩ := hdims hA.dims hB.dims
  obtain rfl : k = k' := by omega
  simp only [stack_eq hA.shape, stack_eq hB.shape] at hc
  simp only [ProductFits, stack_eq hA.shape, stack_eq hB.shape]
  intro batch hbatch
  -- each dimension of the stack is one of an operand
  have hsizes : Shape.toSizes (batch.map Int.ofNat) = batch := by
    have hlt : ∀ d ∈ batch.map Int.ofNat, d < 0x8000000000000000 := by
      refine Shape.broadcast_of (P := (· < 0x8000000000000000)) (by decide) ?_ hbatch
      have hstack {l : List Nat} {g : Grid α} {p q : Nat} (hg : g.shape = l ++ [p, q]) :
          ∀ d ∈ l.map Int.ofNat, d < 0x8000000000000000 := by
        intro d hd
        obtain ⟨e, he, rfl⟩ := List.mem_map.1 hd
        exact Int.ofNat_lt.2 (lt_of_indexable g.fits (hg ▸ List.mem_append_left _ he))
      simp only [List.mem_cons, List.not_mem_nil, or_false, forall_eq_or_imp, forall_eq]
      exact ⟨hstack hA.shape, hstack hB.shape⟩
    exact toSizes_map fun d hd => Int.ofNat_lt.1 (hlt _ (List.mem_map_of_mem hd))
  rw [hbatch, ok_bind, hsizes] at hc
  obtain ⟨left, hleft, hc⟩ := bind_eq_ok.1 hc
  obtain ⟨right, hright, hc⟩ := bind_eq_ok.1 hc
  split at hc
  · next hi => exact ⟨indexable_of_stretchFrom hleft, indexable_of_stretchFrom hright, hi⟩
  · cases hc

/-- Sums of products of 64-bit integers are those of integers, modulo `2 ^ 64`. -/
lemma foldl_integers (f g : Nat → Int64) (n : Nat) :
    (List.range n).foldl (fun x k => Accumulation.integers.addProduct x (f k) (g k))
        Accumulation.integers.zero =
      Int64.ofInt (∑ k ∈ Finset.range n, (f k).toInt * (g k).toInt) := by
  induction n with
  | zero => rfl
  | succ n ih =>
    rw [List.range_succ, List.foldl_append, ih, Finset.sum_range_succ, Int64.ofInt_add,
      Int64.ofInt_mul, Int64.ofInt_toInt, Int64.ofInt_toInt]
    rfl

end Grid

/-- **Matrix products**: two constants of integers have a product exactly when their shapes have and
the counts of elements fit. It has the shape of that product, and its element at coordinates of the
stack, a row unless the left operand is a vector, and a column unless the right one is, is the sum
of the products of the entries of the row and of the column, modulo `2 ^ 64`. -/
theorem Tensor.product_integers {a b : Grid Int64} {transposeA transposeB : Bool} :
    ((∃ t, (i64 a).product (i64 b) transposeA transposeB = .ok t) ↔
      (∃ s, Shape.product (i64 a).dims (i64 b).dims transposeA transposeB = .ok s) ∧
        a.ProductFits b transposeA transposeB) ∧
    ∀ s, Shape.product (i64 a).dims (i64 b).dims transposeA transposeB = .ok s →
      a.ProductFits b transposeA transposeB →
      ∃ c, (i64 a).product (i64 b) transposeA transposeB = .ok (i64 c) ∧ (i64 c).dims = s ∧
        ∀ β i j, Grid.Inside c.shape (β ++ a.ownAxis i ++ b.ownAxis j) →
          c.read (β ++ a.ownAxis i ++ b.ownAxis j) =
            Int64.ofInt (∑ k ∈ Finset.range (a.innerDim transposeA),
              (a.entry transposeA .left β i k).toInt *
                (b.entry transposeB .right β k j).toInt) := by
  have hproduct (s : Shape)
      (hs : Shape.product (i64 a).dims (i64 b).dims transposeA transposeB = .ok s)
      (hfits : a.ProductFits b transposeA transposeB) :=
    Grid.exists_product .integers hfits hs
  refine ⟨⟨fun ⟨t, ht⟩ => ?_, fun ⟨⟨s, hs⟩, hfits⟩ => ?_⟩, fun s hs hfits => ?_⟩
  · obtain ⟨s, hs, -⟩ := Tensor.shape_product ht
    obtain ⟨c, hc, -⟩ := bind_eq_ok.1 ht
    exact ⟨⟨s, hs⟩, Grid.productFits_of_product hc⟩
  · obtain ⟨c, hc, -⟩ := hproduct s hs hfits
    exact ⟨i64 c, bind_eq_ok.2 ⟨c, hc, rfl⟩⟩
  · obtain ⟨c, hc, hshape, hread⟩ := hproduct s hs hfits
    refine ⟨c, bind_eq_ok.2 ⟨c, hc, rfl⟩, hshape, fun β i j hin => ?_⟩
    rw [hread β i j hin]
    exact Grid.foldl_integers ..

/-- A stack of two rows, and columns given as rows. The last sum does not fit. -/
theorem Tensor.product_integers_stacked :
    let a : Grid Int64 := ⟨[2, 1, 2], #[1, 2, 3, 4611686018427387904], .rows, rfl, rfl, rfl⟩
    let b : Grid Int64 := ⟨[3, 2], #[1, 0, 0, 1, 1, 2], .rows, rfl, rfl, rfl⟩
    a.ProductFits b false true ∧ ∃ c, (i64 a).product (i64 b) false true = .ok (i64 c) ∧
      c.shape = [2, 1, 3] ∧ c.read [1, 0, 2] = -9223372036854775805 := by
  intro a b
  have hfits : a.ProductFits b false true := by
    intro batch hbatch
    have hdims : Shape.broadcast [[2], []] = .ok ([2].map Int.ofNat) := by decide
    obtain rfl : [2] = batch :=
      List.map_injective_iff.2 (fun _ _ => Int.ofNat.inj) (Except.ok.inj (hdims.symm.trans hbatch))
    decide
  have hshape : Shape.product (i64 a).dims (i64 b).dims false true = .ok [2, 1, 3] := by decide
  obtain ⟨c, hc, hs, hread⟩ := Tensor.product_integers.2 _ hshape hfits
  have hc' : c.shape = [2, 1, 3] := List.map_injective_iff.2 (fun _ _ => Int.ofNat.inj) hs
  refine ⟨hfits, c, hc, hc', ?_⟩
  have hinside : Grid.Inside [2, 1, 3] [1, 0, 2] := ⟨by decide, by decide, by decide, trivial⟩
  rw [← hc'] at hinside
  exact (hread [1] 0 2 hinside).trans (by decide +kernel)

end TensorGraph
