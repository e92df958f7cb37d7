import Mathlib.Data.List.Forall2
import TensorGraph.Inference.Rules.Elementwise
import TensorGraph.Proofs.Grids
import TensorGraph.Proofs.Structure
import TensorGraph.Shape.Reshape
import TensorGraph.Shape.Unsqueeze
import TensorGraph.Tensor.Gather
import TensorGraph.Tensor.Product
import TensorGraph.Tensor.SparseIndices

/-!
The shapes of folded constants: a value has the shape that was said before it.
-/

namespace TensorGraph

variable {α : Type}

/-! ### Counts -/

namespace Shape

/-- The dimensions fit the sizes that arrays are asked for. -/
def Bounded (s : Shape) : Prop := ∀ d ∈ s, d < 0x10000000000000000

lemma fits_iff {x : Int} : fits x ↔ -0x8000000000000000 ≤ x ∧ x < 0x8000000000000000 := by
  unfold fits
  rw [Bool.and_eq_true, decide_eq_true_eq, decide_eq_true_eq]

lemma hasUnknown_eq_false {s : Shape} (hknown : ∀ d ∈ s, 0 ≤ d) : hasUnknown s = false := by
  unfold hasUnknown
  rw [List.any_eq_false]
  intro d hd
  simpa using hknown d hd

/-- Sizes that an array can have are the dimensions they were made of. -/
lemma ofNat_toSizes {s : Shape} (hs : ∀ d ∈ s, -1 ≤ d) (hb : Bounded s)
    (hi : Grid.indexable (toSizes s) = true) : (toSizes s).map Int.ofNat = s := by
  unfold toSizes at hi ⊢
  rw [List.map_map]
  refine (List.map_congr_left fun d hd => ?_).trans (List.map_id _)
  have h₁ := hs d hd
  have h₂ := hb d hd
  have h₃ := Grid.lt_of_indexable hi (List.mem_map_of_mem (f := fun d => _) hd)
  show ((d % 0x10000000000000000).toNat : Int) = d
  omega

end Shape

namespace Tensor

lemma fits (t : Tensor) : Grid.indexable t.shape = true := by
  cases t with
  | bool g => exact g.fits
  | i64 g => exact g.fits
  | f32 g => exact g.fits

lemma bounded_dims (t : Tensor) : Shape.Bounded t.dims := by
  intro d hd
  obtain ⟨n, hn, rfl⟩ := List.mem_map.1 hd
  have := Grid.lt_of_indexable t.fits hn
  show (n : Int) < _
  omega

lemma length_toInts (t : Tensor) : t.toInts.length = Grid.count t.shape := by
  have hgrid : ∀ {β : Type} (g : Grid β), g.toList.length = Grid.count g.shape := fun g => by
    rw [Grid.toList, Array.length_toList, g.size_cells]
  unfold toInts
  rw [List.length_map, hgrid]
  cases t <;> rfl

/-- What a vector of integers holds, if memory can count as many. -/
lemma toInts_vector {xs : List Int} (hlen : xs.length < 0x8000000000000000) :
    (ofInts xs).toInts = (xs.map Int64.ofInt).map Int64.toInt := by
  have hfits : Grid.indexable [(xs.map Int64.ofInt).length] = true := by
    rw [List.length_map]
    exact Grid.indexable_singleton hlen
  rw [ofInts, Grid.vector, dif_pos hfits]
  rfl

lemma map_toInt_ofInt {xs : List Int} (hxs : ∀ x ∈ xs, Shape.fits x) :
    (xs.map Int64.ofInt).map Int64.toInt = xs := by
  rw [List.map_map]
  refine (List.map_congr_left fun x hx => ?_).trans (List.map_id xs)
  obtain ⟨hle, hlt⟩ := Shape.fits_iff.1 (hxs x hx)
  exact Int64.toInt_ofInt_of_le hle hlt

lemma toInts_ofInts {xs : List Int} (hlen : xs.length < 0x8000000000000000)
    (hxs : ∀ x ∈ xs, Shape.fits x) : (ofInts xs).toInts = xs :=
  (toInts_vector hlen).trans (map_toInt_ofInt hxs)

lemma toInts_bounded (t : Tensor) : Shape.Bounded t.toInts := by
  intro d hd
  obtain ⟨i, -, rfl⟩ := List.mem_map.1 hd
  have := i.toInt_lt
  omega

lemma dims_nonneg (t : Tensor) : ∀ d ∈ t.dims, 0 ≤ d := by
  intro d hd
  obtain ⟨n, -, rfl⟩ := List.mem_map.1 hd
  exact Int.natCast_nonneg n

lemma dims_ofInts {xs : List Int} (hlen : xs.length < 0x8000000000000000) :
    (ofInts xs).dims = [(xs.length : Int)] := by
  have hfits : Grid.indexable [(xs.map Int64.ofInt).length] = true := by
    rw [List.length_map]
    exact Grid.indexable_singleton hlen
  rw [ofInts, Grid.vector, dif_pos hfits]
  show ([((xs.map Int64.ofInt).length)] : List Nat).map Int.ofNat = _
  rw [List.length_map]
  rfl

/-- The integers of a tensor are no more than memory can count. -/
lemma length_toInts_lt (t : Tensor) : t.toInts.length < 0x8000000000000000 :=
  t.length_toInts ▸ Grid.count_lt_of_indexable t.fits

/-! ### Shapes of results -/

@[simp] lemma shape_cast (t : Tensor) (type : ElementType) : (t.cast type).shape = t.shape := by
  cases type <;> cases t <;> rfl

@[simp] lemma shape_toI64 (t : Tensor) : t.toI64.shape = t.shape := by
  cases t <;> rfl

@[simp] lemma shape_toF32 (t : Tensor) : t.toF32.shape = t.shape := by
  cases t <;> rfl

lemma shape_foldUnary {f : Elementwise.Unary} {t v : Tensor} (h : t.foldUnary f = some v) :
    v.shape = t.shape := by
  cases t with
  | f32 g =>
    cases h
    rfl
  | bool g => cases h
  | i64 g => cases h

end Tensor

namespace Grid

lemma shape_reshape {g h : Grid α} {shape : List Nat} (hr : g.reshape shape = .ok h) :
    h.shape = shape := by
  unfold reshape at hr
  split at hr
  · cases hr
  · split at hr
    · cases hr
      rfl
    · cases hr

lemma shape_ofCells {shape : List Nat} {cells : List α} {h : Grid α}
    (hr : ofCells shape cells = .ok h) : h.shape = shape := by
  unfold ofCells at hr
  split at hr
  · split at hr
    · cases hr
      rfl
    · split at hr <;> cases hr
  · cases hr

lemma shape_zipStretched [Inhabited α] {f : α → α → α} {a b h : Grid α} {target : List Nat}
    (hr : zipStretched f a b target = .ok h) : h.shape = target := by
  unfold zipStretched at hr
  obtain ⟨x, hx, hr⟩ := bind_eq_ok.1 hr
  obtain ⟨y, -, hr⟩ := bind_eq_ok.1 hr
  cases hr
  show x.shape = target
  exact shape_of_stretch hx

lemma shape_gather [Inhabited α] {data h : Grid α} {indices : Grid Int64} {axis : Nat}
    (hr : data.gather indices axis = .ok h) : h.shape = indices.shape := by
  unfold gather at hr
  simp only at hr
  split at hr
  · cases hr
  · cases hr
    rfl

end Grid

namespace Tensor

lemma shape_reshape {t v : Tensor} {shape : List Nat} (h : t.reshape shape = .ok v) :
    v.shape = shape := by
  cases t with
  | bool g =>
    obtain ⟨g', hg, rfl⟩ := map_eq_ok.1 h
    exact Grid.shape_reshape hg
  | i64 g =>
    obtain ⟨g', hg, rfl⟩ := map_eq_ok.1 h
    exact Grid.shape_reshape hg
  | f32 g =>
    obtain ⟨g', hg, rfl⟩ := map_eq_ok.1 h
    exact Grid.shape_reshape hg

lemma shape_foldBinary {f : Elementwise.Binary} {a b v : Tensor} {target : Shape}
    (h : a.foldBinary f b target = .ok (some v)) : v.shape = target.toSizes := by
  have hf32 : (if a.elementType.isNumber && b.elementType.isNumber then do
      return some (f32 (← a.toF32.zipStretched f.onFloats b.toF32 target.toSizes))
      else return none : Except Error (Option Tensor)) = .ok (some v) →
      v.shape = target.toSizes := by
    intro h
    split at h
    · obtain ⟨g, hg, h⟩ := bind_eq_ok.1 h
      cases h
      exact Grid.shape_zipStretched hg
    · cases h
  unfold foldBinary at h
  split at h
  · obtain ⟨g, hg, h⟩ := bind_eq_ok.1 h
    cases h
    exact Grid.shape_zipStretched hg
  · exact hf32 h

lemma shape_gather {data indices v : Tensor} {axis : Nat}
    (h : data.gather indices axis = .ok v) : v.shape = indices.shape := by
  unfold gather at h
  obtain ⟨_, -, h⟩ := bind_eq_ok.1 h
  rw [← shape_toI64 indices]
  cases data with
  | bool g =>
    obtain ⟨g', hg, h⟩ := bind_eq_ok.1 h
    cases h
    exact Grid.shape_gather hg
  | i64 g =>
    obtain ⟨g', hg, h⟩ := bind_eq_ok.1 h
    cases h
    exact Grid.shape_gather hg
  | f32 g =>
    obtain ⟨g', hg, h⟩ := bind_eq_ok.1 h
    cases h
    exact Grid.shape_gather hg

end Tensor

lemma Grid.shape_product [Inhabited α] {s : Accumulation α} {a b h : Grid α} {tA tB : Bool}
    (hr : Grid.product s a b tA tB = .ok h) : ∃ shape,
      Shape.product (a.shape.map Int.ofNat) (b.shape.map Int.ofNat) tA tB = .ok shape ∧
        h.shape = shape.toSizes := by
  unfold Grid.product at hr
  obtain ⟨shape, hshape, hr⟩ := bind_eq_ok.1 hr
  obtain ⟨batch, -, hr⟩ := bind_eq_ok.1 hr
  obtain ⟨left, -, hr⟩ := bind_eq_ok.1 hr
  obtain ⟨right, -, hr⟩ := bind_eq_ok.1 hr
  split at hr
  · exact ⟨shape, hshape, Grid.shape_reshape hr⟩
  · cases hr

lemma Tensor.shape_product {a b v : Tensor} {tA tB : Bool} (h : a.product b tA tB = .ok v) :
    ∃ shape, Shape.product a.dims b.dims tA tB = .ok shape ∧ v.shape = shape.toSizes := by
  unfold Tensor.product at h
  split at h
  · obtain ⟨g, hg, h⟩ := bind_eq_ok.1 h
    cases h
    obtain ⟨shape, hshape, hs⟩ := Grid.shape_product hg
    rw [shape_toF32, shape_toF32] at hshape
    exact ⟨shape, hshape, hs⟩
  · split at h
    · cases h
    · obtain ⟨g, hg, h⟩ := bind_eq_ok.1 h
      cases h
      obtain ⟨shape, hshape, hs⟩ := Grid.shape_product hg
      rw [shape_toI64, shape_toI64] at hshape
      exact ⟨shape, hshape, hs⟩

lemma SparseIndices.shape_reshape {indices v : Tensor} {input output : Shape}
    (h : SparseIndices.reshape indices input output = .ok v) :
    v.shape = [indices.shape.headD 0, output.length] := by
  unfold SparseIndices.reshape at h
  obtain ⟨moved, -, h⟩ := bind_eq_ok.1 h
  obtain ⟨g, hg, h⟩ := bind_eq_ok.1 h
  cases h
  have hrows : (SparseIndices.rows indices.toI64).length = indices.shape.headD 0 := by
    unfold SparseIndices.rows
    rw [List.length_map, List.length_range, Tensor.shape_toI64]
  show g.shape = _
  rw [Grid.shape_ofCells hg, hrows]

end TensorGraph
