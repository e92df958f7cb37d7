import Mathlib.Algebra.BigOperators.Group.List.Basic
import TensorGraph.Proofs.Broadcasts
import TensorGraph.Proofs.Pinning
import TensorGraph.Proofs.Volumes

/-!
Pinned patterns work for every batch size.

A pattern that names the inner dimension of a product reshapes whatever has a multiple of it in
elements (`reshape_pinned`), and the inner dimension stands where the product looks for it
(`exists_productAt_pinned`). The elements have to be counted for that. In a shape without a zero the
products on the way are no larger than their number (`fits_take`); with a zero one on the way may
not fit although there are no elements at all (`reshape_contestedProduct_overflows`).
-/

namespace TensorGraph

open Edit

namespace Shape

variable {input : Shape} {inner : Int}

/-! ### Reshaping -/

lemma volume_singleton (hfits : fits inner) : volume [inner] = .ok inner := by
  refine volume_eq_ok.2 ⟨fun n => ?_, List.prod_singleton.symm⟩
  rcases n with _ | n
  · exact rfl
  · simpa using hfits

/-- What has a multiple of the inner dimension in elements is reshaped to the inner dimension, at
the place of the pattern where it stands, and as many of it as there are. -/
lemma reshape_pinned (o : Operand) (transposeA transposeB copyZero : Bool) (hpos : 0 < inner)
    (hinner : fits inner) (hknown : ∀ d ∈ input, 0 ≤ d)
    (htake : ∀ n, fits (input.take n).prod) (hdvd : inner ∣ input.prod) :
    reshape input (o.pinned inner transposeA transposeB) copyZero =
      .ok ((o.pinned inner transposeA transposeB).map fun d =>
        if d = -1 then input.prod / inner else d) := by
  have hne : inner ≠ 0 := by omega
  have hwild : inner ≠ -1 := by omega
  have hmod : input.prod % inner = 0 := Int.emod_eq_zero_of_dvd hdvd
  have hle : 0 ≤ inner := le_of_lt hpos
  have hrest (pattern : Shape) (i : Nat)
      (hread : readPattern input pattern copyZero false 0 pattern = .ok pattern)
      (hwildcard : wildcard? pattern = some i) (herase : pattern.eraseIdx i = [inner]) :
      reshape input pattern copyZero = .ok (pattern.set i (input.prod / inner)) := by
    unfold reshape
    rw [hread, ok_bind, if_neg (by simp [hasUnknown_eq_false hknown]),
      volume_eq_ok.2 ⟨htake, rfl⟩, ok_bind, hwildcard]
    simp only [herase, volume_singleton hinner, ok_bind, ensure, if_pos (And.intro hne hmod)]
    rfl
  obtain h | h : o.pinned inner transposeA transposeB = [inner, -1] ∨
      o.pinned inner transposeA transposeB = [-1, inner] := ite_eq_or_eq ..
  all_goals rw [h]
  · rw [hrest _ 1 (by simp [readPattern, ensure, hne, hwild, hle])
      (by simp [wildcard?, List.findIdx?_cons, hwild]) rfl]
    simp [hwild]
  · rw [hrest _ 0 (by simp [readPattern, ensure, hne, hwild, hle])
      (by simp [wildcard?, List.findIdx?_cons])
      rfl]
    simp [hwild]

/-! ### Products -/

lemma broadcast_nil (s : Shape) : broadcast [[], s] = .ok s ∧ broadcast [s, []] = .ok s := by
  have hs : Stretched [[], s] s := by
    refine ⟨by simp, .inr ⟨s, by simp, rfl⟩, fun i d hd => ?_⟩
    have hone : onAxis [[], s] i = [d] := by simp [onAxis, hd]
    rw [hone]
    exact stretchTo_singleton.2 rfl
  exact ⟨broadcast_eq_ok.2 hs, broadcast_eq_ok.2 (hs.perm (.swap ..))⟩

def productAt (o : Operand) (own facing : Shape) (transposeA transposeB : Bool) :
    Except Error Shape :=
  match o with
  | .left => product own facing transposeA transposeB
  | .right => product facing own transposeA transposeB

/-- An operand with the inner dimension at the place that the pattern gives it has a product with
what it faces. -/
lemma exists_productAt_pinned {o : Operand} {facing : Shape} {transposeA transposeB : Bool}
    (hinner : o.innerDim? facing transposeA transposeB = some inner) (free : Int)
    (hne : inner ≠ -1) :
    ∃ c, productAt o ((o.pinned inner transposeA transposeB).map fun d =>
      if d = -1 then free else d) facing transposeA transposeB = .ok c := by
  unfold Operand.innerDim? at hinner
  rcases hrev : facing.reverse with _ | ⟨n, _ | ⟨m, batch⟩⟩
  · rw [hrev] at hinner
    cases hinner
  · rw [hrev] at hinner
    cases hinner
  rw [hrev] at hinner
  obtain ⟨hc, hc'⟩ := broadcast_nil batch.reverse
  -- in each of the layouts both operands have the inner dimension in the same place
  cases o <;> cases transposeA <;> cases transposeB <;>
    simp_all [productAt, product, matrices?, Operand.pinned, ensure]

end Shape

deriving instance DecidableEq for Graph.ReshapeSite

/-- The pass rewrites the pattern of a reshape that feeds an operand of a product. -/
structure Graph.Rewrites (g : Graph) (matmul : NodeId) (o : Operand) (s : Graph.ReshapeSite)
    (new : Shape) : Prop where
  site : g.reshapeSite matmul o = .ok (some s)
  replacement : g.replacement matmul o s = .ok (some new)

/-- **Every batch size**: where the pass rewrites a pattern and the inner dimension is positive, the
new pattern reshapes every known input with a multiple of it in elements to two dimensions, which
have a product with the other operand. The number of elements has to fit, and the products on the
way too if a dimension is zero. -/
theorem exists_product_of_rewrites {g : Graph} {matmul : NodeId} {o : Operand}
    {s : Graph.ReshapeSite} {new facing : Shape} {transposeA transposeB : Bool} {inner : Int}
    (hnew : g.Rewrites matmul o s new)
    (hA : g.flag matmul "transpose_a" false = .ok transposeA)
    (hB : g.flag matmul "transpose_b" false = .ok transposeB)
    (hfacing : g.knownShape matmul o.other.port = .ok (some facing))
    (hinner : o.innerDim? facing transposeA transposeB = some inner) (hpos : 0 < inner)
    (hfits : Shape.fits inner) {input : Shape} (hknown : ∀ d ∈ input, 0 ≤ d)
    (hcount : Shape.fits input.prod) (hzero : 0 ∈ input → ∀ n, Shape.fits (input.take n).prod)
    (hdvd : inner ∣ input.prod) (copyZero : Bool) :
    ∃ shape c, Shape.reshape input new copyZero = .ok shape ∧ shape.length = 2 ∧
      Shape.productAt o shape facing transposeA transposeB = .ok c := by
  obtain ⟨pattern, -, -, hpattern, rfl, -⟩ := Graph.replacement_eq_some.1 hnew.replacement
  obtain ⟨tA, tB, facing', inner', hA', hB', -, hfacing', hinner', -, rfl⟩ :=
    Graph.newPattern_eq_some.1 hpattern
  obtain rfl := Except.ok.inj (hA.symm.trans hA')
  obtain rfl := Except.ok.inj (hB.symm.trans hB')
  obtain rfl := Option.some.inj (Except.ok.inj (hfacing.symm.trans hfacing'))
  obtain rfl := Option.some.inj (hinner.symm.trans hinner')
  have hheld : (Tensor.ofInts (o.pinned inner transposeA transposeB)).toInts =
      o.pinned inner transposeA transposeB := by
    refine Tensor.toInts_ofInts (by rw [Operand.length_pinned]; decide) fun x hx => ?_
    have hmem : x = inner ∨ x = -1 := by
      unfold Operand.pinned at hx
      grind
    rcases hmem with rfl | rfl
    · exact hfits
    · rfl
  rw [hheld]
  obtain ⟨c, hc⟩ := Shape.exists_productAt_pinned hinner (input.prod / inner) (by omega)
  refine ⟨_, c, Shape.reshape_pinned o transposeA transposeB copyZero hpos hfits hknown
    (Shape.fits_take hknown hcount hzero) hdvd, ?_, hc⟩
  rw [List.length_map, Operand.length_pinned]

/-- One reshaped input on both sides of products, and another reshape by the same pattern. -/
def contestedProduct : Edit Unit := do
  let x ← addParameter "x" [2, 6]
  let pattern ← addConst "pattern" (.ofInts [4, 3])
  let y ← wire "y" (.ofKind "Reshape") [x, pattern]
  let u ← wire "u" (.ofKind "Reshape") [x, pattern]
  let w ← addParameter "w" [3, 5]
  let v ← addParameter "v" [7, 4]
  let _ ← wire "yw" (.ofKind "MatMul") [y, w]
  let _ ← wire "vy" (.ofKind "MatMul") [v, y]
  discard (wire "uw" (.ofKind "MatMul") [u, w])

lemma rewrites_contestedProduct : (contestedProduct.run ∅).graph.Rewrites ⟨12⟩ .left
    ⟨⟨4⟩, ⟨2⟩, ⟨3⟩, [4, 3]⟩ [-1, 3] where
  site := toOption_eq_some.1 (by decide +kernel)
  replacement := toOption_eq_some.1 (by decide +kernel)

/-- The pattern that names three columns reshapes one hundred and forty rows of them. -/
theorem exists_product_of_rewrites_contestedProduct :
    let g := (contestedProduct.run ∅).graph
    g.Rewrites ⟨12⟩ .left ⟨⟨4⟩, ⟨2⟩, ⟨3⟩, [4, 3]⟩ [-1, 3] ∧
      g.flag ⟨12⟩ "transpose_a" false = .ok false ∧
      g.flag ⟨12⟩ "transpose_b" false = .ok false ∧
      g.knownShape ⟨12⟩ Operand.left.other.port = .ok (some [3, 5]) ∧
      Operand.left.innerDim? [3, 5] false false = some 3 ∧
      ∃ shape c, Shape.reshape [35, 3, 4] [-1, 3] true = .ok shape ∧ shape.length = 2 ∧
        Shape.productAt .left shape [3, 5] false false = .ok c := by
  intro g
  have hA : g.flag ⟨12⟩ "transpose_a" false = .ok false := toOption_eq_some.1 (by decide +kernel)
  have hB : g.flag ⟨12⟩ "transpose_b" false = .ok false := toOption_eq_some.1 (by decide +kernel)
  have hfacing : g.knownShape ⟨12⟩ Operand.left.other.port = .ok (some [3, 5]) :=
    toOption_eq_some.1 (by decide +kernel)
  have hinner : Operand.left.innerDim? [3, 5] false false = some 3 := rfl
  exact ⟨rewrites_contestedProduct, hA, hB, hfacing, hinner,
    exists_product_of_rewrites rewrites_contestedProduct hA hB hfacing hinner (by decide)
      (by decide) (by decide) (by decide) (fun hmem => absurd hmem (by decide)) (by decide) true⟩

/-- Where a dimension is zero, the elements may not be counted although there are none. -/
theorem reshape_contestedProduct_overflows :
    let g := (contestedProduct.run ∅).graph
    let input : Shape := [2 ^ 40, 2 ^ 40, 0]
    g.Rewrites ⟨12⟩ .left ⟨⟨4⟩, ⟨2⟩, ⟨3⟩, [4, 3]⟩ [-1, 3] ∧
      g.flag ⟨12⟩ "transpose_a" false = .ok false ∧
      g.flag ⟨12⟩ "transpose_b" false = .ok false ∧
      g.knownShape ⟨12⟩ Operand.left.other.port = .ok (some [3, 5]) ∧
      Operand.left.innerDim? [3, 5] false false = some 3 ∧
      (∀ d ∈ input, 0 ≤ d ∧ Shape.fits d) ∧ Shape.fits input.prod ∧ 3 ∣ input.prod ∧
      ∀ copyZero shape, Shape.reshape input [-1, 3] copyZero ≠ .ok shape := by
  intro g input
  refine ⟨rewrites_contestedProduct, toOption_eq_some.1 (by decide +kernel),
    toOption_eq_some.1 (by decide +kernel), toOption_eq_some.1 (by decide +kernel), rfl,
    by decide, by decide, by decide, fun copyZero shape hshape => ?_⟩
  have hnone : ∀ copyZero, (Shape.reshape input [-1, 3] copyZero).toOption = none := by decide
  cases hshape ▸ hnone copyZero

end TensorGraph
