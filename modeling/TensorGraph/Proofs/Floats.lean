import Mathlib.Tactic.Common
import TensorGraph.Attribute
import TensorGraph.Tensor.Closeness

/-!
Which floats that are equal are close.

The difference of two equal finite floats is zero, and zero is within any tolerance that is not
below zero and a number. So it is enough to know of the operations on floats which sign their
results have, and rounding may be left aside: `NonNegative` goes through packing, sums and
products. The difference of two equal infinities is not a number, and they are not close. So equal
constants are close exactly if they are finite (`Tensor.isClose_eq_isFinite`).
-/

namespace TensorGraph

open Float.Model UnpackedFloat

variable {spec : Format} {x y : UnpackedFloat}

/-- A number that is not below zero. Infinity is one, and so is the negative zero. -/
def NonNegative : UnpackedFloat → Prop
  | .notANumber => False
  | .infinity s => s = .positive
  | .zero _ => True
  | .finite s _ _ _ => s = .positive

lemma nonNegative_dite {c : Prop} [Decidable c] {a : c → UnpackedFloat} {b : ¬c → UnpackedFloat}
    (ha : ∀ h, NonNegative (a h)) (hb : ∀ h, NonNegative (b h)) : NonNegative (dite c a b) := by
  by_cases h : c
  · rw [dif_pos h]
    exact ha h
  · rw [dif_neg h]
    exact hb h

/-! ### Packing -/

lemma unpackSign_eq (b : BitVec spec.numBits) : unpackSign b =
    (b.extractLsb (spec.mantissaBitsWithoutImplicit + spec.exponentBits)
      (spec.mantissaBitsWithoutImplicit + spec.exponentBits)).cast (by omega) := rfl

lemma sign_unpack_packComponents (s : Sign) (e : BitVec spec.exponentBits)
    (m : BitVec spec.mantissaBitsWithoutImplicit) :
    Sign.ofBitVec (unpackSign (packComponents spec s e m)) = s := by
  have hsign : unpackSign (packComponents spec s e m) = s.toBitVec := by
    ext i hi
    have : i = 0 := by omega
    subst this
    simp [unpackSign_eq, packComponents, BitVec.getLsbD_append, BitVec.getElem_append]
  rw [hsign]
  cases s <;> rfl

lemma exponent_zero_ne : (0 : BitVec spec.exponentBits) ≠ -BitVec.ofNat spec.exponentBits 1 := by
  intro h
  have hpos := spec.he
  have hbit := congrArg (fun b => b.getLsbD 0) h
  simp [BitVec.neg_one_eq_allOnes, hpos] at hbit

lemma unpack_packedZero (s : Sign) : unpack spec (packedZero spec s) = .zero s := by
  unfold packedZero UnpackedFloat.unpack
  have hexponent : unpackExponent (packComponents spec s 0 0) = 0 := unpackExponent_packComponents
  refine (if_neg fun h => exponent_zero_ne (hexponent.symm.trans h)).trans ?_
  refine (if_pos hexponent).trans ((dif_pos unpackMantissa_packComponents).trans ?_)
  rw [sign_unpack_packComponents]

/-- What is packed with the positive sign is not below zero when unpacked. -/
lemma nonNegative_unpack_packComponents {e : BitVec spec.exponentBits}
    {m : BitVec spec.mantissaBitsWithoutImplicit}
    (h : e = -BitVec.ofNat _ 1 → m = BitVec.ofNat _ 0) :
    NonNegative (unpack spec (packComponents spec .positive e m)) := by
  have hsign := sign_unpack_packComponents .positive e m
  unfold UnpackedFloat.unpack
  dsimp only
  by_cases he : unpackExponent (packComponents spec .positive e m) = -BitVec.ofNat _ 1
  · have hm := h (unpackExponent_packComponents.symm.trans he)
    rw [if_pos he, if_pos (unpackMantissa_packComponents.trans hm)]
    exact hsign
  rw [if_neg he]
  by_cases hzero : unpackExponent (packComponents spec .positive e m) = BitVec.ofNat _ 0
  · rw [if_pos hzero]
    exact nonNegative_dite (fun _ => trivial) fun _ => hsign
  · rw [if_neg hzero]
    exact hsign

lemma nonNegative_unpack_pack (hx : NonNegative x) : NonNegative (unpack spec (pack spec x)) := by
  cases x with
  | notANumber => exact hx.elim
  | infinity s =>
    cases hx
    exact nonNegative_unpack_packComponents fun _ => rfl
  | zero s =>
    show NonNegative (unpack spec (packedZero spec s))
    rw [unpack_packedZero]
    trivial
  | finite s m e hm =>
    cases hx
    unfold UnpackedFloat.pack
    dsimp only
    split
    · exact nonNegative_unpack_packComponents fun _ => rfl
    · next hlt =>
      split
      · refine nonNegative_unpack_packComponents fun heq => absurd ?_ hlt
        -- an exponent that fits and is not the greatest one
        have heq := congrArg BitVec.toNat heq
        rw [BitVec.neg_one_eq_allOnes, BitVec.toNat_allOnes, BitVec.toNat_ofNat,
          Nat.mod_eq_of_lt (by omega)] at heq
        omega
      · exact nonNegative_unpack_packComponents fun heq => absurd heq exponent_zero_ne

/-! ### Operations -/

lemma nonNegative_roundWithAccuracy (m : Nat) (e : Int) (a : Accuracy) :
    NonNegative (roundWithAccuracy spec .positive m e a) := by
  unfold roundWithAccuracy
  exact nonNegative_dite (fun _ => trivial) fun _ => rfl

lemma nonNegative_abs (hx : x.isFinite = true) : NonNegative x.abs := by
  cases x with
  | notANumber | infinity => cases hx
  | zero => trivial
  | finite => rfl

lemma nonNegative_mul {m : Nat} {e : Int} {hm : 0 < m} (hy : NonNegative y) :
    NonNegative (UnpackedFloat.mul spec (.finite .positive m e hm) y) := by
  cases y with
  | notANumber => exact hy.elim
  | infinity s =>
    cases hy
    rfl
  | zero => trivial
  | finite s =>
    cases hy
    exact nonNegative_roundWithAccuracy ..

lemma nonNegative_add {m : Nat} {e : Int} {hm : 0 < m} (hy : NonNegative y) :
    NonNegative (UnpackedFloat.add spec (.finite .positive m e hm) y) := by
  cases y with
  | notANumber => exact hy.elim
  | infinity s =>
    cases hy
    rfl
  | zero => rfl
  | finite s m' e' hm' =>
    cases hy
    unfold UnpackedFloat.add UnpackedFloat.normalize
    dsimp only [Sign.apply]
    split
    · next h =>
      rw [Int.compare_eq_lt] at h
      omega
    · trivial
    · exact nonNegative_roundWithAccuracy ..

lemma zero_le (s : Sign) (hx : NonNegative x) : (UnpackedFloat.zero s).le x = true := by
  cases x with
  | notANumber => exact hx.elim
  | infinity t =>
    cases hx
    rfl
  | zero => rfl
  | finite t =>
    cases hx
    rfl

lemma beq_eq_true : x.beq y = true ↔ x.compare y = some .eq :=
  (Bool.coe_iff_coe.2 (show x.beq y = (x.compare y == some .eq) from rfl)).trans beq_iff_eq

/-- Equal finite numbers are both zero or have the same sign, mantissa and exponent. -/
lemma eq_or_zero_of_beq (hx : x.isFinite = true) (h : x.beq y = true) :
    x = y ∨ ∃ s t, x = .zero s ∧ y = .zero t := by
  cases x with
  | notANumber | infinity => cases hx
  | zero s =>
    rcases y with ⟨⟨⟩⟩ | _ | t | ⟨⟨⟩, m, e, hm⟩
    case zero => exact .inr ⟨s, t, rfl, rfl⟩
    all_goals cases h
  | finite s m e hm =>
    have hsame : ∀ (m' : Nat) (e' : Int), (compare e e').then (compare m m') = .eq →
        e = e' ∧ m = m' := by
      intro m' e' heq
      rw [Ordering.then_eq_eq] at heq
      exact ⟨Int.compare_eq_eq.1 heq.1, Nat.compare_eq_eq.1 heq.2⟩
    rcases y with ⟨⟨⟩⟩ | _ | t | ⟨t, m', e', hm'⟩
    case finite =>
      left
      cases s <;> cases t
      · obtain ⟨rfl, rfl⟩ := hsame m' e'
          (Ordering.swap_eq_eq.1 (Option.some.inj (beq_eq_true.1 h)))
        rfl
      · cases h
      · cases h
      · obtain ⟨rfl, rfl⟩ := hsame m' e' (Option.some.inj (beq_eq_true.1 h))
        rfl
    all_goals cases s <;> cases h

lemma isFinite_of_beq (hx : x.isFinite = true) (h : x.beq y = true) : y.isFinite = true := by
  rcases eq_or_zero_of_beq hx h with rfl | ⟨s, t, rfl, rfl⟩
  · exact hx
  · rfl

lemma sub_of_beq (hx : x.isFinite = true) (h : x.beq y = true) :
    ∃ s, UnpackedFloat.sub spec x y = .zero s := by
  rcases eq_or_zero_of_beq hx h with rfl | ⟨s, t, rfl, rfl⟩
  · cases x with
    | notANumber | infinity => cases hx
    | zero s => cases s <;> exact ⟨_, rfl⟩
    | finite s m e hm =>
      refine ⟨.positive, ?_⟩
      unfold UnpackedFloat.sub UnpackedFloat.normalize
      dsimp only
      rw [Int.sub_self]
      rfl
  · cases s <;> cases t <;> exact ⟨_, rfl⟩

/-- Equal numbers that are not finite are infinities of one sign. -/
lemma eq_infinity_of_beq (hx : x.isFinite = false) (h : x.beq y = true) :
    ∃ s, x = .infinity s ∧ y = .infinity s := by
  cases x with
  | notANumber => cases h
  | zero | finite => cases hx
  | infinity s =>
    rcases y with ⟨t⟩ | _ | _ | ⟨⟨⟩⟩
    case infinity =>
      cases s <;> cases t
      case negative.positive | positive.negative => cases h
      all_goals exact ⟨_, rfl, rfl⟩
    all_goals cases s <;> cases h

lemma sub_infinity (s : Sign) :
    UnpackedFloat.sub spec (.infinity s) (.infinity s) = .notANumber := by
  cases s <;> rfl

lemma beq_self (hx : x.isNaN = false) : x.beq x = true := by
  cases x with
  | notANumber => cases hx
  | infinity s => cases s <;> rfl
  | zero => rfl
  | finite s m e =>
    have hsame : (compare e e).then (compare m m) = .eq := by simp
    cases s
    · exact beq_eq_true.2 (congrArg some (Ordering.swap_eq_eq.2 hsame))
    · exact beq_eq_true.2 (congrArg some hsame)

/-! ### Close floats -/

lemma unpack_tolerance :
    Tensor.tolerance.toModel.unpack = .finite .positive 10995116 (-40) (by decide) := by
  rfl

lemma isCloseFloat_of_beq {x y : Float32} (hx : x.isFinite = true) (h : (x == y) = true) :
    Tensor.isCloseFloat x y = true := by
  have hsub : (x - y).abs.toModel.unpack = .zero .positive := by
    obtain ⟨s, hs⟩ : ∃ s, UnpackedFloat.sub .binary32 x.toModel.unpack y.toModel.unpack = .zero s :=
      sub_of_beq hx h
    have hdiff : (x - y).toModel.unpack = .zero s :=
      (congrArg (fun u => UnpackedFloat.unpack _ (UnpackedFloat.pack _ u)) hs).trans
        (unpack_packedZero s)
    show UnpackedFloat.unpack _ (UnpackedFloat.pack _ (x - y).toModel.unpack.abs) = _
    rw [hdiff]
    exact unpack_packedZero .positive
  have habs : NonNegative y.abs.toModel.unpack :=
    nonNegative_unpack_pack (nonNegative_abs (isFinite_of_beq hx h))
  have hprod : NonNegative (Tensor.tolerance * y.abs).toModel.unpack := by
    refine nonNegative_unpack_pack ?_
    rw [unpack_tolerance]
    exact nonNegative_mul habs
  have hsum : NonNegative (Tensor.tolerance + Tensor.tolerance * y.abs).toModel.unpack := by
    refine nonNegative_unpack_pack ?_
    rw [unpack_tolerance]
    exact nonNegative_add hprod
  have hle : (x - y).abs.toModel.unpack.le _ = true := hsub ▸ zero_le .positive hsum
  exact decide_eq_true (decide_eq_true hle)

/-- Equal infinities are not close: nothing is known of their difference. -/
lemma isCloseFloat_eq_false {x y : Float32} (hx : x.isFinite = false) (h : (x == y) = true) :
    Tensor.isCloseFloat x y = false := by
  obtain ⟨s, hxs, hys⟩ : ∃ s, x.toModel.unpack = .infinity s ∧ y.toModel.unpack = .infinity s :=
    eq_infinity_of_beq hx h
  have hsub : (x - y).abs.toModel.unpack = .notANumber := by
    have hdiff : (x - y).toModel.unpack = .notANumber := by
      show UnpackedFloat.unpack _ (UnpackedFloat.pack _ (UnpackedFloat.sub _ _ _)) = _
      rw [hxs, hys, sub_infinity]
      rfl
    show UnpackedFloat.unpack _ (UnpackedFloat.pack _ (x - y).toModel.unpack.abs) = _
    rw [hdiff]
    rfl
  have hle : ∀ z : UnpackedFloat, (x - y).abs.toModel.unpack.le z = false := fun z => by
    rw [hsub]
    rfl
  exact decide_eq_false fun h => Bool.false_ne_true ((hle _).symm.trans (of_decide_eq_true h))

/-- Equal floats are close exactly if they are finite. -/
lemma isCloseFloat_eq_isFinite {x y : Float32} (h : (x == y) = true) :
    Tensor.isCloseFloat x y = x.isFinite := by
  rcases hx : x.isFinite
  · exact isCloseFloat_eq_false hx h
  · exact isCloseFloat_of_beq hx h

/-! ### Constants and attributes -/

/-- Are all elements finite, where they are floats? -/
def Tensor.isFinite : Tensor → Bool
  | f32 g => g.toList.all Float32.isFinite
  | _ => true

/-- Is some element not a number? -/
def Tensor.hasNaN : Tensor → Bool
  | f32 g => g.toList.any Float32.isNaN
  | _ => false

/-- Is something in the attribute not a number? -/
def Attribute.hasNaN : Attribute → Bool
  | float x => x.isNaN
  | floats l => l.any Float.isNaN
  | tensor t => t.hasNaN
  | _ => false

/-- Two values are the same, or they are equal, as zeros of either sign are. -/
def Same {α : Type} [BEq α] (a b : α) : Prop := a = b ∨ (a == b) = true

lemma isNaN_of_isFinite {x : UnpackedFloat} (hx : x.isFinite = true) : x.isNaN = false := by
  cases x <;> first | rfl | cases hx

lemma Tensor.hasNaN_of_isFinite {t : Tensor} (ht : t.isFinite = true) : t.hasNaN = false := by
  cases t with
  | bool | i64 => rfl
  | f32 g =>
    exact List.any_eq_false.2 fun x hx =>
      Bool.not_eq_true _ ▸ TensorGraph.isNaN_of_isFinite (List.all_eq_true.1 ht x hx)

lemma list_beq_self {α : Type} [BEq α] {l : List α} (h : ∀ a ∈ l, (a == a) = true) :
    (l == l) = true := by
  induction l with
  | nil => rfl
  | cons a l ih =>
    rw [List.cons_beq_cons, h a (List.mem_cons_self ..),
      ih fun b hb => h b (List.mem_cons_of_mem a hb)]
    rfl

lemma grid_beq_self {α : Type} [BEq α] {g : Grid α} (h : ∀ a ∈ g.toList, (a == a) = true) :
    (g == g) = true := by
  show (g.shape == g.shape && g.cells == g.cells) = true
  rw [← Array.beq_toList]
  exact Bool.and_eq_true_iff.2 ⟨beq_self_eq_true _, list_beq_self (l := g.toList) h⟩

lemma Tensor.beq_self {t : Tensor} (h : t.hasNaN = false) : (t == t) = true := by
  cases t with
  | bool g => exact grid_beq_self (g := g) fun b _ => beq_self_eq_true b
  | i64 g => exact grid_beq_self (g := g) fun n _ => beq_self_eq_true n
  | f32 g =>
    have hnum : ∀ x ∈ g.toList, x.isNaN = false := by simpa [Tensor.hasNaN] using h
    exact grid_beq_self (g := g) fun x hx => TensorGraph.beq_self (hnum x hx)

lemma Attribute.beq_of_same {a b : Attribute} (ha : a.hasNaN = false) (h : Same a b) :
    (a == b) = true := by
  rcases h with rfl | h
  · cases a with
    | int i => exact beq_self_eq_true i
    | float x => exact TensorGraph.beq_self ha
    | bool b => exact beq_self_eq_true b
    | string s => exact beq_self_eq_true s
    | ints l => exact beq_self_eq_true l
    | floats l =>
      have hnum : ∀ x ∈ l, x.isNaN = false := by simpa [Attribute.hasNaN] using ha
      exact list_beq_self (l := l) fun x hx => TensorGraph.beq_self (hnum x hx)
    | strings l => exact beq_self_eq_true l
    | tensor t => exact Tensor.beq_self ha
    | rule n => exact beq_self_eq_true n
  · exact h

lemma all_isCloseFloat {xs ys : List Float32} (h : (xs == ys) = true) :
    ((xs.zip ys).all fun p => Tensor.isCloseFloat p.1 p.2) = xs.all Float32.isFinite := by
  induction xs generalizing ys with
  | nil => rfl
  | cons x xs ih =>
    cases ys with
    | nil => cases h
    | cons y ys =>
      rw [List.cons_beq_cons, Bool.and_eq_true] at h
      rw [List.zip_cons_cons, List.all_cons, List.all_cons, isCloseFloat_eq_isFinite h.1, ih h.2]

/-- Do the elements lie in memory as they are listed, where they are floats? -/
def Tensor.isStandard : Tensor → Bool
  | f32 g => g.isStandard
  | _ => true

/-- **Equal constants**: two constants that are equal are close exactly if their elements are
finite and both can be read as slices. -/
theorem Tensor.isClose_of_beq {t u : Tensor} (h : (t == u) = true) :
    t.isClose u = (t.isStandard && u.isStandard && t.isFinite) := by
  have hshape {α : Type} [BEq α] {a b : Grid α} (h : (a == b) = true) :
      (a.shape == b.shape) = true := (Bool.and_eq_true_iff.1 h).1
  cases t with
  | bool g =>
    cases u with
    | bool k => exact Bool.and_eq_true_iff.2 ⟨hshape h, h⟩
    | i64 | f32 => cases h
  | i64 g =>
    cases u with
    | i64 k => exact Bool.and_eq_true_iff.2 ⟨hshape h, h⟩
    | bool | f32 => cases h
  | f32 g =>
    cases u with
    | f32 k =>
      have hcells : (g.toList == k.toList) = true := by
        show (g.cells.toList == k.cells.toList) = true
        rw [Array.beq_toList]
        exact (Bool.and_eq_true_iff.1 h).2
      refine ((congrArg (· && _) (hshape h)).trans (Bool.true_and _)).trans ?_
      show _ = (g.isStandard && k.isStandard && g.toList.all Float32.isFinite)
      rcases hg : g.isStandard <;> rcases hk : k.isStandard <;> simp [Grid.slice?, toF32,
        elementType, ElementType.isFloat, hg, hk, all_isCloseFloat hcells]
    | bool | i64 => cases h

/-- Is everything finite, and can floats be read as a slice? -/
def Tensor.isOrdinary (t : Tensor) : Bool := t.isStandard && t.isFinite

/-- Equal constants are close if they are ordinary. -/
lemma Tensor.isClose_of_same {t u : Tensor} (ht : t.isOrdinary = true) (hu : u.isOrdinary = true)
    (h : Same t u) : t.isClose u = true := by
  rw [isOrdinary, Bool.and_eq_true] at ht hu
  have heq : (t == u) = true := by
    rcases h with rfl | h
    · exact Tensor.beq_self (Tensor.hasNaN_of_isFinite ht.2)
    · exact h
  rw [Tensor.isClose_of_beq heq, ht.1, ht.2, hu.1]
  rfl

end TensorGraph
