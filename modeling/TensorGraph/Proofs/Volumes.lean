import Mathlib.Algebra.BigOperators.Ring.List
import Mathlib.Algebra.Order.BigOperators.GroupWithZero.List
import Mathlib.Algebra.Order.Ring.Int
import TensorGraph.Proofs.ShapeBounds

/-!
Counting elements.

The number of elements is counted when all products on the way to it fit (`Shape.volume_eq_ok`),
which they do with the number itself unless a dimension is zero (`Shape.fits_take`). Of a shape that
follows a pattern the elements are counted without the place of the `-1` (`Shape.named`).
-/

namespace TensorGraph.Shape

variable {pattern s t : Shape} {acc v x : Int} {i : Nat}

/-! ### Checked products -/

lemma checkedProduct_eq_some (hacc : fits acc) : checkedProduct acc s = some v ↔
    (∀ n, fits (acc * (s.take n).prod)) ∧ v = acc * s.prod := by
  induction s generalizing acc with
  | nil => simp [checkedProduct, hacc, eq_comm]
  | cons d s ih =>
    have htake : (∀ n, fits (acc * ((d :: s).take n).prod)) ↔
        ∀ n, fits (acc * d * (s.take n).prod) := by
      refine ⟨fun h n => ?_, fun h n => ?_⟩
      · simpa [mul_assoc] using h (n + 1)
      · rcases n with _ | n
        · simpa using hacc
        · simpa [mul_assoc] using h n
    rw [checkedProduct, htake, List.prod_cons, ← mul_assoc]
    split
    · next hd => exact ih hd
    · next hd => simpa using fun h => absurd (by simpa using h 0) hd

lemma volume_eq_ok : volume s = .ok v ↔ (∀ n, fits (s.take n).prod) ∧ v = s.prod := by
  have hproduct := checkedProduct_eq_some (s := s) (v := v) (by decide : fits 1)
  simp only [one_mul] at hproduct
  rw [← hproduct]
  unfold volume
  split <;> simp_all

/-- On the way to the number of elements all products fit, unless there is a zero. -/
lemma fits_take (hknown : ∀ d ∈ s, 0 ≤ d) (hcount : fits s.prod)
    (hzero : 0 ∈ s → ∀ n, fits (s.take n).prod) (n : Nat) : fits (s.take n).prod := by
  by_cases hmem : 0 ∈ s
  · exact hzero hmem n
  have hpos : ∀ d ∈ s, 0 < d := fun d hd =>
    lt_of_le_of_ne (hknown d hd) fun h => hmem (h ▸ hd)
  have htake : 0 < (s.take n).prod := List.prod_pos fun d hd => hpos d (List.mem_of_mem_take hd)
  have hdrop : 0 < (s.drop n).prod := List.prod_pos fun d hd => hpos d (List.mem_of_mem_drop hd)
  have hle : (s.take n).prod ≤ s.prod := by
    rw [← List.prod_take_mul_prod_drop s n]
    exact le_mul_of_one_le_right (le_of_lt htake) hdrop
  rw [fits_iff] at hcount ⊢
  omega

/-! ### The place of the `-1` -/

/-- The dimensions at the places that the pattern does not leave open. -/
def named (pattern s : Shape) : Shape := ((pattern.zip s).filter (·.1 ≠ -1)).map Prod.snd

lemma named_self (pattern : Shape) : named pattern pattern = pattern.filter (· ≠ -1) := by
  induction pattern with
  | nil => rfl
  | cons d pattern ih =>
    unfold named at ih ⊢
    by_cases hd : d = -1 <;> simp_all

/-- Dimensions at places that are left open do not count. -/
lemma named_congr (hs : s.length = pattern.length) (ht : t.length = pattern.length)
    (h : ∀ (i : Nat) (d : Int), pattern[i]? = some d → d ≠ -1 → s[i]? = t[i]?) :
    named pattern s = named pattern t := by
  induction pattern generalizing s t with
  | nil => rfl
  | cons d pattern ih =>
    obtain ⟨x, s, rfl⟩ := List.exists_cons_of_length_eq_add_one hs
    obtain ⟨y, t, rfl⟩ := List.exists_cons_of_length_eq_add_one ht
    have hrest := ih (Nat.succ.inj hs) (Nat.succ.inj ht) fun i => h (i + 1)
    unfold named at hrest ⊢
    by_cases hd : d = -1
    · simpa [hd] using hrest
    · have hxy : x = y := by simpa using h 0 d rfl hd
      simpa [hd, hxy] using hrest

lemma named_of_count (hlen : s.length = pattern.length) (h : pattern.count (-1) = 0) :
    named pattern s = s := by
  induction pattern generalizing s with
  | nil => exact (List.length_eq_zero_iff.1 hlen).symm
  | cons d pattern ih =>
    obtain ⟨x, s, rfl⟩ := List.exists_cons_of_length_eq_add_one hlen
    obtain ⟨hrest, hd⟩ : pattern.count (-1) = 0 ∧ ¬d = -1 := by simpa [List.count_cons] using h
    have hs := ih (Nat.succ.inj hlen) hrest
    unfold named at hs ⊢
    simpa [hd] using hs

lemma count_of_wildcard? (h : wildcard? pattern = none) : pattern.count (-1) = 0 :=
  List.count_eq_zero.2 fun hmem => by simpa using List.findIdx?_eq_none_iff.1 h _ hmem

/-- The dimensions without that in place of a single `-1`. -/
lemma named_eq_eraseIdx (hlen : s.length = pattern.length) (hi : wildcard? pattern = some i)
    (hone : pattern.count (-1) ≤ 1) : named pattern s = s.eraseIdx i := by
  induction pattern generalizing s i with
  | nil => cases hi
  | cons d pattern ih =>
    obtain ⟨x, s, rfl⟩ := List.exists_cons_of_length_eq_add_one hlen
    unfold wildcard? at hi
    rw [List.findIdx?_cons] at hi
    by_cases hd : d = -1
    · obtain rfl : 0 = i := by simpa [hd] using hi
      have hrest := named_of_count (Nat.succ.inj hlen)
        (show pattern.count (-1) = 0 by simpa [hd] using hone)
      unfold named at hrest ⊢
      simpa [hd] using hrest
    · obtain ⟨j, hj, rfl⟩ : ∃ j, wildcard? pattern = some j ∧ j + 1 = i := by
        simpa [hd, wildcard?] using hi
      have hrest := ih (Nat.succ.inj hlen) hj (by simpa [List.count_cons, hd] using hone)
      unfold named at hrest ⊢
      simpa [hd] using hrest

lemma prod_set (hi : i < s.length) : (s.set i x).prod = x * (s.eraseIdx i).prod := by
  have h := List.CommMonoid.mul_prod_eraseIdx (l := s.set i x) (i := i) (by simpa using hi)
  rw [List.getElem_set_self, List.eraseIdx_set_eq] at h
  exact h.symm

/-- The dimensions without a single `-1`, and what takes its place. -/
lemma prod_set_wildcard (hi : wildcard? pattern = some i) (hone : pattern.count (-1) ≤ 1) :
    (pattern.set i x).prod = x * (pattern.filter (· ≠ -1)).prod := by
  rw [← named_self, named_eq_eraseIdx rfl hi hone]
  exact prod_set (List.getElem?_eq_some_iff.1 (getElem?_of_wildcard? hi)).1

end TensorGraph.Shape
