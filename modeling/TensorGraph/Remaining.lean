/-!
A search over finitely many items ends because each step either shortens its list of things to
do or sees a new item, which then adds to the list no more than it costs. `remaining` sums up the
items not seen with their costs; the sum and the length of the list together fall at every step.
-/

namespace TensorGraph

variable {α : Type} [DecidableEq α]

/-- The items that have not been seen, each counted once and with its cost. -/
def remaining (cost : α → Nat) (seen : List α) : List α → Nat
  | [] => 0
  | b :: items => (if b ∈ seen then 0 else cost b + 1) + remaining cost seen items

theorem remaining_cons_le (cost : α → Nat) (seen items : List α) (a : α) :
    remaining cost (a :: seen) items ≤ remaining cost seen items := by
  induction items with
  | nil => simp [remaining]
  | cons b items ih =>
    simp only [remaining, List.mem_cons]
    by_cases hb : b ∈ seen
    · simpa [hb] using ih
    · by_cases ha : b = a <;> simp [hb, ha] <;> omega

/-- Seeing an item pays for its cost and one more. -/
theorem remaining_cons_add_lt (cost : α → Nat) {seen items : List α} {a : α} (ha : a ∈ items)
    (hs : a ∉ seen) : remaining cost (a :: seen) items + cost a < remaining cost seen items := by
  induction items with
  | nil => simp at ha
  | cons b items ih =>
    simp only [remaining, List.mem_cons]
    by_cases hb : b = a
    · subst hb
      have := remaining_cons_le cost seen items b
      simp only [true_or, if_true, if_neg hs]
      omega
    · have := ih (by simpa [Ne.symm hb] using ha)
      by_cases hbs : b ∈ seen <;> simp [hb, hbs] <;> omega

end TensorGraph
