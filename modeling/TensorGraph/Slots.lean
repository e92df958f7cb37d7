/-!
A `Slots` numbers its items in the order they arrive. Erasing an item empties its slot, and no
number is given twice, so the numbers of the other items never change. Everything is said
through the view `Slots.get?`.
-/

namespace TensorGraph

/-- Items numbered from zero in order of arrival; an erased item leaves its slot empty. -/
structure Slots (α : Type) where
  cells : Array (Option α)

namespace Slots

variable {α : Type}

def empty : Slots α := ⟨#[]⟩

instance : EmptyCollection (Slots α) := ⟨empty⟩

instance : Inhabited (Slots α) := ⟨empty⟩

def next (s : Slots α) : Nat := s.cells.size

def get? (s : Slots α) (i : Nat) : Option α := s.cells[i]?.join

/-- Puts an item into the slot `s.next`. -/
def push (s : Slots α) (a : α) : Slots α := ⟨s.cells.push (some a)⟩

def erase (s : Slots α) (i : Nat) : Slots α := ⟨s.cells.setIfInBounds i none⟩

/-- Applies `f` to the item in a slot, if there is one. -/
def modify (s : Slots α) (i : Nat) (f : α → α) : Slots α :=
  match s.get? i with
  | some a => ⟨s.cells.setIfInBounds i (some (f a))⟩
  | none => s

def map {β : Type} (f : α → β) (s : Slots α) : Slots β := ⟨s.cells.map (Option.map f)⟩

def indices (s : Slots α) : List Nat :=
  (List.range s.next).filter fun i => (s.get? i).isSome

/-- The items that are there with their numbers, by number. -/
def entries (s : Slots α) : List (Nat × α) :=
  (List.range s.next).filterMap fun i => (s.get? i).map (i, ·)

/-! ### The view after each operation -/

@[simp] theorem get?_empty (i : Nat) : (empty : Slots α).get? i = none := by
  simp [get?, empty]

@[simp] theorem next_empty : (empty : Slots α).next = 0 := rfl

@[simp] theorem next_push (s : Slots α) (a : α) : (s.push a).next = s.next + 1 := by
  simp [next, push]

@[simp] theorem next_erase (s : Slots α) (i : Nat) : (s.erase i).next = s.next := by
  simp [next, erase]

@[simp] theorem next_modify (s : Slots α) (i : Nat) (f : α → α) :
    (s.modify i f).next = s.next := by
  unfold modify
  split <;> simp [next]

@[simp] theorem get?_push (s : Slots α) (a : α) (i : Nat) :
    (s.push a).get? i = if i = s.next then some a else s.get? i := by
  by_cases h : i = s.cells.size <;> simp [get?, push, next, Array.getElem?_push, h]

theorem get?_eq_none_of_next_le {s : Slots α} {i : Nat} (h : s.next ≤ i) : s.get? i = none := by
  have : s.cells[i]? = none := Array.getElem?_eq_none h
  simp [get?, this]

theorem lt_next_of_get?_eq_some {s : Slots α} {i : Nat} {a : α} (h : s.get? i = some a) :
    i < s.next := by
  apply Nat.lt_of_not_le
  intro hle
  simp [get?_eq_none_of_next_le hle] at h

@[simp] theorem get?_erase (s : Slots α) (i j : Nat) :
    (s.erase i).get? j = if j = i then none else s.get? j := by
  simp only [get?, erase, Array.getElem?_setIfInBounds]
  by_cases h : i = j
  · subst h
    by_cases hi : i < s.cells.size <;> simp [hi]
  · simp [h, Ne.symm h]

@[simp] theorem get?_modify (s : Slots α) (i j : Nat) (f : α → α) :
    (s.modify i f).get? j = if j = i then (s.get? i).map f else s.get? j := by
  unfold modify
  split
  · next a h =>
    have hi : i < s.cells.size := lt_next_of_get?_eq_some h
    by_cases hj : i = j
    · subst hj
      simp_all [get?]
    · simp [get?, hj, Ne.symm hj]
  · next h => by_cases hj : j = i <;> simp_all

@[simp] theorem next_map {β : Type} (s : Slots α) (f : α → β) : (s.map f).next = s.next := by
  simp [next, map]

@[simp] theorem get?_map {β : Type} (s : Slots α) (f : α → β) (i : Nat) :
    (s.map f).get? i = (s.get? i).map f := by
  simp only [get?, map, Array.getElem?_map]
  rcases s.cells[i]? with _ | _ | a <;> rfl

/-- Slots are known by their views. -/
theorem ext_get? {s t : Slots α} (hnext : s.next = t.next) (h : ∀ i, s.get? i = t.get? i) :
    s = t := by
  obtain ⟨a⟩ := s
  obtain ⟨b⟩ := t
  congr 1
  refine Array.ext hnext fun i ha hb => ?_
  have hi := h i
  simpa [get?, Array.getElem?_eq_getElem ha, Array.getElem?_eq_getElem hb] using hi

theorem get?_modify_eq_map (s : Slots α) (i j : Nat) (f : α → α) :
    (s.modify i f).get? j = (s.get? j).map fun a => if j = i then f a else a := by
  rw [get?_modify]
  by_cases h : j = i <;> simp [h]

theorem map_push {β : Type} (s : Slots α) (f : α → β) (a : α) :
    (s.push a).map f = (s.map f).push (f a) := by
  refine ext_get? (by simp) fun i => ?_
  by_cases h : i = s.next <;> simp [h]

theorem map_erase {β : Type} (s : Slots α) (f : α → β) (i : Nat) :
    (s.erase i).map f = (s.map f).erase i := by
  refine ext_get? (by simp) fun j => ?_
  by_cases h : j = i <;> simp [h]

/-- A view in which `f` becomes `k`. -/
theorem map_modify {β : Type} (s : Slots α) (v : α → β) (i : Nat) (f : α → α) {k : β → β}
    (h : ∀ a, v (f a) = k (v a)) : (s.modify i f).map v = (s.map v).modify i k := by
  refine ext_get? (by simp) fun j => ?_
  by_cases hj : j = i
  · have hcomp : v ∘ f = k ∘ v := funext h
    simp [hj, hcomp]
  · simp [hj]

/-- A view in which `f` changes nothing. -/
theorem map_modify_of_eq {β : Type} (s : Slots α) (v : α → β) (i : Nat) (f : α → α)
    (h : ∀ a, v (f a) = v a) : (s.modify i f).map v = s.map v := by
  refine ext_get? (by simp) fun j => ?_
  by_cases hj : j = i
  · have hcomp : v ∘ f = v := funext h
    simp [hj, hcomp]
  · simp [hj]

theorem mem_entries {s : Slots α} {i : Nat} {a : α} : (i, a) ∈ s.entries ↔ s.get? i = some a := by
  simp only [entries, List.mem_filterMap, List.mem_range, Option.map_eq_some_iff, Prod.mk.injEq]
  constructor
  · rintro ⟨j, _, b, hb, rfl, rfl⟩
    exact hb
  · intro h
    exact ⟨i, lt_next_of_get?_eq_some h, a, h, rfl, rfl⟩

/-- Two views that agree on the numbers given so far list the same. -/
theorem filterMap_range_congr {β : Type} {f g : Nat → Option β} {n : Nat}
    (h : ∀ i < n, f i = g i) : (List.range n).filterMap f = (List.range n).filterMap g := by
  induction n with
  | zero => rfl
  | succ n ih =>
    simp only [List.range_succ, List.filterMap_append, List.filterMap_cons, List.filterMap_nil]
    rw [ih fun i hi => h i (Nat.lt_succ_of_lt hi), h n (Nat.lt_succ_self n)]

theorem entries_push (s : Slots α) (a : α) : (s.push a).entries = s.entries ++ [(s.next, a)] := by
  unfold entries
  rw [next_push, List.range_succ, List.filterMap_append]
  congr 1
  · refine filterMap_range_congr fun i hi => ?_
    rw [get?_push, if_neg (Nat.ne_of_lt hi)]
  · simp

theorem entries_erase (s : Slots α) (i : Nat) :
    (s.erase i).entries = s.entries.filter fun e => e.1 ≠ i := by
  unfold entries
  rw [next_erase, List.filter_filterMap]
  refine filterMap_range_congr fun j _ => ?_
  rw [get?_erase]
  by_cases h : j = i
  · rcases s.get? j with _ | a <;> simp [h, Option.filter]
  · rcases s.get? j with _ | a <;> simp [h, Option.filter]

theorem entries_modify (s : Slots α) (i : Nat) (f : α → α) :
    (s.modify i f).entries = s.entries.map fun e => if e.1 = i then (e.1, f e.2) else e := by
  unfold entries
  rw [next_modify, List.map_filterMap]
  refine filterMap_range_congr fun j _ => ?_
  rw [get?_modify]
  by_cases h : j = i
  · subst h
    rcases s.get? j with _ | a <;> simp
  · rcases s.get? j with _ | a <;> simp [h]

theorem entries_map {β : Type} (s : Slots α) (f : α → β) :
    (s.map f).entries = s.entries.map fun e => (e.1, f e.2) := by
  unfold entries
  rw [next_map, List.map_filterMap]
  refine filterMap_range_congr fun j _ => ?_
  rw [get?_map]
  rcases s.get? j with _ | a <;> rfl

theorem nodup_indices (s : Slots α) : s.indices.Nodup :=
  List.Nodup.sublist List.filter_sublist List.nodup_range

end Slots

end TensorGraph
