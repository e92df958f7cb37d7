import Mathlib.Data.List.Perm.Subperm
import TensorGraph.Proofs.Graphs
import TensorGraph.Transformation.Basic

/-!
Names for new nodes.

The candidates for a name are numbered, and no two are the same. A graph tries one more of them than
it has nodes, so one of those is free, and the first free one is what it gives
(`firstFree_uniqueName`).

A search that tries one candidate after the other, with no bound on their number, ends at the name
that the graph gives. It tries another candidate no more often than there are nodes
(`uniqueName_search`).
-/

namespace TensorGraph

/-- The candidates for a name: the name itself, then the name with a number from one on. -/
def nameCandidate (base : String) : Nat → String
  | 0 => base
  | i + 1 => base ++ "." ++ toString (i + 1)

/-- The name is the first candidate that is not in use. -/
def FirstFree (used : String → Prop) (base name : String) : Prop :=
  ∃ i, name = nameCandidate base i ∧ ¬ used name ∧ ∀ j < i, used (nameCandidate base j)

variable {used used' : String → Prop} {base name name' : String} {i j : Nat}

lemma FirstFree.congr (h : FirstFree used base name) (hu : ∀ s, used s ↔ used' s) :
    FirstFree used' base name := by
  obtain ⟨i, hname, hfree, hfirst⟩ := h
  exact ⟨i, hname, fun hused => hfree ((hu name).2 hused), fun j hj => (hu _).1 (hfirst j hj)⟩

lemma FirstFree.unique (h : FirstFree used base name) (h' : FirstFree used base name') :
    name = name' := by
  obtain ⟨i, rfl, hfree, hfirst⟩ := h
  obtain ⟨j, rfl, hfree', hfirst'⟩ := h'
  rcases Nat.lt_trichotomy i j with hlt | rfl | hlt
  · exact absurd (hfirst' i hlt) hfree
  · rfl
  · exact absurd (hfirst j hlt) hfree'

lemma append_ne_self {s t : String} (ht : t ≠ "") : s ++ t ≠ s := by
  intro h
  have hlength := congrArg String.length h
  rw [String.length_append] at hlength
  have hpos : t.length ≠ 0 := fun h0 => ht (String.length_eq_zero_iff.1 h0)
  omega

lemma nameCandidate_succ_ne (base : String) (i : Nat) : nameCandidate base (i + 1) ≠ base := by
  rw [nameCandidate, String.append_assoc]
  refine append_ne_self fun h => ?_
  have hlength := congrArg String.length h
  rw [String.length_append] at hlength
  simp at hlength

lemma toString_injective (h : toString i = toString j) : i = j := by
  rw [Nat.toString_eq_ofList_toDigits, Nat.toString_eq_ofList_toDigits, String.ofList_inj] at h
  have hvalue := congrArg (fun digits => Nat.ofDigitChars 10 digits 0) h
  simpa using hvalue

lemma nameCandidate_injective (base : String) : Function.Injective (nameCandidate base) := by
  intro i j h
  match i, j with
  | 0, 0 => rfl
  | 0, j + 1 => exact absurd h.symm (nameCandidate_succ_ne base j)
  | i + 1, 0 => exact absurd h (nameCandidate_succ_ne base i)
  | i + 1, j + 1 => exact toString_injective ((String.append_right_inj _).1 h)

namespace Graph

variable {g : Graph}

lemma nameCandidates_eq (g : Graph) (base : String) :
    g.nameCandidates base = (List.range (g.size + 1)).map (nameCandidate base) := by
  rw [nameCandidates, List.range_succ_eq_map, List.map_cons, List.map_map]
  rfl

lemma contains_eq_true {name : String} :
    g.contains name = true ↔ ∃ id n, g.node? id = some n ∧ n.name = name := by
  rw [← not_iff_not, Bool.not_eq_true, contains_eq_false]
  push Not
  rfl

/-- As many names are in use as there are entries in the table of names. -/
lemma length_le_size {l : List String} (hl : l.Nodup) (hused : ∀ s ∈ l, g.contains s = true) :
    l.length ≤ g.size := by
  have hsub : l ⊆ g.names.keys := by
    intro s hs
    obtain ⟨id, hid⟩ := Option.isSome_iff_exists.1 (hused s hs)
    exact List.mem_map.2 ⟨(s, id), Dict.find?_eq_some_iff.1 hid, rfl⟩
  have hle := (hl.subperm hsub).length_le
  rwa [Dict.keys, List.length_map] at hle

/-- **New names**: the name that a graph gives is the first candidate that none of its nodes has. -/
theorem firstFree_uniqueName (g : Graph) (base : String) :
    FirstFree (fun s => g.contains s = true) base (g.uniqueName base) := by
  have hnodup : (g.nameCandidates base).Nodup := by
    rw [nameCandidates_eq]
    exact List.nodup_range.map (nameCandidate_injective base)
  have hlength : (g.nameCandidates base).length = g.size + 1 := by
    rw [nameCandidates_eq, List.length_map, List.length_range]
  unfold uniqueName
  rcases hfind : (g.nameCandidates base).find? fun s => !g.contains s with _ | name
  · -- one more candidate than nodes cannot all be in use
    have hused : ∀ s ∈ g.nameCandidates base, g.contains s = true := by
      simpa using List.find?_eq_none.1 hfind
    have hle := length_le_size hnodup hused
    omega
  · obtain ⟨hfree, i, hi, rfl, hbefore⟩ := List.find?_eq_some_iff_getElem.1 hfind
    have hget {j : Nat} (hj : j < (g.nameCandidates base).length) :
        (g.nameCandidates base)[j] = nameCandidate base j := by
      simp only [nameCandidates_eq, List.getElem_map, List.getElem_range]
    refine ⟨i, hget hi, by simpa using hfree, fun j hj => ?_⟩
    have hused := hbefore j hj
    rw [hget (Nat.lt_trans hj hi)] at hused
    simpa using hused

/-! ### The search -/

/-- Where a search for a name is. -/
structure NameSearch where
  /-- The candidate at hand. -/
  candidate : String
  /-- How many candidates were in use before it. -/
  tried : Nat

def NameSearch.start (base : String) : NameSearch := ⟨base, 0⟩

/-- The candidate at hand is in use, and the search takes the next one. -/
def SearchStep (g : Graph) (base : String) (s t : NameSearch) : Prop :=
  g.contains s.candidate = true ∧
    t = ⟨base ++ "." ++ toString (s.tried + 1), s.tried + 1⟩

/-- A number of steps of a search. -/
inductive SearchRun (g : Graph) (base : String) : Nat → NameSearch → NameSearch → Prop where
  | nil (s : NameSearch) : SearchRun g base 0 s s
  | snoc {n : Nat} {s t u : NameSearch} :
      SearchRun g base n s t → SearchStep g base t u → SearchRun g base (n + 1) s u

variable {n : Nat} {s : NameSearch}

/-- A step goes from a candidate that is in use to the one after it. -/
lemma searchStep_iff :
    g.SearchStep base ⟨nameCandidate base n, n⟩ s ↔
      g.contains (nameCandidate base n) = true ∧ s = ⟨nameCandidate base (n + 1), n + 1⟩ :=
  Iff.rfl

/-- So many steps lead to the candidate of that number, over candidates that are all in use. -/
lemma searchRun_iff :
    g.SearchRun base n (.start base) s ↔
      s = ⟨nameCandidate base n, n⟩ ∧ ∀ i < n, g.contains (nameCandidate base i) = true := by
  induction n generalizing s with
  | zero =>
    constructor
    · rintro ⟨⟩
      exact ⟨rfl, fun i hi => absurd hi (Nat.not_lt_zero i)⟩
    · rintro ⟨rfl, -⟩
      exact .nil _
  | succ n ih =>
    constructor
    · rintro (_ | ⟨hrun, hstep⟩)
      obtain ⟨rfl, hbefore⟩ := ih.1 hrun
      obtain ⟨hused, rfl⟩ := searchStep_iff.1 hstep
      exact ⟨rfl, Nat.forall_lt_succ_right.2 ⟨hbefore, hused⟩⟩
    · rintro ⟨rfl, hused⟩
      obtain ⟨hbefore, hlast⟩ := Nat.forall_lt_succ_right.1 hused
      exact .snoc (ih.2 ⟨rfl, hbefore⟩) (searchStep_iff.2 ⟨hlast, rfl⟩)

/-- Candidates that are in use belong to as many nodes. -/
lemma le_size_of_used (hused : ∀ i < n, g.contains (nameCandidate base i) = true) :
    n ≤ g.size := by
  have hnodup : ((List.range n).map (nameCandidate base)).Nodup :=
    List.nodup_range.map (nameCandidate_injective base)
  have hle := length_le_size hnodup fun s hs => by
    obtain ⟨i, hi, rfl⟩ := List.mem_map.1 hs
    exact hused i (List.mem_range.1 hi)
  rwa [List.length_map, List.length_range] at hle

/-- **The search for a new name ends**: after at most as many steps as there are nodes it is at the
name that the graph gives, and there is no step from there. That name is not in use. It is the name
itself if that is free, and otherwise the name with the least number, from one on, that is free. -/
theorem uniqueName_search (g : Graph) (base : String) :
    ∃ n ≤ g.size, g.SearchRun base n (.start base) ⟨g.uniqueName base, n⟩ ∧
      (∀ m s, g.SearchRun base m (.start base) s → m ≤ n) ∧
      g.contains (g.uniqueName base) = false ∧
      (g.contains base = false → g.uniqueName base = base) ∧
      (g.contains base = true → 1 ≤ n ∧ g.uniqueName base = base ++ "." ++ toString n ∧
        ∀ i, 1 ≤ i → i < n → g.contains (base ++ "." ++ toString i) = true) := by
  obtain ⟨n, hname, hfree, hbefore⟩ := firstFree_uniqueName g base
  rw [Bool.not_eq_true] at hfree
  refine ⟨n, le_size_of_used hbefore, searchRun_iff.2 ⟨by rw [hname], hbefore⟩, ?_, hfree, ?_, ?_⟩
  · intro m s hrun
    obtain ⟨-, hused⟩ := searchRun_iff.1 hrun
    by_contra hlt
    rw [hname, hused n (Nat.lt_of_not_le hlt)] at hfree
    cases hfree
  · intro hbase
    cases n with
    | zero => exact hname
    | succ n =>
      have hused : g.contains base = true := hbefore 0 n.succ_pos
      rw [hused] at hbase
      cases hbase
  · intro hbase
    cases n with
    | zero =>
      rw [hname, nameCandidate, hbase] at hfree
      cases hfree
    | succ n =>
      refine ⟨n.succ_pos, hname, fun i hi hlt => ?_⟩
      obtain ⟨i, rfl⟩ := Nat.exists_eq_add_of_le' hi
      exact hbefore (i + 1) hlt

end Graph

end TensorGraph
