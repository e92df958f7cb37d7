import Mathlib.Data.List.Forall2
import TensorGraph.Inference.Rules.Gather
import TensorGraph.Proofs.Structure
import TensorGraph.Shape.Product
import TensorGraph.Shape.Reshape
import TensorGraph.Shape.Unsqueeze

/-!
Shapes that know less.

`Shape.Coarser a b` says that `a` is `b` with some dimensions unknown. The functions of shapes
succeed on coarser shapes where they succeed on finer ones, and give coarser ones.
-/

namespace TensorGraph.Shape

variable {a a' b b' : Shape}

/-- A dimension that is unknown or the other one. -/
def DimCoarser (x y : Int) : Prop := x = -1 ∨ x = y

/-- The shapes have the same rank, and each dimension is unknown or that of the other. -/
def Coarser (a b : Shape) : Prop := List.Forall₂ DimCoarser a b

lemma DimCoarser.refl (x : Int) : DimCoarser x x := Or.inr rfl

lemma Coarser.refl (a : Shape) : Coarser a a := List.forall₂_same.2 fun x _ => .refl x

lemma Coarser.length (h : Coarser a b) : a.length = b.length := h.length_eq

lemma Coarser.append (h : Coarser a b) (h' : Coarser a' b') : Coarser (a ++ a') (b ++ b') :=
  List.rel_append h h'

lemma Coarser.reverse (h : Coarser a b) : Coarser a.reverse b.reverse := List.rel_reverse h

lemma coarser_replicate (b : Shape) : Coarser (List.replicate b.length (-1)) b := by
  induction b with
  | nil => exact .nil
  | cons d b ih => exact .cons (Or.inl rfl) ih

lemma Coarser.getD (h : Coarser a b) (i : Nat) (d : Int) :
    DimCoarser (a.getD i d) (b.getD i d) := by
  induction h generalizing i with
  | nil => exact .refl _
  | cons hd _ ih =>
    cases i with
    | zero => exact hd
    | succ i => exact ih i

lemma Coarser.getElem? (h : Coarser a b) {i : Nat} {x : Int} (hx : a[i]? = some x) :
    ∃ y, b[i]? = some y ∧ DimCoarser x y := by
  induction h generalizing i with
  | nil => cases hx
  | cons hd _ ih =>
    cases i with
    | zero =>
      cases hx
      exact ⟨_, rfl, hd⟩
    | succ i => exact ih hx

lemma Coarser.set (h : Coarser a b) {i : Nat} {x : Int} (hi : ∀ y, a[i]? = some y → y = -1) :
    Coarser a (b.set i x) := by
  induction h generalizing i with
  | nil => exact .nil
  | cons hd hrest ih =>
    cases i with
    | zero => exact .cons (Or.inl (hi _ rfl)) hrest
    | succ i => exact .cons hd (ih hi)

lemma Coarser.insertIdx (h : Coarser a b) (i : Nat) (x : Int) :
    Coarser (a.insertIdx i x) (b.insertIdx i x) := by
  induction h generalizing i with
  | nil =>
    cases i with
    | zero => exact .refl _
    | succ i => exact .refl _
  | cons hd hrest ih =>
    cases i with
    | zero => exact .cons (.refl x) (.cons hd hrest)
    | succ i => exact .cons hd (ih i)

/-- A shape that knows all dimensions is no coarser than itself. -/
lemma Coarser.eq_of_known (h : Coarser a b) (ha : hasUnknown a = false) : a = b := by
  induction h with
  | nil => rfl
  | @cons x y l l' hd _ ih =>
    simp only [hasUnknown, List.any_cons, Bool.or_eq_false_iff, decide_eq_false_iff_not] at ha
    rcases hd with rfl | rfl
    · exact absurd (by decide) ha.1
    · rw [ih ha.2]

/-- The dimensions that are not below `-1` stay so. -/
lemma Coarser.valid (h : Coarser a b) (hb : ∀ d ∈ b, -1 ≤ d) : ∀ d ∈ a, -1 ≤ d := by
  induction h with
  | nil => simp
  | cons hd _ ih =>
    intro d hmem
    rcases List.mem_cons.1 hmem with rfl | hmem
    · rcases hd with rfl | rfl
      · exact Int.le_refl _
      · exact hb _ (List.mem_cons_self ..)
    · exact ih (fun e he => hb e (List.mem_cons_of_mem _ he)) d hmem

/-! ### Traversals -/

/-- A traversal succeeds where one with related steps does, with related results. -/
lemma mapM_rel {α β γ : Type} {R : β → γ → Prop} {f : α → Except Error β}
    {f' : α → Except Error γ} {l : List α}
    (hf : ∀ x ∈ l, ∀ y, f' x = .ok y → ∃ z, f x = .ok z ∧ R z y) {ys : List γ}
    (hys : l.mapM f' = .ok ys) : ∃ zs, l.mapM f = .ok zs ∧ List.Forall₂ R zs ys := by
  induction l generalizing ys with
  | nil =>
    cases hys
    exact ⟨[], rfl, .nil⟩
  | cons x l ih =>
    rw [List.mapM_cons] at hys
    obtain ⟨y, hy, hys⟩ := bind_eq_ok.1 hys
    obtain ⟨ys', hys', heq⟩ := bind_eq_ok.1 hys
    cases heq
    obtain ⟨z, hz, hR⟩ := hf x (List.mem_cons_self ..) y hy
    obtain ⟨zs, hzs, hRs⟩ := ih (fun x hx => hf x (List.mem_cons_of_mem _ hx)) hys'
    refine ⟨z :: zs, ?_, .cons hR hRs⟩
    rw [List.mapM_cons, hz, ok_bind, hzs]
    rfl

/-- The results of a traversal are those of its steps. -/
lemma forall₂_of_mapM {α β : Type} {f : α → Except Error β} {l : List α} {ys : List β}
    (h : l.mapM f = .ok ys) : List.Forall₂ (fun x y => f x = .ok y) l ys := by
  induction l generalizing ys with
  | nil =>
    cases h
    exact .nil
  | cons x l ih =>
    rw [List.mapM_cons] at h
    obtain ⟨y, hy, h⟩ := bind_eq_ok.1 h
    obtain ⟨ys', hys', heq⟩ := bind_eq_ok.1 h
    cases heq
    exact .cons hy (ih hys')

/-! ### Broadcasting -/

lemma broadcastDim_coarser {x x' y y' z' : Int} (hx : DimCoarser x x') (hy : DimCoarser y y')
    (hz : broadcastDim x' y' = some z') : ∃ z, broadcastDim x y = some z ∧ DimCoarser z z' := by
  unfold broadcastDim at hz ⊢
  unfold DimCoarser at *
  rcases hx with rfl | rfl <;> rcases hy with rfl | rfl
  · exact ⟨-1, by simp, Or.inl rfl⟩
  · by_cases h₁ : (-1 : Int) = y
    · exact ⟨-1, by simp [h₁], Or.inl rfl⟩
    · by_cases h₂ : y = 1
      · exact ⟨-1, by simp [h₂], Or.inl rfl⟩
      · refine ⟨y, by simp [h₁, h₂], ?_⟩
        rw [if_neg h₂, if_neg (Ne.symm h₁)] at hz
        grind
  · by_cases h₁ : x = -1
    · exact ⟨-1, by simp [h₁], Or.inl rfl⟩
    · by_cases h₂ : x = 1
      · exact ⟨-1, by simp [h₂], Or.inl rfl⟩
      · refine ⟨x, by simp [h₁, h₂], ?_⟩
        rw [if_neg h₂, if_neg h₁] at hz
        grind
  · exact ⟨z', hz, Or.inr rfl⟩

lemma broadcastAxis_coarser {shapes shapes' : List Shape} {acc acc' : Int} {ds ds' : List Int}
    (hacc : DimCoarser acc acc') (hds : List.Forall₂ DimCoarser ds ds') {z' : Int}
    (hz : broadcastAxis shapes' acc' ds' = .ok z') :
    ∃ z, broadcastAxis shapes acc ds = .ok z ∧ DimCoarser z z' := by
  induction hds generalizing acc acc' with
  | nil =>
    cases hz
    exact ⟨acc, rfl, hacc⟩
  | @cons d d' ds ds' hd _ ih =>
    rw [broadcastAxis] at hz ⊢
    rcases hb : broadcastDim acc' d' with _ | e'
    · rw [hb] at hz
      cases hz
    · rw [hb] at hz
      obtain ⟨e, he, hee⟩ := broadcastDim_coarser hacc hd hb
      rw [he]
      exact ih hee hz

lemma Coarser.fromRight (h : Coarser a b) (i : Nat) : DimCoarser (fromRight a i) (fromRight b i) :=
  h.reverse.getD i 1

lemma maxRank_coarser {shapes shapes' : List Shape} (h : List.Forall₂ Coarser shapes shapes') :
    maxRank shapes = maxRank shapes' := by
  unfold maxRank
  generalize 0 = r
  induction h generalizing r with
  | nil => rfl
  | cons hd _ ih =>
    rw [List.foldl_cons, List.foldl_cons, hd.length]
    exact ih _

lemma broadcast_coarser {shapes shapes' : List Shape} (h : List.Forall₂ Coarser shapes shapes')
    {c' : Shape} (hc : broadcast shapes' = .ok c') :
    ∃ c, broadcast shapes = .ok c ∧ Coarser c c' := by
  unfold broadcast at hc ⊢
  obtain ⟨dims', hdims', heq⟩ := bind_eq_ok.1 hc
  cases heq
  rw [maxRank_coarser h]
  obtain ⟨dims, hdims, hrel⟩ := mapM_rel (R := DimCoarser)
    (f := fun i => broadcastAxis shapes 1 (shapes.map fun s => Shape.fromRight s i))
    (fun i _ z hz => broadcastAxis_coarser (.refl 1)
      (List.forall₂_map_left_iff.2 (List.forall₂_map_right_iff.2
        (h.imp fun _ _ hs => hs.fromRight i))) hz) hdims'
  rw [hdims]
  exact ⟨dims.reverse, rfl, List.rel_reverse hrel⟩

/-! ### Products -/

lemma matrices?_coarser (h : Coarser a a') (t : Bool) (side : Side) {batch' : Shape} {m' n' : Int}
    (hm : matrices? a' t side = some (batch', m', n')) :
    ∃ batch m n, matrices? a t side = some (batch, m, n) ∧ Coarser batch batch' ∧
      DimCoarser m m' ∧ DimCoarser n n' := by
  have hrev := h.reverse
  unfold matrices? at hm ⊢
  generalize a.reverse = l at hrev
  generalize a'.reverse = l' at hrev hm
  rcases hrev with _ | ⟨hn, _ | ⟨hm', hbatch⟩⟩
  · cases hm
  · cases side
    · cases hm
      exact ⟨[], 1, _, rfl, .nil, .refl 1, hn⟩
    · cases hm
      exact ⟨[], _, 1, rfl, .nil, hn, .refl 1⟩
  · cases t
    · cases hm
      exact ⟨_, _, _, rfl, List.rel_reverse hbatch, hm', hn⟩
    · cases hm
      exact ⟨_, _, _, rfl, List.rel_reverse hbatch, hn, hm'⟩

lemma product_coarser (ha : Coarser a a') (hb : Coarser b b') {tA tB : Bool} {c' : Shape}
    (hc : product a' b' tA tB = .ok c') : ∃ c, product a b tA tB = .ok c ∧ Coarser c c' := by
  unfold product at hc ⊢
  rcases hA' : matrices? a' tA .left with _ | ⟨batchA', m', iA'⟩
  · rw [hA'] at hc
    cases hc
  rcases hB' : matrices? b' tB .right with _ | ⟨batchB', iB', n'⟩
  · rw [hA', hB'] at hc
    cases hc
  obtain ⟨batchA, m, iA, hA, hbatchA, hm, hiA⟩ := matrices?_coarser ha tA .left hA'
  obtain ⟨batchB, iB, n, hB, hbatchB, hiB, hn⟩ := matrices?_coarser hb tB .right hB'
  rw [hA', hB'] at hc
  rw [hA, hB]
  simp only [bind_eq_ok, Edit.ensure_eq_ok] at hc ⊢
  obtain ⟨_, hinner, batch', hbatch', hc⟩ := hc
  cases hc
  obtain ⟨batch, hbatch, hcoarser⟩ := broadcast_coarser (.cons hbatchA (.cons hbatchB .nil)) hbatch'
  refine ⟨_, ⟨(), ?_, batch, hbatch, rfl⟩, ?_⟩
  · unfold DimCoarser at hiA hiB
    omega
  · rw [ha.length, hb.length]
    refine (hcoarser.append ?_).append ?_
    · split
      · exact .cons hm .nil
      · exact .nil
    · split
      · exact .cons hn .nil
      · exact .nil

/-! ### Patterns of reshapes -/

lemma readPattern_coarser (h : Coarser a a') {pattern : Shape} {zero wild : Bool} {i : Nat}
    {ds c' : Shape} (hc : readPattern a' pattern zero wild i ds = .ok c') :
    ∃ c, readPattern a pattern zero wild i ds = .ok c ∧ Coarser c c' := by
  induction ds generalizing wild i c' with
  | nil =>
    cases hc
    exact ⟨[], rfl, .nil⟩
  | cons d ds ih =>
    unfold readPattern at hc ⊢
    split at hc
    · -- a dimension of the input is copied
      rcases hi' : a'[i]? with _ | e'
      · rw [hi'] at hc
        cases hc
      · rw [hi'] at hc
        obtain ⟨hlt', rfl⟩ := List.getElem?_eq_some_iff.1 hi'
        have hlt : i < a.length := h.length ▸ hlt'
        obtain ⟨rest', hrest', hc⟩ := bind_eq_ok.1 hc
        cases hc
        obtain ⟨rest, hrest, hcoarser⟩ := ih hrest'
        rw [if_pos ‹_›, List.getElem?_eq_getElem hlt]
        refine ⟨a[i] :: rest, ?_, .cons ?_ hcoarser⟩
        · show (readPattern a pattern zero wild (i + 1) ds >>= _) = _
          rw [hrest]
          rfl
        · exact h.get hlt hlt'
    · rw [if_neg ‹_›]
      split at hc
      · rw [if_pos ‹_›]
        obtain ⟨u, hensure, hc⟩ := bind_eq_ok.1 hc
        obtain ⟨rest', hrest', hc⟩ := bind_eq_ok.1 hc
        cases hc
        obtain ⟨rest, hrest, hcoarser⟩ := ih hrest'
        exact ⟨-1 :: rest, bind_eq_ok.2 ⟨u, hensure, bind_eq_ok.2 ⟨rest, hrest, rfl⟩⟩,
          .cons (.refl _) hcoarser⟩
      · rw [if_neg ‹_›]
        obtain ⟨u, hensure, hc⟩ := bind_eq_ok.1 hc
        obtain ⟨rest', hrest', hc⟩ := bind_eq_ok.1 hc
        cases hc
        obtain ⟨rest, hrest, hcoarser⟩ := ih hrest'
        exact ⟨d :: rest, bind_eq_ok.2 ⟨u, hensure, bind_eq_ok.2 ⟨rest, hrest, rfl⟩⟩,
          .cons (.refl _) hcoarser⟩

/-- What is read off a pattern has its length, and a `-1` stays. -/
lemma readPattern_spec {input pattern : Shape} {zero wild : Bool} {i : Nat} {ds r : Shape}
    (hc : readPattern input pattern zero wild i ds = .ok r) :
    r.length = ds.length ∧ ∀ j : Nat, ds[j]? = some (-1) → r[j]? = some (-1) := by
  induction ds generalizing wild i r with
  | nil =>
    cases hc
    exact ⟨rfl, by simp⟩
  | cons d ds ih =>
    -- the head of the result, and where it may be copied from
    have hstep : ∀ {e : Int} {wild' : Bool} {rest : Shape},
        readPattern input pattern zero wild' (i + 1) ds = .ok rest → (d = -1 → e = -1) →
        (e :: rest).length = (d :: ds).length ∧
          ∀ j : Nat, (d :: ds)[j]? = some (-1) → (e :: rest)[j]? = some (-1) := by
      intro e wild' rest hrest he
      obtain ⟨hlen, hget⟩ := ih hrest
      refine ⟨congrArg Nat.succ hlen, fun j hj => ?_⟩
      cases j with
      | zero => exact congrArg some (he (Option.some.inj hj))
      | succ j => exact hget j hj
    unfold readPattern at hc
    split at hc
    · next hd =>
      split at hc
      · obtain ⟨rest, hrest, hc⟩ := bind_eq_ok.1 hc
        cases hc
        refine hstep hrest fun hd' => ?_
        rw [hd.1] at hd'
        cases hd'
      · cases hc
    · split at hc
      · obtain ⟨u, hensure, hc⟩ := bind_eq_ok.1 hc
        obtain ⟨rest, hrest, hc⟩ := bind_eq_ok.1 hc
        cases hc
        exact hstep hrest fun _ => rfl
      · next hd =>
        obtain ⟨u, hensure, hc⟩ := bind_eq_ok.1 hc
        obtain ⟨rest, hrest, hc⟩ := bind_eq_ok.1 hc
        cases hc
        exact hstep hrest fun hd' => hd'

lemma getElem?_of_wildcard? {pattern : Shape} {i : Nat} (h : wildcard? pattern = some i) :
    pattern[i]? = some (-1) := by
  unfold wildcard? at h
  obtain ⟨hlt, hd, -⟩ := List.findIdx?_eq_some_iff_getElem.1 h
  rw [List.getElem?_eq_getElem hlt, of_decide_eq_true hd]

lemma reshape_coarser (h : Coarser a a') {pattern : Shape} {zero : Bool} {c' : Shape}
    (hc : reshape a' pattern zero = .ok c') :
    ∃ c, reshape a pattern zero = .ok c ∧ Coarser c c' := by
  unfold reshape at hc ⊢
  obtain ⟨shape', hread', hc⟩ := bind_eq_ok.1 hc
  obtain ⟨shape, hread, hcoarser⟩ := readPattern_coarser h hread'
  rw [hread, ok_bind]
  rcases ha : hasUnknown a with _ | _
  · -- all dimensions are known, so the inputs are the same
    obtain rfl := h.eq_of_known ha
    rw [hread', Except.ok.injEq] at hread
    subst hread
    rw [ha] at hc
    exact ⟨c', hc, .refl c'⟩
  · refine ⟨shape, rfl, ?_⟩
    split at hc
    · cases hc
      exact hcoarser
    · obtain ⟨total, -, hc⟩ := bind_eq_ok.1 hc
      split at hc
      · -- the `-1` has been given a dimension
        next i hi =>
        obtain ⟨known, -, hc⟩ := bind_eq_ok.1 hc
        obtain ⟨_, -, hc⟩ := bind_eq_ok.1 hc
        cases hc
        refine hcoarser.set fun y hy => ?_
        rw [(readPattern_spec hread).2 i (getElem?_of_wildcard? hi), Option.some.injEq] at hy
        exact hy.symm
      · obtain ⟨known, -, hc⟩ := bind_eq_ok.1 hc
        obtain ⟨_, -, hc⟩ := bind_eq_ok.1 hc
        cases hc
        exact hcoarser

lemma length_reshape {pattern : Shape} {zero : Bool} {c : Shape}
    (hc : reshape a pattern zero = .ok c) : c.length = pattern.length := by
  unfold reshape at hc
  obtain ⟨shape, hread, hc⟩ := bind_eq_ok.1 hc
  have hlen := (readPattern_spec hread).1
  split at hc
  · cases hc
    exact hlen
  · obtain ⟨total, -, hc⟩ := bind_eq_ok.1 hc
    split at hc
    · obtain ⟨known, -, hc⟩ := bind_eq_ok.1 hc
      obtain ⟨_, -, hc⟩ := bind_eq_ok.1 hc
      cases hc
      rw [List.length_set, hlen]
    · obtain ⟨known, -, hc⟩ := bind_eq_ok.1 hc
      obtain ⟨_, -, hc⟩ := bind_eq_ok.1 hc
      cases hc
      exact hlen

/-- How a new shape is accepted: as it is where the old one is not known, and otherwise with what
the known dimensions leave in place of a `-1`, or with as many elements. -/
lemma sparseReshape_cases {new c : Shape} (hc : sparseReshape a new = .ok c) :
    hasUnknown a = true ∧ c = new ∨
      hasUnknown a = false ∧ new.count (-1) ≤ 1 ∧ ∃ total known, volume a = .ok total ∧
        volume (new.filter (· ≠ -1)) = .ok known ∧
        ((∃ i, wildcard? new = some i ∧ known ≠ 0 ∧ total % known = 0 ∧
            c = new.set i (total / known)) ∨
          wildcard? new = none ∧ known = total ∧ c = new) := by
  unfold sparseReshape at hc
  rcases hbad : new.find? (· < -1) with _ | bad
  · simp only [hbad] at hc
    obtain ⟨_, hone, hc⟩ := bind_eq_ok.1 hc
    split at hc
    · next hunknown =>
      cases hc
      exact .inl ⟨hunknown, rfl⟩
    · next hknown =>
      obtain ⟨total, htotal, hc⟩ := bind_eq_ok.1 hc
      obtain ⟨known, hfilter, hc⟩ := bind_eq_ok.1 hc
      refine .inr ⟨Bool.eq_false_iff.2 hknown, Edit.ensure_eq_ok.1 hone, total, known, htotal,
        hfilter, ?_⟩
      split at hc
      · next i hi =>
        obtain ⟨_, hensure, hc⟩ := bind_eq_ok.1 hc
        obtain ⟨hne, hmod⟩ := Edit.ensure_eq_ok.1 hensure
        cases hc
        exact .inl ⟨i, hi, hne, hmod, rfl⟩
      · next hi =>
        obtain ⟨_, hensure, hc⟩ := bind_eq_ok.1 hc
        cases hc
        exact .inr ⟨hi, Edit.ensure_eq_ok.1 hensure, rfl⟩
  · simp only [hbad] at hc
    cases hc

lemma length_sparseReshape {new c : Shape} (hc : sparseReshape a new = .ok c) :
    c.length = new.length := by
  rcases sparseReshape_cases hc with ⟨-, rfl⟩ | ⟨-, -, total, known, -, -, h⟩
  · rfl
  · rcases h with ⟨i, -, -, -, rfl⟩ | ⟨-, -, rfl⟩
    · exact List.length_set
    · rfl

/-! ### Unit axes -/

lemma unsqueeze_eq_ok {axes : List Int} {c : Shape} {normalized : List Nat} :
    unsqueeze a axes = .ok (c, normalized) ↔
      axes.mapM (normalizeAxis · (signed (a.length + axes.length))) = .ok normalized ∧
        repeated? (ascending normalized) = none ∧
        c = (ascending normalized).foldl (fun s i => s.insertIdx i 1) a := by
  unfold unsqueeze
  rw [bind_eq_ok]
  constructor
  · rintro ⟨l, hl, hc⟩
    simp only at hc
    split at hc
    · cases hc
    · next hrep =>
      cases hc
      exact ⟨hl, hrep, rfl⟩
  · rintro ⟨hl, hrep, rfl⟩
    refine ⟨normalized, hl, ?_⟩
    simp only
    rw [hrep]
    rfl

lemma foldl_insertIdx_coarser (h : Coarser a b) (l : List Nat) :
    Coarser (l.foldl (fun s i => s.insertIdx i 1) a) (l.foldl (fun s i => s.insertIdx i 1) b) := by
  induction l generalizing a b with
  | nil => exact h
  | cons i l ih => exact ih (h.insertIdx i 1)

lemma unsqueeze_coarser (h : Coarser a a') {axes : List Int} {c' : Shape} {normalized : List Nat}
    (hc : unsqueeze a' axes = .ok (c', normalized)) :
    ∃ c, unsqueeze a axes = .ok (c, normalized) ∧ Coarser c c' := by
  obtain ⟨hnorm, hrep, rfl⟩ := unsqueeze_eq_ok.1 hc
  refine ⟨_, unsqueeze_eq_ok.2 ⟨h.length ▸ hnorm, hrep, rfl⟩, foldl_insertIdx_coarser h _⟩

end TensorGraph.Shape

namespace TensorGraph.Rules

variable {a a' b b' : Shape}

lemma forM_eq_ok {α : Type} {l : List α} {f : α → Except Error Unit} :
    l.forM f = .ok () ↔ ∀ x ∈ l, f x = .ok () := by
  induction l with
  | nil => simp [pure, Except.pure]
  | cons x l ih =>
    show (f x >>= fun _ => l.forM f) = .ok () ↔ _
    rw [bind_eq_ok, List.forall_mem_cons, ← ih]
    exact ⟨fun ⟨_, hx, hl⟩ => ⟨hx, hl⟩, fun ⟨hx, hl⟩ => ⟨(), hx, hl⟩⟩

lemma checkGatherAxes_eq_ok {axis : Nat} {data indices : Shape} :
    checkGatherAxes axis data indices = .ok () ↔ ∀ (i : Nat) (x y : Int), data[i]? = some x →
      indices[i]? = some y → i = axis ∨ x < 0 ∨ y < 0 ∨ x = y := by
  unfold checkGatherAxes
  rw [forM_eq_ok]
  constructor
  · intro h i x y hx hy
    exact Edit.ensure_eq_ok.1 (h ((x, y), i) (List.mk_mem_zipIdx_iff_getElem?.2
      (List.getElem?_zip_eq_some.2 ⟨hx, hy⟩)))
  · rintro h ⟨⟨x, y⟩, i⟩ hmem
    obtain ⟨hx, hy⟩ := List.getElem?_zip_eq_some.1 (List.mk_mem_zipIdx_iff_getElem?.1 hmem)
    exact Edit.ensure_eq_ok.2 (h i x y hx hy)

lemma checkGatherAxes_coarser {axis : Nat} (ha : a.Coarser a') (hb : b.Coarser b')
    (h : checkGatherAxes axis a' b' = .ok ()) : checkGatherAxes axis a b = .ok () := by
  rw [checkGatherAxes_eq_ok] at h ⊢
  intro i x y hx hy
  obtain ⟨x', hx', hxx⟩ := ha.getElem? hx
  obtain ⟨y', hy', hyy⟩ := hb.getElem? hy
  have := h i x' y' hx' hy'
  unfold Shape.DimCoarser at hxx hyy
  omega

end TensorGraph.Rules
