import TensorGraph.Proofs.Applied
import TensorGraph.Proofs.Products

/-!
What operations of two constants of integers compute.

`Elementwise.meaning?` gives the functions of integers that the operations stand for. An element of
the result is the function of the elements at the coordinates aligned with its own
(`Grid.Aligned`), modulo `2 ^ 64` (`Tensor.foldBinary_integers`), and inferring the operation folds
this whenever the shapes broadcast (`Graph.Applied.folds_elementwise`).
-/

namespace TensorGraph

open Edit

/-! ### Functions -/

namespace Elementwise

/-- What a kind of operations computes of two integers, if they were not bounded. -/
def meaning? : String → Option (Int → Int → Int)
  | "Add" => some fun x y => x + y
  | "Multiply" => some fun x y => x * y
  | "Maximum" => some fun x y => max x y
  | "SquaredDifference" => some fun x y => (x - y) ^ 2
  | _ => none

/-- The kinds with a meaning have an entry, and its function wraps the meaning. -/
lemma exists_entry_of_meaning {kind : String} {op : Int → Int → Int}
    (h : meaning? kind = some op) : ∃ f : Binary,
      OpEntry.standard.reverse.find? (·.kind = kind) = some (.ofRule kind (Rules.binary f)) ∧
      ∀ x y : Int64, f.onIntegers x y = Int64.ofInt (op x.toInt y.toInt) := by
  unfold meaning? at h
  split at h <;> cases h
  · exact ⟨.add, rfl, fun x y => by simp [Binary.onIntegers, Int64.ofInt_add]⟩
  · exact ⟨.multiply, rfl, fun x y => by simp [Binary.onIntegers, Int64.ofInt_mul]⟩
  · refine ⟨.maximum, rfl, fun x y => ?_⟩
    simp only [Binary.onIntegers, Int64.lt_iff_toInt_lt]
    split
    · rw [max_eq_right (by omega), Int64.ofInt_toInt]
    · rw [max_eq_left (by omega), Int64.ofInt_toInt]
  · refine ⟨.squaredDifference, rfl, fun x y => ?_⟩
    simp [Binary.onIntegers, pow_two, Int64.ofInt_mul, Int64.ofInt_sub]

end Elementwise

/-! ### Elements -/

namespace Grid

/-- The coordinates `d` in a shape that coordinates `c` in a shape stretched from it stand for:
counted from the right, zero in a dimension of one and the same elsewhere. -/
def Aligned (shape c d : List Nat) : Prop :=
  d.length = shape.length ∧ ∀ i < shape.length,
    d.reverse[i]? = if shape.reverse[i]? = some 1 then some 0 else c.reverse[i]?

lemma aligned_unstretch {shape c : List Nat} (hle : shape.length ≤ c.length) :
    Aligned shape c (unstretch shape c) := by
  have hlen : (unstretch shape c).length = shape.length := by
    simp only [unstretch, List.length_map, List.length_zip, List.length_drop]
    omega
  refine ⟨hlen, fun i hi => ?_⟩
  -- the place from the left in each of the three lists
  have hc : c.length - shape.length + (shape.length - 1 - i) = c.length - 1 - i := by omega
  rw [List.getElem?_reverse (by omega), List.getElem?_reverse (by omega),
    List.getElem?_reverse (by omega), hlen, ← hc, List.getElem?_eq_getElem (by omega),
    List.getElem?_eq_getElem (by omega), List.getElem?_eq_getElem (by omega)]
  simp only [unstretch, List.getElem_map, List.getElem_zip, List.getElem_drop, Option.some.injEq]
  split <;> rfl

lemma Aligned.unique {shape c d d' : List Nat} (h : Aligned shape c d) (h' : Aligned shape c d') :
    d = d' := by
  refine List.reverse_injective (List.ext_getElem? fun i => ?_)
  by_cases hi : i < shape.length
  · rw [h.2 i hi, h'.2 i hi]
  · rw [List.getElem?_eq_none (by rw [List.length_reverse, h.1]; omega),
      List.getElem?_eq_none (by rw [List.length_reverse, h'.1]; omega)]

variable {α : Type} [Inhabited α] {a b g : Grid α} {s : List Nat}

/-- A grid stretched to a shape holds its cells at the coordinates that are aligned. -/
lemma exists_aligned (hi : indexable s = true) (hs : stretches g.shape s = true) :
    ∃ k : Grid α, g.stretch s = .ok k ∧ k.shape = s ∧ ∀ c, Inside s c →
      ∃ d, Aligned g.shape c d ∧ Inside g.shape d ∧ k.read c = g.read d := by
  obtain ⟨k, hk, hshape, hread⟩ := exists_stretch hi hs
  refine ⟨k, by rw [stretch, hk], hshape, fun c hc => ⟨_, aligned_unstretch ?_,
    inside_unstretch hs hc, hread c hc⟩⟩
  have hle := (Bool.and_eq_true_iff.1 hs).1
  rw [← hc.length_eq]
  exact of_decide_eq_true hle

lemma exists_zipStretched (f : α → α → α) (hi : indexable s = true)
    (hsa : stretches a.shape s = true) (hsb : stretches b.shape s = true) :
    ∃ k : Grid α, a.zipStretched f b s = .ok k ∧ k.shape = s ∧ ∀ c, Inside s c →
      ∃ d e, Aligned a.shape c d ∧ Inside a.shape d ∧ Aligned b.shape c e ∧ Inside b.shape e ∧
        k.read c = f (a.read d) (b.read e) := by
  obtain ⟨x, hx, rfl, hreadx⟩ := exists_aligned hi hsa
  obtain ⟨y, hy, -, hready⟩ := exists_aligned hi hsb
  let joined := ofFn x.shape x.fits fun c => f (x.read c) (y.read c)
  refine ⟨joined.laidOut ((a.walk x.shape).zip (b.walk x.shape)), ?_, rfl, fun c hc => ?_⟩
  · unfold zipStretched
    rw [hx, ok_bind, hy, ok_bind]
    rfl
  · obtain ⟨d, hd, hind, hxd⟩ := hreadx c hc
    obtain ⟨e, he, hine, hye⟩ := hready c hc
    refine ⟨d, e, hd, hind, he, hine, ?_⟩
    show joined.read c = _
    rw [read_ofFn hc, hxd, hye]

end Grid

/-! ### Constants -/

/-- The grid of the values of a function of integers, modulo `2 ^ 64`, at aligned coordinates of two
grids. -/
def Grid.Joins (op : Int → Int → Int) (a b c : Grid Int64) : Prop :=
  ∀ coords, Grid.Inside c.shape coords → ∃ i j, Grid.Aligned a.shape coords i ∧
    Grid.Inside a.shape i ∧ Grid.Aligned b.shape coords j ∧ Grid.Inside b.shape j ∧
    c.read coords = Int64.ofInt (op (a.read i).toInt (b.read j).toInt)

section

variable {a b : Grid Int64} {op : Int → Int → Int}

lemma Tensor.exists_foldBinary {f : Elementwise.Binary} {s : Shape}
    (hf : ∀ x y : Int64, f.onIntegers x y = Int64.ofInt (op x.toInt y.toInt))
    (hfits : ∀ t : List Nat, s = t.map Int.ofNat → Grid.indexable t = true)
    (hs : Shape.broadcast [(i64 a).dims, (i64 b).dims] = .ok s) :
    ∃ c : Grid Int64, (i64 a).foldBinary f (i64 b) s = .ok (some (i64 c)) ∧ (i64 c).dims = s ∧
      a.Joins op b c := by
  obtain ⟨t, rfl⟩ := Shape.exists_broadcast_nat hs
  have hi := hfits t rfl
  obtain ⟨hsa, hsb⟩ := Shape.stretches_of_broadcast hs
  obtain ⟨c, hc, hshape, hread⟩ := Grid.exists_zipStretched f.onIntegers hi hsa hsb
  refine ⟨c, ?_, congrArg (List.map Int.ofNat) hshape, fun coords hin => ?_⟩
  · show (a.zipStretched f.onIntegers b (Shape.toSizes (t.map Int.ofNat)) >>= fun g =>
      .ok (some (i64 g))) = _
    rw [Grid.toSizes_map fun d hd => Grid.lt_of_indexable hi hd, hc]
    rfl
  · obtain ⟨i, j, hi, hini, hj, hinj, hval⟩ := hread coords (hshape ▸ hin)
    exact ⟨i, j, hi, hini, hj, hinj, by rw [hval, hf]⟩

/-- **Elementwise operations of constants**: as far as its count of elements fits, inferring an
addition, a multiplication, a maximum or a squared difference of two constants of integers succeeds
exactly when their shapes broadcast. The output is then a constant of the shape they broadcast to,
and each of its elements is the value of the function at the aligned elements, modulo `2 ^ 64`. -/
theorem Graph.Applied.folds_elementwise {g : Graph} {id : NodeId} {o : Operation}
    (ha : g.Applied id o [.ofValue (.i64 a), .ofValue (.i64 b)])
    (hop : Elementwise.meaning? o.kind = some op)
    (hfits : ∀ s : List Nat, Shape.broadcast [(Tensor.i64 a).dims, (Tensor.i64 b).dims] =
      .ok (s.map Int.ofNat) → Grid.indexable s = true) :
    ((∃ changed h, Gives (Registry.standard.inferNode id) g changed h) ↔
      ∃ s, Shape.broadcast [(Tensor.i64 a).dims, (Tensor.i64 b).dims] = .ok s) ∧
    ∀ changed h, Gives (Registry.standard.inferNode id) g changed h → ∃ c : Grid Int64,
      Shape.broadcast [(Tensor.i64 a).dims, (Tensor.i64 b).dims] = .ok (Tensor.i64 c).dims ∧
      a.Joins op b c ∧ ∀ d, g.Output id 0 d → h.fact? d = some (.ofValue (.i64 c)) := by
  obtain ⟨f, hentry, hf⟩ := Elementwise.exists_entry_of_meaning hop
  obtain ⟨s, hgiven, hfollows, -⟩ := ha.follows hentry rfl (by simp [Fact.ofValue])
  obtain ⟨hshape₀, hvalue₀⟩ := hgiven.constant (p := 0) rfl
  obtain ⟨hshape₁, hvalue₁⟩ := hgiven.constant (p := 1) rfl
  -- the rule succeeds when the shapes broadcast, and writes what it has folded
  have hrule (shape : Shape)
      (hshape : Shape.broadcast [(Tensor.i64 a).dims, (Tensor.i64 b).dims] = .ok shape) :
      ∃ c : Grid Int64, (Tensor.i64 c).dims = shape ∧ a.Joins op b c ∧
        (Rules.binary f).eval s = .ok ((), shaped 0 shape (some (.i64 c))) := by
    obtain ⟨c, hc, hdims, hjoins⟩ := Tensor.exists_foldBinary hf
      (fun t ht => hfits t (ht ▸ hshape)) hshape
    exact ⟨c, hdims, hjoins, Rules.eval_binary.2 ⟨_, _, shape, _, _, _, hshape₀, hshape₁, hshape,
      hdims ▸ Tensor.valid_dims _, hvalue₀, hvalue₁, hc, rfl⟩⟩
  have hsucceeds : (∃ changed h, Gives (Registry.standard.inferNode id) g changed h) ↔
      ∃ shape, Shape.broadcast [(Tensor.i64 a).dims, (Tensor.i64 b).dims] = .ok shape := by
    refine hfollows.gives_iff.trans ⟨?_, ?_⟩
    · rintro ⟨ws, hev⟩
      obtain ⟨a', b', shape, -, -, -, ha', hb', hshape, -⟩ := Rules.eval_binary.1 hev
      cases ha'.symm.trans hshape₀
      cases hb'.symm.trans hshape₁
      exact ⟨shape, hshape⟩
    · rintro ⟨shape, hshape⟩
      obtain ⟨c, -, -, hev⟩ := hrule shape hshape
      exact ⟨_, hev⟩
  refine ⟨hsucceeds, fun changed h hx => ?_⟩
  obtain ⟨shape, hshape⟩ := hsucceeds.1 ⟨changed, h, hx⟩
  obtain ⟨c, rfl, hjoins, hev⟩ := hrule shape hshape
  exact ⟨c, hshape, hjoins, fun d hd => hfollows.fact?_folded ha hev hx hd⟩

end

/-- A column and a row, as far apart as integers get. -/
def distantConstants : Edit Unit := do
  let a ← addConst "a" (.i64 ⟨[2, 1], #[-0x8000000000000000, 5], .rows, rfl, rfl, rfl⟩)
  let b ← addConst "b" (.i64 ⟨[2], #[1, 3], .rows, rfl, rfl, rfl⟩)
  discard (wire "y" (.ofKind "SquaredDifference") [a, b])

/-- A difference that does not fit is squared to what is left of it. -/
theorem folds_elementwise_distantConstants :
    let g := (distantConstants.run ∅).graph
    let a : Grid Int64 := ⟨[2, 1], #[-0x8000000000000000, 5], .rows, rfl, rfl, rfl⟩
    let b : Grid Int64 := ⟨[2], #[1, 3], .rows, rfl, rfl, rfl⟩
    ∃ o, g.Applied ⟨4⟩ o [.ofValue (.i64 a), .ofValue (.i64 b)] ∧
      Elementwise.meaning? o.kind = some (fun x y => (x - y) ^ 2) ∧
      ∃ changed h c, Gives (Registry.standard.inferNode ⟨4⟩) g changed h ∧
        h.fact? ⟨5⟩ = some (.ofValue (.i64 c)) ∧ c.shape = [2, 2] ∧ c.read [0, 1] = 9 := by
  intro g a b
  obtain ⟨o, hkind, ha⟩ : ∃ o, o.kind = "SquaredDifference" ∧
      g.Applied ⟨4⟩ o [.ofValue (.i64 a), .ofValue (.i64 b)] := by
    refine ⟨_, rfl, .of_incoming (by decide +kernel) ?_ rfl rfl rfl rfl⟩
    unfold Graph.Apart
    decide +kernel
  have hop : Elementwise.meaning? o.kind = some (fun x y => (x - y) ^ 2) := by rw [hkind]; rfl
  have hdims : Shape.broadcast [(Tensor.i64 a).dims, (Tensor.i64 b).dims] =
      .ok ([2, 2].map Int.ofNat) := by decide
  have heq {s : List Nat} (hs : Shape.broadcast [(Tensor.i64 a).dims, (Tensor.i64 b).dims] =
      .ok (s.map Int.ofNat)) : s = [2, 2] :=
    List.map_injective_iff.2 (fun _ _ => Int.ofNat.inj) (Except.ok.inj (hs.symm.trans hdims))
  obtain ⟨hgives, hfold⟩ := ha.folds_elementwise hop (fun s hs => by rw [heq hs]; rfl)
  obtain ⟨changed, h, hx⟩ := hgives.2 ⟨_, hdims⟩
  obtain ⟨c, hc, hjoins, hout⟩ := hfold changed h hx
  have hshape : c.shape = [2, 2] := heq hc
  have hin : Grid.Inside c.shape [0, 1] := by
    rw [hshape]
    exact ⟨by decide, by decide, trivial⟩
  obtain ⟨i, j, hi, -, hj, -, hval⟩ := hjoins [0, 1] hin
  refine ⟨o, ha, hop, changed, h, c, hx, hout ⟨5⟩ ?_, hshape, ?_⟩
  · unfold Graph.Output
    decide +kernel
  · rw [hval, hi.unique (Grid.aligned_unstretch (by decide)),
      hj.unique (Grid.aligned_unstretch (by decide))]
    decide

end TensorGraph
