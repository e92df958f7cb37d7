import TensorGraph.Graph.Compare
import TensorGraph.Proofs.Broadcasts
import TensorGraph.Proofs.Elementwise
import TensorGraph.Proofs.Floats

/-!
Operations with their inputs exchanged.

Sums and products of floats are the same in either order (`add_swap`, `mul_swap`), and so is the
greater of two that compare. The maximum of a number and of something that is not a number is the
second of the two, whichever it is (`sameNumber_maximum`). Of the operations that are compared
without regard to the order of their inputs this is all that the order is seen in
(`Graph.Applied.folds_swapped`).
-/

namespace TensorGraph

open Edit

/-! ### Floats -/

section

open Float.Model UnpackedFloat

variable {spec : Format} {x y : UnpackedFloat}

lemma add_swap (x y : UnpackedFloat) :
    UnpackedFloat.add spec x y = UnpackedFloat.add spec y x := by
  cases x with
  | notANumber => cases y <;> rfl
  | infinity s =>
    cases y with
    | infinity t => cases s <;> cases t <;> rfl
    | notANumber | zero | finite => rfl
  | zero s =>
    cases y with
    | zero t => cases s <;> cases t <;> rfl
    | infinity | notANumber | finite => rfl
  | finite s m e hm =>
    cases y with
    | finite t n f hn =>
      unfold UnpackedFloat.add
      dsimp only
      rw [Int.min_comm, Int.add_comm]
    | infinity | notANumber | zero => rfl

lemma mul_swap (x y : UnpackedFloat) :
    UnpackedFloat.mul spec x y = UnpackedFloat.mul spec y x := by
  have hsign (s t : Sign) : s * t = t * s := by cases s <;> cases t <;> rfl
  cases x with
  | notANumber => cases y <;> rfl
  | infinity s =>
    cases y with
    | notANumber | zero => rfl
    | infinity t | finite t => exact congrArg infinity (hsign s t)
  | zero s =>
    cases y with
    | notANumber | infinity => rfl
    | zero t | finite t => exact congrArg zero (hsign s t)
  | finite s m e hm =>
    cases y with
    | notANumber => rfl
    | infinity t => exact congrArg infinity (hsign s t)
    | zero t => exact congrArg zero (hsign s t)
    | finite t n f hn =>
      show roundWithAccuracy spec (s * t) (m * n) (e + f) .exact =
        roundWithAccuracy spec (t * s) (n * m) (f + e) .exact
      rw [hsign, Nat.mul_comm, Int.add_comm]

lemma compare_swap (x y : UnpackedFloat) : y.compare x = (x.compare y).map Ordering.swap := by
  have hsign (s t : Sign) : compare t s = (compare s t).swap := by cases s <;> cases t <;> rfl
  have hnat (m n : Nat) : compare n m = (compare m n).swap := (Nat.compare_swap ..).symm
  have hint (m n : Int) : compare n m = (compare m n).swap := (Int.compare_swap ..).symm
  cases x with
  | notANumber => cases y <;> rfl
  | infinity s =>
    cases y with
    | infinity t => exact congrArg some (hsign s t)
    | notANumber | zero | finite => cases s <;> rfl
  | zero s =>
    cases y with
    | finite t | infinity t => cases t <;> rfl
    | zero | notANumber => rfl
  | finite s m e hm =>
    cases y with
    | finite t n f hn =>
      have hthen : (compare f e).then (compare n m) = ((compare e f).then (compare m n)).swap := by
        rw [Ordering.swap_then, ← hint, ← hnat]
      cases s with
      | negative =>
        cases t with
        | negative => exact congrArg (fun o => some o.swap) hthen
        | positive => rfl
      | positive =>
        cases t with
        | negative => rfl
        | positive => exact congrArg some hthen
    | notANumber => rfl
    | zero => cases s <;> rfl
    | infinity t => cases t <;> rfl

/-- Numbers compare. -/
lemma exists_compare (hx : x.isNaN = false) (hy : y.isNaN = false) :
    ∃ o, x.compare y = some o := by
  cases x with
  | notANumber => cases hx
  | infinity s =>
    cases y with
    | notANumber => cases hy
    | infinity | zero | finite => cases s <;> exact ⟨_, rfl⟩
  | zero s =>
    cases y with
    | notANumber => cases hy
    | zero => exact ⟨_, rfl⟩
    | infinity t | finite t => cases t <;> exact ⟨_, rfl⟩
  | finite s =>
    cases y with
    | notANumber => cases hy
    | zero => cases s <;> exact ⟨_, rfl⟩
    | infinity t | finite t => cases s <;> cases t <;> exact ⟨_, rfl⟩

lemma compare_of_isNaN (h : x.isNaN = true ∨ y.isNaN = true) : x.compare y = none := by
  rcases h with h | h
  · cases x <;> first | rfl | cases h
  · cases y <;> first | cases x <;> rfl | cases h

end

lemma le_iff_compare {x y : Float32} :
    x ≤ y ↔ (x.toModel.unpack.compare y.toModel.unpack).any (·.isLE) = true :=
  decide_eq_true_iff

/-- The two are the same number, zeros of either sign included, or neither is a number. -/
def SameNumber (x y : Float32) : Prop := (x == y) = true ∨ x.isNaN = true ∧ y.isNaN = true

lemma SameNumber.refl (x : Float32) : SameNumber x x := by
  rcases h : x.isNaN with _ | _
  · exact .inl (beq_self (x := x.toModel.unpack) h)
  · exact .inr ⟨h, h⟩

namespace Elementwise.Binary

lemma onFloats_swap {f : Binary} (hf : f = add ∨ f = multiply) (x y : Float32) :
    f.onFloats x y = f.onFloats y x := by
  rcases hf with rfl | rfl
  · exact congrArg (fun u => Float32.ofModel (.pack u)) (add_swap ..)
  · exact congrArg (fun u => Float32.ofModel (.pack u)) (mul_swap ..)

/-- Of two that do not compare the maximum is the second, -/
lemma maximum_of_isNaN {x y : Float32} (h : x.isNaN = true ∨ y.isNaN = true) :
    maximum.onFloats x y = y := by
  refine if_neg fun hle => ?_
  rw [ge_iff_le, le_iff_compare, compare_of_isNaN h.symm] at hle
  cases hle

/-- and else the greater one, the first if they are equal. -/
lemma maximum_of_compare {x y : Float32} {o : Ordering}
    (h : x.toModel.unpack.compare y.toModel.unpack = some o) :
    maximum.onFloats x y = if o = .lt then y else x := by
  have hle : x ≥ y ↔ o ≠ .lt := by
    rw [ge_iff_le, le_iff_compare, compare_swap, h]
    cases o <;> decide
  by_cases ho : o = .lt
  · rw [if_pos ho]
    exact if_neg fun h => hle.1 h ho
  · rw [if_neg ho]
    exact if_pos (hle.2 ho)

/-- The maximum depends on the order exactly when one of the two is a number and the other not. -/
lemma sameNumber_maximum {x y : Float32} :
    SameNumber (maximum.onFloats x y) (maximum.onFloats y x) ↔ x.isNaN = y.isNaN := by
  by_cases hnan : x.isNaN = true ∨ y.isNaN = true
  · have hne : ¬(y == x) = true := fun heq => by
      have hcompare : y.toModel.unpack.compare x.toModel.unpack = some .eq := beq_eq_true.1 heq
      rw [compare_of_isNaN hnan.symm] at hcompare
      cases hcompare
    rw [maximum_of_isNaN hnan, maximum_of_isNaN hnan.symm, SameNumber, or_iff_right hne]
    cases hx : x.isNaN <;> cases hy : y.isNaN <;> simp_all
  · obtain ⟨hx, hy⟩ : x.isNaN = false ∧ y.isNaN = false := by simpa using hnan
    obtain ⟨o, ho⟩ := exists_compare hx hy
    have ho' := compare_swap x.toModel.unpack y.toModel.unpack
    rw [ho, Option.map_some] at ho'
    refine iff_of_true ?_ (hx.trans hy.symm)
    rw [maximum_of_compare ho, maximum_of_compare ho']
    cases o with
    | lt => exact .refl y
    | eq => exact .inl (beq_eq_true.2 ho)
    | gt => exact .refl x

end Elementwise.Binary

/-! ### Grids -/

lemma Shape.broadcast_swap {a b c : Shape} (h : broadcast [a, b] = .ok c) :
    broadcast [b, a] = .ok c :=
  broadcast_eq_ok.2 ((broadcast_eq_ok.1 h).perm (.swap ..))

namespace Grid

variable {α : Type} [Inhabited α] {a b k : Grid α} {s : List Nat} {f : α → α → α}

lemma stretches_of_stretch (h : a.stretch s = .ok k) :
    indexable s = true ∧ stretches a.shape s = true := by
  unfold stretch stretch? at h
  split at h
  · next hk =>
    split at hk
    · next hi => exact hi
    · cases hk
  · cases h

lemma order_zipStretched (h : a.zipStretched f b s = .ok k) :
    k.order = ((a.walk s).zip (b.walk s)).settled s := by
  obtain ⟨x, hx, hrest⟩ := bind_eq_ok.1 h
  obtain ⟨y, -, hk⟩ := bind_eq_ok.1 hrest
  cases hk
  show MemoryOrder.settled _ x.shape = _
  rw [shape_of_stretch hx]

/-- Two grids that can be joined can also be joined the other way round, with the same order in
memory, and each pair of elements then goes to the function the other way round. -/
lemma exists_zipStretched_swap (h : a.zipStretched f b s = .ok k) :
    ∃ k', b.zipStretched f a s = .ok k' ∧ k'.shape = k.shape ∧ k'.order = k.order ∧
      ∀ c, Inside k.shape c →
      ∃ i j, Aligned a.shape c i ∧ Aligned b.shape c j ∧
        k.read c = f (a.read i) (b.read j) ∧ k'.read c = f (b.read j) (a.read i) := by
  obtain ⟨x, hx, hrest⟩ := bind_eq_ok.1 h
  obtain ⟨y, hy, -⟩ := bind_eq_ok.1 hrest
  obtain ⟨hi, hsa⟩ := stretches_of_stretch hx
  obtain ⟨-, hsb⟩ := stretches_of_stretch hy
  obtain ⟨k₁, hk, hshape, hread⟩ := exists_zipStretched f hi hsa hsb
  obtain ⟨k', hk', hshape', hread'⟩ := exists_zipStretched f hi hsb hsa
  cases h.symm.trans hk
  have horder : k'.order = k.order := by
    rw [order_zipStretched h, order_zipStretched hk', Walk.zip_comm]
  refine ⟨k', hk', hshape'.trans hshape.symm, horder, fun c hc => ?_⟩
  obtain ⟨i, j, hai, -, hbj, -, hval⟩ := hread c (hshape ▸ hc)
  obtain ⟨j', i', hbj', -, hai', -, hval'⟩ := hread' c (hshape ▸ hc)
  obtain rfl := hai.unique hai'
  obtain rfl := hbj.unique hbj'
  exact ⟨i, j, hai, hbj, hval, hval'⟩

end Grid

/-! ### Constants -/

namespace Tensor

/-- Two constants of one element type hold the same at some coordinates. -/
def AgreesAt (t u : Tensor) (c : List Nat) : Prop :=
  match t, u with
  | bool g, bool k => g.read c = k.read c
  | i64 g, i64 k => g.read c = k.read c
  | f32 g, f32 k => SameNumber (g.read c) (k.read c)
  | _, _ => False

/-- Constants of one shape, element type and memory layout, made of elements of `a` and `b` in one
order and in the other. They agree wherever they hold integers, and floats exactly where the
elements satisfy `P`. -/
structure Exchanged (P : Float32 → Float32 → Prop) (a b t u : Tensor) : Prop where
  shape : u.shape = t.shape
  elementType : u.elementType = t.elementType
  isStandard : u.isStandard = t.isStandard
  agreesAt : ∀ c, Grid.Inside t.shape c → ∃ i j, Grid.Aligned a.shape c i ∧
    Grid.Aligned b.shape c j ∧
    (t.AgreesAt u c ↔ (t.elementType = .f32 → P (a.toF32.read i) (b.toF32.read j)))

section

variable {f : Elementwise.Binary} {P : Float32 → Float32 → Prop}

lemma exists_exchanged_i64 {a b k : Grid Int64} {s : List Nat}
    (hf : ∀ x y, f.onIntegers x y = f.onIntegers y x)
    (h : a.zipStretched f.onIntegers b s = .ok k) : ∃ k',
      b.zipStretched f.onIntegers a s = .ok k' ∧ Exchanged P (i64 a) (i64 b) (i64 k) (i64 k') := by
  obtain ⟨k', hk', hshape, -, hread⟩ := Grid.exists_zipStretched_swap h
  refine ⟨k', hk', hshape, rfl, rfl, fun c hc => ?_⟩
  obtain ⟨i, j, hi, hj, hval, hval'⟩ := hread c hc
  refine ⟨i, j, hi, hj, iff_of_true ?_ fun h => by cases h⟩
  show k.read c = k'.read c
  rw [hval, hval', hf]

lemma exists_exchanged_f32 {a b : Tensor} {k : Grid Float32} {s : List Nat}
    (hf : ∀ x y, SameNumber (f.onFloats x y) (f.onFloats y x) ↔ P x y)
    (h : a.toF32.zipStretched f.onFloats b.toF32 s = .ok k) : ∃ k',
      b.toF32.zipStretched f.onFloats a.toF32 s = .ok k' ∧ Exchanged P a b (f32 k) (f32 k') := by
  obtain ⟨k', hk', hshape, horder, hread⟩ := Grid.exists_zipStretched_swap h
  have hstandard : k'.isStandard = k.isStandard := by
    rw [Bool.eq_iff_iff, Grid.isStandard_iff, Grid.isStandard_iff, horder]
  refine ⟨k', hk', hshape, rfl, hstandard, fun c hc => ?_⟩
  obtain ⟨i, j, hi, hj, hval, hval'⟩ := hread c hc
  refine ⟨i, j, a.shape_toF32 ▸ hi, b.shape_toF32 ▸ hj, ?_⟩
  show SameNumber (k.read c) (k'.read c) ↔ _
  rw [hval, hval', hf]
  exact ⟨fun h _ => h, fun h => h rfl⟩

/-- Numbers are folded in one order if they are in the other. -/
lemma exists_foldBinary_swap {a b : Tensor} {s : Shape} {v : Option Tensor}
    (hints : ∀ x y, f.onIntegers x y = f.onIntegers y x)
    (hfloats : ∀ x y, SameNumber (f.onFloats x y) (f.onFloats y x) ↔ P x y)
    (ha : a.elementType.isNumber = true) (hb : b.elementType.isNumber = true)
    (h : a.foldBinary f b s = .ok v) :
    ∃ t t', v = some t ∧ b.foldBinary f a s = .ok (some t') ∧ Exchanged P a b t t' := by
  have hrest (h : (a.toF32.zipStretched f.onFloats b.toF32 s.toSizes >>= fun k =>
      .ok (some (f32 k))) = .ok v) : ∃ t t', v = some t ∧
        (b.toF32.zipStretched f.onFloats a.toF32 s.toSizes >>= fun k => .ok (some (f32 k))) =
          .ok (some t') ∧ Exchanged P a b t t' := by
    obtain ⟨k, hk, hv⟩ := bind_eq_ok.1 h
    obtain ⟨k', hk', hex⟩ := exists_exchanged_f32 hfloats hk
    exact ⟨f32 k, f32 k', (Except.ok.inj hv).symm, bind_eq_ok.2 ⟨k', hk', rfl⟩, hex⟩
  cases a with
  | bool => cases ha
  | i64 x =>
    cases b with
    | bool => cases hb
    | i64 y =>
      obtain ⟨k, hk, hv⟩ := bind_eq_ok.1 h
      obtain ⟨k', hk', hex⟩ := exists_exchanged_i64 hints hk
      exact ⟨i64 k, i64 k', (Except.ok.inj hv).symm, bind_eq_ok.2 ⟨k', hk', rfl⟩, hex⟩
    | f32 y => exact hrest h
  | f32 x =>
    cases b with
    | bool => cases hb
    | i64 y | f32 y => exact hrest h

end

end Tensor

/-! ### Inference -/

namespace Elementwise

/-- Kinds whose inputs may come in any order have entries of functions that are the same in either
order, the maximum of a float that is a number and one that is not apart. -/
lemma exists_entry_of_commutative {kind : String} (h : kind ∈ commutativeKinds) : ∃ f : Binary,
    OpEntry.standard.reverse.find? (·.kind = kind) = some (.ofRule kind (Rules.binary f)) ∧
      (∀ x y, f.onIntegers x y = f.onIntegers y x) ∧
      ∀ x y, SameNumber (f.onFloats x y) (f.onFloats y x) ↔
        (kind = "Maximum" → x.isNaN = y.isNaN) := by
  have hsame {f : Binary} (hf : f = .add ∨ f = .multiply) (x y : Float32) :
      SameNumber (f.onFloats x y) (f.onFloats y x) := by
    rw [Binary.onFloats_swap hf]
    exact .refl _
  simp only [commutativeKinds, List.mem_cons, List.not_mem_nil, or_false] at h
  rcases h with rfl | rfl | rfl
  · exact ⟨.add, rfl, fun x y => Int64.add_comm x y,
      fun x y => iff_of_true (hsame (.inl rfl) x y) fun h => absurd h (by decide)⟩
  · exact ⟨.multiply, rfl, fun x y => Int64.mul_comm x y,
      fun x y => iff_of_true (hsame (.inr rfl) x y) fun h => absurd h (by decide)⟩
  · refine ⟨.maximum, rfl, fun x y => ?_, fun x y => Binary.sameNumber_maximum.trans
      ⟨fun h _ => h, fun h => h rfl⟩⟩
    simp only [Binary.onIntegers, Int64.lt_iff_toInt_lt, ← Int64.toInt_inj]
    grind

end Elementwise

/-- The rule on two constants of numbers, in a scene with one order and in one with the other. -/
lemma Rules.eval_binary_swap {f : Elementwise.Binary} {P : Float32 → Float32 → Prop}
    {a b : Tensor} {s s' : Scene} {ws : List Write}
    (hints : ∀ x y, f.onIntegers x y = f.onIntegers y x)
    (hfloats : ∀ x y, SameNumber (f.onFloats x y) (f.onFloats y x) ↔ P x y)
    (ha : a.elementType.isNumber = true) (hb : b.elementType.isNumber = true)
    (hs : s.Given [.ofValue a, .ofValue b]) (hs' : s'.Given [.ofValue b, .ofValue a])
    (hev : (binary f).eval s = .ok ((), ws)) : ∃ shape t t', ws = shaped 0 shape (some t) ∧
      (binary f).eval s' = .ok ((), shaped 0 shape (some t')) ∧ Tensor.Exchanged P a b t t' := by
  obtain ⟨hshapea, hvaluea⟩ := hs.constant (p := 0) rfl
  obtain ⟨hshapeb, hvalueb⟩ := hs.constant (p := 1) rfl
  obtain ⟨hshapeb', hvalueb'⟩ := hs'.constant (p := 0) rfl
  obtain ⟨hshapea', hvaluea'⟩ := hs'.constant (p := 1) rfl
  obtain ⟨_, _, shape, _, _, v, h₁, h₂, hshape, hvalid, h₃, h₄, hfold, rfl⟩ := eval_binary.1 hev
  cases h₁.symm.trans hshapea
  cases h₂.symm.trans hshapeb
  cases h₃.symm.trans hvaluea
  cases h₄.symm.trans hvalueb
  obtain ⟨t, t', rfl, hfold', hex⟩ := Tensor.exists_foldBinary_swap hints hfloats ha hb hfold
  exact ⟨shape, t, t', rfl, eval_binary.2 ⟨_, _, shape, _, _, _, hshapeb', hshapea',
    Shape.broadcast_swap hshape, hvalid, hvalueb', hvaluea', hfold', rfl⟩, hex⟩

section

variable {g g' : Graph} {id id' : NodeId} {o o' : Operation} {a b : Tensor}

variable (ha : g.Applied id o [.ofValue a, .ofValue b])
  (ha' : g'.Applied id' o' [.ofValue b, .ofValue a]) (hkind : o'.kind = o.kind)
  (hcommutes : o.kind ∈ commutativeKinds)
  (hna : a.elementType.isNumber = true) (hnb : b.elementType.isNumber = true)

include ha ha' hkind hcommutes hna hnb

/-- Inference of an operation on the operands in one order succeeds if it does in the other. -/
lemma Graph.Applied.gives_swap {changed : List NodeId} {h : Graph}
    (hx : Gives (Registry.standard.inferNode id) g changed h) :
    ∃ changed' h', Gives (Registry.standard.inferNode id') g' changed' h' ∧ ∃ t t' : Tensor,
      (∀ d, g.Output id 0 d → h.fact? d = some (.ofValue t)) ∧
      (∀ d, g'.Output id' 0 d → h'.fact? d = some (.ofValue t')) ∧
      Tensor.Exchanged (fun x y => o.kind = "Maximum" → x.isNaN = y.isNaN) a b t t' := by
  obtain ⟨f, hentry, hints, hfloats⟩ := Elementwise.exists_entry_of_commutative hcommutes
  obtain ⟨s, hgiven, hfollows, -⟩ := ha.follows hentry rfl (by simp [Fact.ofValue])
  obtain ⟨s', hgiven', hfollows', -⟩ :=
    ha'.follows (hkind.symm ▸ hentry) rfl (by simp [Fact.ofValue])
  obtain ⟨ws, hev⟩ := hfollows.gives_iff.1 ⟨changed, h, hx⟩
  obtain ⟨shape, t, t', rfl, hev', hex⟩ :=
    Rules.eval_binary_swap hints hfloats hna hnb hgiven hgiven' hev
  obtain ⟨changed', h', hx'⟩ := hfollows'.gives_iff.2 ⟨_, hev'⟩
  exact ⟨changed', h', hx', t, t', fun d hd => hfollows.fact?_folded ha hev hx hd,
    fun d hd => hfollows'.fact?_folded ha' hev' hx' hd, hex⟩

/-- **Operands in either order**: inferring an addition, a multiplication or a maximum of two
constants of numbers succeeds exactly when it does with the constants exchanged, and folds constants
of one shape, element type and memory layout. Wherever these hold integers they agree; floats are
the same number, or none on both sides, except where they are the maximum of a number and of
something that is not one. -/
theorem Graph.Applied.folds_swapped :
    ((∃ changed h, Gives (Registry.standard.inferNode id) g changed h) ↔
      ∃ changed h, Gives (Registry.standard.inferNode id') g' changed h) ∧
    ∀ changed h changed' h', Gives (Registry.standard.inferNode id) g changed h →
      Gives (Registry.standard.inferNode id') g' changed' h' → ∃ t t' : Tensor,
        (∀ d, g.Output id 0 d → h.fact? d = some (.ofValue t)) ∧
        (∀ d, g'.Output id' 0 d → h'.fact? d = some (.ofValue t')) ∧
        Tensor.Exchanged (fun x y => o.kind = "Maximum" → x.isNaN = y.isNaN) a b t t' := by
  refine ⟨⟨fun ⟨changed, h, hx⟩ => ?_, fun ⟨changed, h, hx⟩ => ?_⟩,
    fun changed h changed' h' hx hx' => ?_⟩
  · obtain ⟨changed', h', hx', -⟩ := ha.gives_swap ha' hkind hcommutes hna hnb hx
    exact ⟨changed', h', hx'⟩
  · obtain ⟨changed', h', hx', -⟩ :=
      ha'.gives_swap ha hkind.symm (hkind.symm ▸ hcommutes) hnb hna hx
    exact ⟨changed', h', hx'⟩
  · obtain ⟨changed₂, h₂, hx₂, hresult⟩ := ha.gives_swap ha' hkind hcommutes hna hnb hx
    obtain ⟨-, rfl⟩ := hx'.unique hx₂
    exact hresult

end

/-- What is not a number and zero, and their maximum in either order. -/
def unorderedMaxima : Edit Unit := do
  let a ← addConst "a" (.f32 (.fill [1] (.ofModel (.pack .notANumber))))
  let b ← addConst "b" (.zero .f32 [1])
  discard (wire "m" (.ofKind "Maximum") [a, b])
  discard (wire "n" (.ofKind "Maximum") [b, a])

/-- The two maxima are not the same. -/
theorem folds_swapped_unorderedMaxima :
    let g := (unorderedMaxima.run ∅).graph
    let a : Tensor := .f32 (.fill [1] (.ofModel (.pack .notANumber)))
    let b : Tensor := .zero .f32 [1]
    ∃ o, o.kind = "Maximum" ∧ g.Applied ⟨4⟩ o [.ofValue a, .ofValue b] ∧
      g.Applied ⟨6⟩ o [.ofValue b, .ofValue a] ∧
      ∃ changed h changed' h' t t', Gives (Registry.standard.inferNode ⟨4⟩) g changed h ∧
        Gives (Registry.standard.inferNode ⟨6⟩) g changed' h' ∧
        h.fact? ⟨5⟩ = some (.ofValue t) ∧ h'.fact? ⟨7⟩ = some (.ofValue t') ∧
        ¬t.AgreesAt t' [0] := by
  intro g a b
  have hg : g.WellFormed := by decide +kernel
  have hapart : g.Apart ⟨4⟩ ∧ g.Apart ⟨6⟩ := by
    unfold Graph.Apart
    decide +kernel
  have hout : g.Output ⟨4⟩ 0 ⟨5⟩ ∧ g.Output ⟨6⟩ 0 ⟨7⟩ := by
    unfold Graph.Output
    decide +kernel
  have ha : g.Applied ⟨4⟩ (.ofKind "Maximum") [.ofValue a, .ofValue b] :=
    .of_incoming hg hapart.1 rfl rfl rfl rfl
  have hb : g.Applied ⟨6⟩ (.ofKind "Maximum") [.ofValue b, .ofValue a] :=
    .of_incoming hg hapart.2 rfl rfl rfl rfl
  -- the rule succeeds on `m`, and writes a constant of one element
  obtain ⟨v, ⟨hv, htype⟩, changed, h, hx, hfact⟩ : ∃ v : Tensor,
      (v.shape = [1] ∧ v.elementType = .f32) ∧ ∃ changed h,
        Gives (Registry.standard.inferNode ⟨4⟩) g changed h ∧ h.fact? ⟨5⟩ = some (.ofValue v) := by
    have hentry : OpEntry.standard.reverse.find? (·.kind = "Maximum") =
        some (.ofRule "Maximum" (Rules.binary .maximum)) := rfl
    obtain ⟨s, hgiven, hfollows, -⟩ := ha.follows hentry rfl (by simp [Fact.ofValue])
    obtain ⟨hshape₀, hvalue₀⟩ := hgiven.constant (p := 0) rfl
    obtain ⟨hshape₁, hvalue₁⟩ := hgiven.constant (p := 1) rfl
    obtain ⟨v, hv, hev⟩ : ∃ v : Tensor, (v.shape = [1] ∧ v.elementType = .f32) ∧
        (Rules.binary .maximum).eval s = .ok ((), shaped 0 [1] (some v)) :=
      ⟨_, ⟨rfl, rfl⟩, Rules.eval_binary.2 ⟨_, _, [1], _, _, _, hshape₀, hshape₁, rfl, b.valid_dims,
        hvalue₀, hvalue₁, rfl, rfl⟩⟩
    obtain ⟨changed, h, hx⟩ := hfollows.gives_iff.2 ⟨_, hev⟩
    exact ⟨v, hv, changed, h, hx, hfollows.fact?_folded ha hev hx hout.1⟩
  obtain ⟨hboth, hresult⟩ := ha.folds_swapped hb rfl (by decide) rfl rfl
  obtain ⟨changed', h', hx'⟩ := hboth.1 ⟨changed, h, hx⟩
  obtain ⟨t, t', ht, ht', hex⟩ := hresult changed h changed' h' hx hx'
  obtain rfl : t = v := Option.some.inj <|
    congrArg Fact.value (Option.some.inj ((ht ⟨5⟩ hout.1).symm.trans hfact))
  refine ⟨_, rfl, ha, hb, changed, h, changed', h', t, t', hx, hx', hfact, ht' ⟨7⟩ hout.2, ?_⟩
  have hin : Grid.Inside t.shape [0] := by
    rw [hv]
    exact ⟨by decide, trivial⟩
  obtain ⟨i, j, hi, hj, hagrees⟩ := hex.agreesAt [0] hin
  rw [hagrees, hi.unique (Grid.aligned_unstretch (by decide)),
    hj.unique (Grid.aligned_unstretch (by decide))]
  exact fun heq => absurd (heq htype rfl) (by decide +kernel)

end TensorGraph
